import TypeBridge.Proofs.Generated.Refusal

/-!
# What a refused export leaves behind

An export adds a function and then the interface to it. The name of the interface is looked at
before, but its types are examined only when the function stands in the module; a function whose
interface is refused then stays, and its name stays taken. `addExported_outcome` says what an
export adds, and in which cases nothing tells that it was refused.
-/

namespace TypeBridge.NativeModule

variable {module before middle after : NativeModule} {machine : Machine} {function : Function}
  {interface : Interface} {exportedName : Option String} {rest : Session × Workbench}

/-! ## Single declarations -/

/-- A module with one more function. -/
def withFunction (module : NativeModule) (entry : Callable) : NativeModule :=
  { module with
    defined := module.defined ++ [entry.name]
    functions := module.functions ++ [entry] }

/-- A module with one more interface. -/
def withInterface (module : NativeModule) (entry : InterfaceEntry) : NativeModule :=
  { module with
    defined := module.defined ++ [entry.callable.name]
    interfaces := module.interfaces ++ [entry] }

/-- A declaration whose name is free is added under it. -/
theorem run_declare (add : NativeModule → NativeModule) {name : String}
    (free : module.defined.contains name = false) :
    (onModule (claim name) >>= fun _ => onModule (Step.modify add) : ModuleStep Unit).run
        (module, rest) =
      (.ok (), (add { module with defined := module.defined ++ [name] }, rest)) := by
  have claimed : (onModule (claim name)).run (module, rest) =
      (.ok (), ({ module with defined := module.defined ++ [name] }, rest)) := by
    rw [onModule, Step.run_onFirst, Step.run, claim,
      if_neg (by simp only [free, Bool.false_eq_true, not_false_eq_true])]
  rw [Step.run_bind, claimed]
  rfl

/-- A function goes by the name that it was resolved under. -/
theorem callable_named (machine : Machine) (name : String) (returnType : Option MemberType)
    (parameters : List Parameter) (body : String) (state : NativeModule × Session × Workbench) :
    (callable machine name returnType parameters body).Ensures state
      (fun entry _ => entry.name = name) (fun _ _ => True) := by
  rw [callable]
  refine Step.Ensures.bind_ofExcept (fun _ _ => ?_) fun _ _ => trivial
  refine Step.Ensures.bind (fun _ _ => True) ⟨fun _ _ => trivial, fun _ _ => trivial⟩ ?_
  intro result state _
  refine Step.Ensures.bind (fun _ _ => True) ⟨fun _ _ => trivial, fun _ _ => trivial⟩ ?_
  intro params state _
  exact Step.Ensures.pure rfl

/-- Adding an interface lists structures and adds it last. -/
theorem addInterface_adds (sound : module.Sound) (interface : Interface)
    (built : typesBuilt interface.returnType interface.parameters) :
    (addInterface machine interface).Ensures (module, rest)
      (fun _ after => ∃ middle entry, module.Lists middle ∧
        entry.callable.name = interface.name ∧ after.1 = middle.withInterface entry)
      (fun _ after => module.Lists after.1) := by
  rw [addInterface_eq]
  refine Step.Ensures.bind _ ((examine_ensures sound interface built).mono_failed
    fun _ _ unlisted => unlisted.1.2) ?_
  rintro signature ⟨examined, rest'⟩ ⟨unlisted, free⟩
  have resolves := (callable_ensures unlisted.1.1 interface.name interface.body built).both
    (callable_named machine interface.name _ _ _ (examined, rest'))
  refine Step.Ensures.bind _ (resolves.mono_failed fun _ _ listing =>
    unlisted.1.2.trans listing.1.1.2) ?_
  rintro entry ⟨resolved, rest''⟩ ⟨⟨listing, -⟩, named⟩
  have lists : module.Lists resolved := unlisted.1.2.trans listing.2
  have stillFree : resolved.defined.contains interface.name = false := by
    rw [lists.alone]
    exact free
  refine Step.Ensures.of_run_ok (run_declare _ stillFree) ?_
  refine ⟨resolved, ⟨entry, signature⟩, lists, named, ?_⟩
  rw [withInterface, named]

/-! ## Exports -/

/-- All that is looked at before the types of an exported function are resolved. -/
def prepareExport (function : Function) (exportedName : Option String) : ModuleStep Interface := do
  let interface ← Step.ofExcept (function.defaultInterface exportedName)
  onModule (ensureFree interface.name)
  Step.ofExcept (checkIdentifier function.name)
  onModule (ensureFree function.name)
  return interface

/-- An export is prepared first, then its function is added, and then its interface. -/
theorem addExported_eq (machine : Machine) (function : Function) (exportedName : Option String) :
    addExported machine function exportedName = (do
      let interface ← prepareExport function exportedName
      let entry ← callable machine function.name function.returnType function.parameters
        function.body
      onModule (claim function.name)
      onModule (Step.modify fun module => { module with functions := module.functions ++ [entry] })
      addInterface machine interface
      return interface.name) := by
  simp only [addExported, prepareExport, addFunction, bind_assoc, pure_bind]

/-- Nothing is changed before the types are resolved; then both names are free. -/
theorem prepareExport_ensures (function : Function) (exportedName : Option String)
    (state : NativeModule × Session × Workbench) :
    (prepareExport function exportedName).Ensures state
      (fun interface after => after = state ∧
        function.defaultInterface exportedName = .ok interface ∧
        state.1.defined.contains function.name = false)
      (fun _ after => after = state) := by
  obtain ⟨module, rest⟩ := state
  rw [prepareExport]
  apply Step.Ensures.bind_ofExcept
  · intro interface made
    refine Step.Ensures.bind (fun _ after => after = (module, rest))
      (Step.Ensures.onFirst ((ensureFree_ensures interface.name module).mono ?_ ?_)) ?_
    · rintro _ _ ⟨rfl, -⟩
      rfl
    · rintro _ _ rfl
      rfl
    · rintro _ _ rfl
      apply Step.Ensures.bind_ofExcept
      · intro _ _
        refine Step.Ensures.bind (fun _ after => after = (module, rest) ∧
          module.defined.contains function.name = false)
          (Step.Ensures.onFirst ((ensureFree_ensures function.name module).mono ?_ ?_)) ?_
        · rintro _ _ ⟨rfl, free⟩
          exact ⟨rfl, free⟩
        · rintro _ _ rfl
          rfl
        · rintro _ _ ⟨rfl, free⟩
          exact Step.Ensures.pure ⟨rfl, made, free⟩
      · intro _ _
        rfl
  · intro _ _
    rfl

/-- The types of an export that are resolved before its first fault. -/
def exportedTypes (machine : Machine) (function : Function) (exportedName : Option String)
    (state : NativeModule × Session × Workbench) : List (Option MemberType) :=
  match ((prepareExport function exportedName).run state).1 with
  | .ok _ => calledTypes machine function.returnType function.parameters state
  | .error _ => []

/-- Whether the function of an export is added, whatever comes of its interface: all goes well up to
there. -/
def FunctionPasses (machine : Machine) (function : Function) (exportedName : Option String)
    (state : NativeModule × Session × Workbench) : Prop :=
  ((prepareExport function exportedName).run state).1.isOk ∧
    ((callable machine function.name function.returnType function.parameters
      function.body).run state).1.isOk

/-- A module behind an export: the function and the interface stand at the ends, and both names are
taken. -/
structure Exported (before after : NativeModule) (function name : String) : Prop where
  functions : ∃ entry, after.functions = before.functions ++ [entry] ∧ entry.name = function
  interfaces : ∃ entry, after.interfaces = before.interfaces ++ [entry] ∧ entry.callable.name = name
  defined : after.defined = before.defined ++ [function, name]

/-- A module behind an export whose interface was refused when the function had been added: the
function stands in the source, its name is taken, and no function of that name can be exported any
more. -/
structure HalfExported (before after : NativeModule) (function : String) : Prop where
  functions : ∃ entry, after.functions = before.functions ++ [entry] ∧ entry.name = function ∧
    Text.Shows after.sourceText (after.definitionText entry)
  interfaces : after.interfaces = before.interfaces
  defined : after.defined = before.defined ++ [function]
  blocked : ∀ machine (again : Function) exportedName rest name, again.name = function →
    ((addExported machine again exportedName).run (after, rest)).1 ≠ .ok name

/-- A function whose name is taken is not exported. -/
theorem addExported_ne_ok (taken : function.name ∈ module.defined) (machine : Machine)
    (exportedName : Option String) (rest : Session × Workbench) (name : String) :
    ((addExported machine function exportedName).run (module, rest)).1 ≠ .ok name := by
  rw [addExported_eq, Step.run_bind]
  cases ran : (prepareExport function exportedName).run (module, rest) with
  | mk result state =>
      cases result with
      | error fault => nofun
      | ok interface =>
          have free := ((prepareExport_ensures function exportedName (module, rest)).of_ok ran).2.2
          rw [List.contains_iff_mem.mpr taken] at free
          cases free

/-- A function stands in the source with its definition. -/
theorem shows_definition {entry : Callable} (member : entry ∈ module.functions) :
    Text.Shows module.sourceText (module.definitionText entry) := by
  have here := shows_joinEach "\n\n" module.definitionText member (.refl _)
  unfold sourceText sourceParts Source.moduleText
  dsimp only
  exact (((here.behind _).before _).before _).before _

/-- A function that was added stays when its interface is refused. -/
theorem halfExported {entry : Callable} (start : before.Lists middle)
    (last : (middle.withFunction entry).Lists after) : before.HalfExported after entry.name where
  functions := by
    have functions : after.functions = before.functions ++ [entry] := by
      rw [last.alone, start.alone]
      rfl
    refine ⟨entry, functions, rfl, shows_definition ?_⟩
    simp [functions]
  interfaces := by
    rw [last.alone, start.alone]
    rfl
  defined := by
    rw [last.alone, start.alone]
    rfl
  blocked machine again exportedName rest name same := by
    refine addExported_ne_ok ?_ machine exportedName rest name
    rw [last.alone, start.alone, same]
    simp [withFunction]

/-- A module with half an export shows more than it did. -/
theorem HalfExported.not_alike {name : String} (half : before.HalfExported after name) :
    ¬before.Alike after := by
  intro alike
  have same := half.defined.symm.trans alike.defined
  simp at same

/-- The interface for a function has the exported name. -/
theorem name_defaultInterface
    (made : function.defaultInterface exportedName = .ok interface) :
    interface.name = function.interfaceName exportedName := by
  unfold Function.defaultInterface at made
  obtain ⟨-, -, made⟩ := exists_of_bind_ok made
  split at made
  · cases made
  · cases made
    rfl

/-- A module stays sound when a function is added whose structures are listed. -/
theorem Sound.withFunction (sound : module.Sound) {entry : Callable}
    (listed : ∀ id ∈ entry.ids, id ∈ module.structureOrder) :
    (module.withFunction entry).Sound := by
  refine sound.declare rfl rfl fun id member => ?_
  simp only [NativeModule.withFunction, declaredIds, List.flatMap_append, List.flatMap_singleton,
    List.mem_append] at member ⊢
  have here := listed id
  tauto

/-- Behind its function, an export adds the interface, or leaves the function alone. -/
theorem addInterface_outcome {entry : Callable} (start : before.Lists middle)
    (sound : (middle.withFunction entry).Sound)
    (built : typesBuilt interface.returnType interface.parameters) :
    (addInterface machine interface >>= fun _ => pure interface.name : ModuleStep String).Ensures
      (middle.withFunction entry, rest)
      (fun name after => name = interface.name ∧ before.Exported after.1 entry.name name)
      (fun _ after => before.HalfExported after.1 entry.name) := by
  refine Step.Ensures.bind _ ((addInterface_adds sound interface built).mono_failed
    fun _ _ last => halfExported start last) ?_
  rintro _ ⟨_, rest'⟩ ⟨last, added, lists, named, rfl⟩
  refine Step.Ensures.pure ⟨rfl, ?_, ?_, ?_⟩
  · refine ⟨entry, ?_, rfl⟩
    rw [NativeModule.withInterface, lists.alone, start.alone]
    rfl
  · refine ⟨added, ?_, named⟩
    rw [NativeModule.withInterface, lists.alone, start.alone]
    rfl
  · rw [NativeModule.withInterface, lists.alone, start.alone, named]
    simp [NativeModule.withFunction]

/-- An export whose function passes is answered, or leaves the function alone. -/
theorem addExported_passing (sound : module.Sound)
    (built : typesBuilt function.returnType function.parameters)
    (passes : FunctionPasses machine function exportedName (module, rest)) :
    (addExported machine function exportedName).Ensures (module, rest)
      (fun name after => name = function.interfaceName exportedName ∧
        module.Exported after.1 function.name name)
      (fun _ after => module.HalfExported after.1 function.name) := by
  obtain ⟨interface, state, prepared⟩ := Step.exists_of_run_isOk passes.1
  obtain ⟨entry, ⟨middle, rest'⟩, resolved⟩ := Step.exists_of_run_isOk passes.2
  obtain ⟨rfl, made, free⟩ := (prepareExport_ensures function exportedName _).of_ok prepared
  obtain ⟨listing, listed⟩ :=
    (callable_ensures sound function.name function.body built).of_ok resolved
  have named := (callable_named machine function.name _ _ _ _).of_ok resolved
  have lists : module.Lists middle := listing.2
  have stillFree : middle.defined.contains function.name = false := by
    rw [lists.alone]
    exact free
  rw [addExported_eq]
  refine Step.Ensures.bind_of_ok prepared (Step.Ensures.bind_of_ok resolved ?_)
  -- Taking the name and adding the function is one step that cannot fail: the name is free still.
  rw [← bind_assoc]
  refine Step.Ensures.bind_of_ok (run_declare _ stillFree) ?_
  rw [← named]
  refine (addInterface_outcome lists (listing.1.withFunction listed)
    (built_defaultInterface made built)).mono ?_ fun _ _ half => half
  rintro _ after ⟨rfl, exported⟩
  exact ⟨name_defaultInterface made, exported⟩

/-- An export whose function does not pass is refused, when structures have been listed at most,
those of the types that were resolved. -/
theorem addExported_failing (sound : module.Sound)
    (built : typesBuilt function.returnType function.parameters)
    (fails : ¬FunctionPasses machine function exportedName (module, rest)) :
    (addExported machine function exportedName).Ensures (module, rest) (fun _ _ => False)
      (fun _ after => module.Lists after.1 ∧
        module.Settles after.1 (exportedTypes machine function exportedName (module, rest))) := by
  rw [addExported_eq]
  unfold FunctionPasses at fails
  unfold exportedTypes
  cases prepared : (prepareExport function exportedName).run (module, rest) with
  | mk result state =>
      cases result with
      | error fault =>
          obtain rfl := (prepareExport_ensures function exportedName _).of_error prepared
          exact Step.Ensures.bind_of_error prepared ⟨.refl module, .nil rfl⟩
      | ok interface =>
          obtain ⟨rfl, -, -⟩ := (prepareExport_ensures function exportedName _).of_ok prepared
          refine Step.Ensures.bind_of_ok prepared ?_
          cases resolved : (callable machine function.name function.returnType function.parameters
              function.body).run (module, rest) with
          | mk result state =>
              cases result with
              | error fault =>
                  obtain ⟨listing, settles⟩ := (callable_ensures sound function.name
                    function.body built).of_error resolved
                  exact Step.Ensures.bind_of_error resolved ⟨listing.2, settles⟩
              | ok entry =>
                  rw [prepared, resolved] at fails
                  exact absurd ⟨rfl, rfl⟩ fails

/-- What an export does. If it is answered, the function and the interface have been added under
their names. If it is refused when the function had been added, the function stays, and the export
cannot be repeated. If it is refused before, structures were listed at most, and nothing tells that
it was tried exactly if those were listed already to which the types lead that had been resolved. -/
theorem addExported_outcome (reached : module.Reached)
    (built : typesBuilt function.returnType function.parameters) :
    (addExported machine function exportedName).Ensures (module, rest)
      (fun name after => name = function.interfaceName exportedName ∧
        module.Exported after.1 function.name name)
      (fun _ after =>
        (FunctionPasses machine function exportedName (module, rest) →
          module.HalfExported after.1 function.name ∧ ¬module.Alike after.1) ∧
        (¬FunctionPasses machine function exportedName (module, rest) →
          module.Lists after.1 ∧
          (module.Alike after.1 ↔ module.WereListed after.1
            (exportedTypes machine function exportedName (module, rest))))) := by
  have sound := reached.sound
  by_cases passes : FunctionPasses machine function exportedName (module, rest)
  · refine (addExported_passing sound built passes).mono_failed fun _ after half => ?_
    exact ⟨fun _ => ⟨half, half.not_alike⟩, fun fails => absurd passes fails⟩
  · refine (addExported_failing sound built passes).mono (fun _ _ absurd => absurd.elim) ?_
    rintro _ after ⟨lists, settles⟩
    refine ⟨fun holds => absurd holds passes, fun _ => ⟨lists, ?_⟩⟩
    rw [lists.alike_iff sound]
    exact settles.unchanged

/-- A session that knows extended floats and has nothing to probe. -/
def extendedSession : Session × Workbench :=
  let names : List TypeName := [.native "long double", .arrayLib "float128", .ffi "c_longdouble"]
  ({ Catalogue.floatSession.1 with
      registry := names.foldl
        (fun registry name => registry.insert name (.float Builtin.longDoubleSize)) .empty },
    Catalogue.floatSession.2)

/-- A function on extended floats, which do not cross the boundary. -/
def half : Function :=
  ⟨"half", some (.scalar (.native "long double")), [⟨"x", .scalar (.native "long double")⟩],
    "return x / 2;"⟩

/-- The types of the function are built. -/
theorem built_half : typesBuilt half.returnType half.parameters := by
  constructor
  · rintro type ⟨⟩
    decide
  · intro parameter member
    rw [List.mem_singleton.mp member]
    decide

/-- What is left of a module that held nothing when the export is refused. -/
def behindHalf : NativeModule × Session × Workbench :=
  ((addExported Scripted.Script.words.machine half none).run (empty "m", extendedSession)).2

/-- The export is refused with its function added, and neither the preparation nor the function was
what failed. -/
theorem facts_half : ((addExported Scripted.Script.words.machine half none).run
      (empty "m", extendedSession)).1 =
        .error (.unsupported "`c_half.x` (signed float (16 bytes))") ∧
    behindHalf.1.defined = ["half"] ∧
    ((prepareExport half none).run (empty "m", extendedSession)).1.isOk ∧
    ((callable Scripted.Script.words.machine half.name half.returnType half.parameters
      half.body).run (empty "m", extendedSession)).1.isOk := by
  decide +kernel

/-- The run of the export is its refusal and what it leaves. -/
theorem run_half : (addExported Scripted.Script.words.machine half none).run
    (empty "m", extendedSession) =
      (.error (.unsupported "`c_half.x` (signed float (16 bytes))"), behindHalf) := by
  unfold behindHalf
  exact Step.run_eq_of_fst facts_half.1

/-- Its function stays in the module when its interface is refused. -/
theorem addExported_outcome_half : (empty "m").Reached ∧
    (addExported Scripted.Script.words.machine half none).run (empty "m", extendedSession) =
      (.error (.unsupported "`c_half.x` (signed float (16 bytes))"), behindHalf) ∧
    (empty "m").HalfExported behindHalf.1 "half" ∧ ¬(empty "m").Alike behindHalf.1 := by
  have reached : (empty "m").Reached := ⟨"m", .refl⟩
  have passes : FunctionPasses Scripted.Script.words.machine half none
      (empty "m", extendedSession) := facts_half.2.2
  have outcome := (addExported_outcome reached built_half).of_error run_half
  exact ⟨reached, run_half, outcome.1 passes⟩

/-- A refused export can be told from none. -/
theorem refused_export_seen_half : ¬ ∀ (module : NativeModule) machine function exportedName rest
    fault after, module.Reached → typesBuilt function.returnType function.parameters →
    (addExported machine function exportedName).run (module, rest) = (.error fault, after) →
    module.Alike after.1 := by
  intro claim
  have alike := claim (empty "m") _ half none _ _ _ ⟨"m", .refl⟩ built_half run_half
  have taken := facts_half.2.1
  rw [alike.defined] at taken
  cases taken

end TypeBridge.NativeModule
