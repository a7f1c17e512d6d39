import TypeBridge.Proofs.Generated.Runs
import TypeBridge.Proofs.Generated.Signing

/-!
# Interfaces that are added

A call leaves the interfaces of a module alone, or adds one at the end whose name was free and whose
signature is that of its types at the time (`Call.declares`). Whatever is asked of a module later,
an interface is found by its name (`Calls.signature?_eq`), and each one goes back to the call that
added it (`Calls.exists_addition`).
-/

namespace TypeBridge

/-- The signature of an interface has the shapes that its types have in the structures. -/
structure InterfaceEntry.Signed (structures : Catalogue) (entry : InterfaceEntry) : Prop where
  result : NativeModule.Fits (fun _ _ => True) structures entry.callable.result
    entry.signature.result
  params : List.Forall₂ (fun param shape =>
    NativeModule.Fits (fun _ _ => True) structures param.2 shape)
    entry.callable.params entry.signature.params

namespace NativeModule

variable {module before middle after : NativeModule} {machine : Machine} {entry : InterfaceEntry}
  {session : Session} {bench : Workbench} {rest : Session × Workbench}

/-- Two lists that go along with a third one go along with each other. -/
theorem forall₂_join {α β γ : Type} {one : α → β → Prop} {other : α → γ → Prop}
    {both : β → γ → Prop} (join : ∀ item left right, one item left → other item right →
      both left right) {items : List α} {lefts : List β} {rights : List γ}
    (ones : List.Forall₂ one items lefts) (others : List.Forall₂ other items rights) :
    List.Forall₂ both lefts rights := by
  induction ones generalizing rights with
  | nil =>
      cases others
      exact .nil
  | cons first _ ih =>
      cases others with
      | cons first' rest => exact .cons (join _ _ _ first first') (ih rest)

/-- An interface is signed as its types are when it is made. -/
theorem Made.signed {registry : Registry} {spells : TypeName → String → Prop}
    {structures : Catalogue} {interface : Interface}
    (made : Made registry spells structures interface entry) : entry.Signed structures where
  result := made.result.2.fits made.result.1 fun _ _ _ _ _ _ _ => trivial
  params := forall₂_join (fun _ _ _ param shape => param.2.fits shape fun _ _ _ _ _ _ _ => trivial)
    made.params made.shapes

/-! ## Steps that declare nothing -/

/-- Nothing is declared; structures may have been added and listed. -/
def Undeclared (before after : NativeModule) : Prop :=
  after = { before with structures := after.structures, structureOrder := after.structureOrder }

instance : Std.Refl Undeclared := ⟨fun _ => rfl⟩

instance : IsTrans NativeModule Undeclared := ⟨fun _ _ _ start rest => by
  rw [Undeclared] at start rest ⊢
  rw [rest, start]⟩

/-- A step of a module that follows a relation whatever it does in its session. -/
abbrev StepFollows (relation : NativeModule → NativeModule → Prop) {α : Type}
    (step : ModuleStep α) : Prop :=
  step.Follows (Order.Preimage Prod.fst relation)

namespace StepFollows

variable {relation wider : NativeModule → NativeModule → Prop}

/-- A step of a module alone does in a session what it does without. -/
theorem onModule {α : Type} {step : Step NativeModule GenerateFault α}
    (follows : step.Follows relation) : StepFollows relation (onModule step) :=
  fun state => follows state.1

/-- A step of the session leaves the module as it is. -/
theorem onSecond [Std.Refl relation] {α : Type}
    (step : Step (Session × Workbench) GenerateFault α) :
    StepFollows relation (Step.onSecond step) :=
  fun state => Std.Refl.refl state.1

end StepFollows

/-- Asking whether a name is free changes nothing. -/
theorem ensureFree_follows {relation : NativeModule → NativeModule → Prop} [Std.Refl relation]
    (name : String) : StepFollows relation (onModule (ensureFree name)) := by
  refine StepFollows.onModule (.of_same fun module => ?_)
  rw [Step.run, ensureFree]
  split
  · rfl
  · rfl

/-- Entering a structure declares nothing. -/
theorem addStructure_undeclared (machine : Machine) (composite : Composite) :
    StepFollows Undeclared (addStructure machine composite) :=
  .bind (fun _ => rfl) fun _ => .bind (fun _ => rfl) fun _ => .pure _

/-- Resolving a type declares nothing. -/
theorem typeUse_undeclared (machine : Machine) (type : Option MemberType) :
    StepFollows Undeclared (typeUse machine type) := by
  cases type with
  | none => exact .pure _
  | some type =>
      cases type with
      | scalar name => exact .bind (StepFollows.onSecond _) fun _ => .pure _
      | composite child => exact .bind (addStructure_undeclared machine child) fun _ => .pure _
      | pointer child => exact .bind (addStructure_undeclared machine child) fun _ => .pure _

/-- Resolving the types of parameters declares nothing. -/
theorem parameterUses_undeclared (machine : Machine) (parameters : List Parameter) :
    StepFollows Undeclared (parameterUses machine parameters) := by
  induction parameters with
  | nil => exact .pure _
  | cons parameter rest ih =>
      exact .bind (typeUse_undeclared machine _) fun _ => .bind ih fun _ => .pure _

/-- Resolving the types of a function declares nothing. -/
theorem callable_undeclared (machine : Machine) (name : String) (returnType : Option MemberType)
    (parameters : List Parameter) (body : String) :
    StepFollows Undeclared (callable machine name returnType parameters body) :=
  .bind (.ofExcept _) fun _ => .bind (typeUse_undeclared machine returnType) fun _ =>
    .bind (parameterUses_undeclared machine parameters) fun _ => .pure _

/-! ## Steps that leave interfaces alone -/

/-- The interfaces are left as they are, and names may have been taken. -/
structure Spares (before after : NativeModule) : Prop where
  defined : before.defined <+: after.defined
  interfaces : after.interfaces = before.interfaces

instance : Std.Refl Spares := ⟨fun _ => ⟨List.prefix_refl _, rfl⟩⟩

instance : IsTrans NativeModule Spares := ⟨fun _ _ _ start rest =>
  ⟨start.defined.trans rest.defined, rest.interfaces.trans start.interfaces⟩⟩

/-- Where nothing is declared, interfaces are left alone. -/
theorem Undeclared.spares (undeclared : before.Undeclared after) : before.Spares after := by
  rw [undeclared]
  exact ⟨List.prefix_refl _, rfl⟩

/-- Listing structures leaves interfaces alone. -/
theorem Lists.spares (lists : before.Lists after) : before.Spares after :=
  Undeclared.spares lists.alone

theorem addStructure_spares (machine : Machine) (composite : Composite) :
    StepFollows Spares (addStructure machine composite) :=
  (addStructure_undeclared machine composite).mono
    fun _ _ undeclared => Undeclared.spares undeclared

theorem typeUse_spares (machine : Machine) (type : Option MemberType) :
    StepFollows Spares (typeUse machine type) :=
  (typeUse_undeclared machine type).mono fun _ _ undeclared => Undeclared.spares undeclared

theorem callable_spares (machine : Machine) (name : String) (returnType : Option MemberType)
    (parameters : List Parameter) (body : String) :
    StepFollows Spares (callable machine name returnType parameters body) :=
  (callable_undeclared machine name returnType parameters body).mono
    fun _ _ undeclared => Undeclared.spares undeclared

/-- Taking a name leaves interfaces alone. -/
theorem claim_spares (name : String) : StepFollows Spares (onModule (claim name)) := by
  refine StepFollows.onModule fun module => ?_
  rw [Step.run, claim]
  split
  · exact Std.Refl.refl module
  · exact ⟨List.prefix_append _ _, rfl⟩

/-- Adding a variable leaves interfaces alone. -/
theorem addVariable_spares (machine : Machine) (declared : Variable) :
    StepFollows Spares (addVariable machine declared) :=
  .bind (.ofExcept _) fun _ => .bind (ensureFree_follows _) fun _ =>
    .bind (typeUse_spares machine _) fun _ => .bind (claim_spares _) fun _ =>
      StepFollows.onModule fun _ => ⟨List.prefix_refl _, rfl⟩

/-- Adding a function leaves interfaces alone. -/
theorem addFunction_spares (machine : Machine) (function : Function) :
    StepFollows Spares (addFunction machine function) :=
  .bind (.ofExcept _) fun _ => .bind (ensureFree_follows _) fun _ =>
    .bind (callable_spares machine _ _ _ _) fun _ => .bind (claim_spares _) fun _ =>
      StepFollows.onModule fun _ => ⟨List.prefix_refl _, rfl⟩

/-! ## Single calls -/

/-- What comes of the interfaces of a module: nothing, or one is added at the end, whose name was
free and whose signature has the shapes that its types have now. -/
structure Declares (before after : NativeModule) : Prop where
  defined : before.defined <+: after.defined
  interfaces : after.interfaces = before.interfaces ∨ ∃ entry,
    after.interfaces = before.interfaces ++ [entry] ∧ entry.callable.name ∉ before.defined ∧
      entry.callable.name ∈ after.defined ∧ entry.Signed after.structures

theorem Spares.declares (spares : before.Spares after) : before.Declares after :=
  ⟨spares.defined, Or.inl spares.interfaces⟩

/-- What is declared behind a step that leaves interfaces alone is declared by both together. -/
theorem Spares.trans_declares (start : before.Spares middle) (last : middle.Declares after) :
    before.Declares after where
  defined := start.defined.trans last.defined
  interfaces := by
    rw [← start.interfaces]
    refine last.interfaces.imp_right ?_
    rintro ⟨entry, added, free, taken, signed⟩
    exact ⟨entry, added, fun before => free (start.defined.subset before), taken, signed⟩

/-- A step that leaves interfaces alone declares none. -/
theorem StepFollows.declares {α : Type} {step : ModuleStep α} (spares : StepFollows Spares step)
    (module : NativeModule) (rest : Session × Workbench) :
    module.Declares (step.run (module, rest)).2.1 :=
  Spares.declares (spares (module, rest))

/-- Adding an interface declares that one if it is answered, and none if it is refused. -/
theorem addInterface_declares (sound : module.Sound) (interface : Interface)
    (built : typesBuilt interface.returnType interface.parameters)
    (rest : Session × Workbench) :
    (addInterface machine interface).Ensures (module, rest)
      (fun _ after => module.Declares after.1) (fun _ after => module.Declares after.1) := by
  refine (addInterface_made sound interface built).mono ?_ fun _ _ lists => lists.spares.declares
  rintro _ ⟨_, rest'⟩ ⟨-, free, middle, entry, lists, rfl, made⟩
  have named : entry.callable.name = interface.name := made.name
  refine ⟨lists.spares.defined.trans (List.prefix_append _ _), Or.inr ⟨entry, ?_, ?_, ?_, ?_⟩⟩
  · rw [withInterface, lists.spares.interfaces]
  · rwa [named]
  · exact List.mem_append_right _ (List.mem_singleton.mpr rfl)
  · exact made.signed

/-- Exporting a function declares its interface if it is answered, and none if it is refused. -/
theorem addExported_declares (sound : module.Sound) (function : Function)
    (exportedName : Option String)
    (built : typesBuilt function.returnType function.parameters) (rest : Session × Workbench) :
    (addExported machine function exportedName).Ensures (module, rest)
      (fun _ after => module.Declares after.1) (fun _ after => module.Declares after.1) := by
  have still : module.Declares module := Spares.declares (Std.Refl.refl module)
  rw [addExported]
  refine Step.Ensures.bind_ofExcept (fun interface made => ?_) fun _ _ => still
  refine Step.Ensures.bind (fun _ after => after.1 = module)
    (Step.Ensures.onFirst ((ensureFree_ensures interface.name module).mono
      (fun _ _ ensured => ensured.1) ?_)) ?_
  · rintro _ _ rfl
    exact still
  · rintro _ ⟨_, rest'⟩ rfl
    refine Step.Ensures.bind _ (((addFunction_ensures sound function built).both
      ((addFunction_spares machine function).ensures _)).mono_failed
        fun _ _ both => Spares.declares both.2) ?_
    rintro _ ⟨middle, rest''⟩ ⟨continues, spares⟩
    refine Step.Ensures.bind _ ((addInterface_declares continues.sound interface
      (built_defaultInterface made built) rest'').mono_failed
        fun _ _ declares => Spares.trans_declares spares declares) ?_
    intro _ after declares
    exact Step.Ensures.pure (Spares.trans_declares spares declares)

/-- A call adds one interface at most. -/
theorem Call.declares (call : module.Call after) (sound : module.Sound) :
    module.Declares after := by
  cases call with
  | quiet call =>
      rw [call.alone]
      exact ⟨List.prefix_refl _, Or.inl rfl⟩
  | setHeaderName headerName => exact ⟨List.prefix_refl _, Or.inl rfl⟩
  | addHeader name moduleOnly =>
      unfold NativeModule.addHeader
      split
      · exact ⟨List.prefix_refl _, Or.inl rfl⟩
      · exact ⟨List.prefix_refl _, Or.inl rfl⟩
  | addStructure machine composite rest built => exact (addStructure_spares machine _).declares _ _
  | addVariable machine declared rest built => exact (addVariable_spares machine _).declares _ _
  | addFunction machine function rest built => exact (addFunction_spares machine _).declares _ _
  | addInterface machine interface rest built =>
      exact Step.Ensures.of_run (σ := NativeModule × Session × Workbench)
        (fun after => module.Declares after.1)
        (addInterface_declares sound interface built rest) rfl
  | addExported machine function exportedName rest built =>
      exact Step.Ensures.of_run (σ := NativeModule × Session × Workbench)
        (fun after => module.Declares after.1)
        (addExported_declares sound function exportedName built rest) rfl

/-! ## Runs -/

/-- Interfaces are never taken out again. -/
theorem Calls.interfaces (calls : Calls before after) (sound : before.Sound) :
    before.interfaces <+: after.interfaces := by
  induction calls with
  | refl => exact List.prefix_refl _
  | tail earlier call ih =>
      have declares := call.declares (Calls.continues earlier sound).sound
      refine ih.trans ?_
      rcases declares.interfaces with same | ⟨_, added, -⟩
      · exact same ▸ List.prefix_refl _
      · exact added ▸ List.prefix_append _ _

/-- The names of all interfaces are taken. -/
theorem Reached.name_mem_defined (reached : module.Reached) (member : entry ∈ module.interfaces) :
    entry.callable.name ∈ module.defined := by
  obtain ⟨name, calls⟩ := reached
  induction calls with
  | refl => cases member
  | tail earlier call ih =>
      have declares := call.declares (Calls.continues earlier (sound_empty name)).sound
      rcases declares.interfaces with same | ⟨added, extended, -, taken, -⟩
      · rw [same] at member
        exact declares.defined.subset (ih member)
      · rw [extended] at member
        rcases List.mem_append.mp member with old | new
        · exact declares.defined.subset (ih old)
        · rwa [List.mem_singleton.mp new]

/-- An interface is found by its name from then on. -/
theorem Calls.signature?_eq (calls : Calls before after) (sound : before.Sound) {name : String}
    {signature : Signature} (found : before.signature? name = some signature) :
    after.signature? name = some signature := by
  obtain ⟨more, same⟩ := calls.interfaces sound
  obtain ⟨entry, here, rfl⟩ := Option.map_eq_some_iff.mp found
  rw [signature?, ← same, List.find?_append, here]
  rfl

/-- The last interface is found by its name if this was free. -/
theorem signature?_of_added
    (taken : ∀ other ∈ before.interfaces, other.callable.name ∈ before.defined)
    (free : entry.callable.name ∉ before.defined)
    (added : after.interfaces = before.interfaces ++ [entry]) :
    after.signature? entry.callable.name = some entry.signature := by
  have missing : before.interfaces.find? (fun other => other.callable.name = entry.callable.name) =
      none := by
    refine List.find?_eq_none.mpr fun other member same => free ?_
    rw [← of_decide_eq_true same]
    exact taken other member
  rw [signature?, added, List.find?_append, missing]
  simp

/-- An interface that came to a module was added by one call, as its types were then. -/
theorem Calls.exists_addition (calls : Calls before after) (sound : before.Sound)
    (member : entry ∈ after.interfaces) (new : entry ∉ before.interfaces) :
    ∃ earlier moment, Calls before earlier ∧ earlier.Call moment ∧ Calls moment after ∧
      moment.interfaces = earlier.interfaces ++ [entry] ∧ entry.Signed moment.structures := by
  -- Either the last call added the interface, or it was there before that call.
  induction calls with
  | refl => exact absurd member new
  | @tail middle after earlier call ih =>
      rcases (call.declares (Calls.continues earlier sound).sound).interfaces with
        same | ⟨added, extended, -, -, signed⟩
      · rw [same] at member
        obtain ⟨start, moment, before, called, later, at', signed⟩ := ih member
        exact ⟨start, moment, before, called, later.tail call, at', signed⟩
      · rw [extended] at member
        rcases List.mem_append.mp member with old | isNew
        · obtain ⟨start, moment, before, called, later, at', signed⟩ := ih old
          exact ⟨start, moment, before, called, later.tail call, at', signed⟩
        · cases List.mem_singleton.mp isNew
          exact ⟨middle, after, earlier, call, .refl, extended, signed⟩

end NativeModule

end TypeBridge
