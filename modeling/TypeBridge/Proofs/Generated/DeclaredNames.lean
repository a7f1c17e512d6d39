import TypeBridge.Proofs.Generated.Additions

/-!
# Names of declarations

Every declaration takes its name before it is added, so that the names under which variables,
functions and interfaces stand in a module are distinct and are those that are taken. A module is
`Tidy` if this holds of it and its interfaces can be handed all their arguments. All that is asked
of a module keeps it tidy, whatever comes of it (`Call.keepsTidy`, `Reached.tidy`).
-/

namespace TypeBridge.NativeModule

variable {module before after : NativeModule} {machine : Machine}

/-- The names under which variables, functions and interfaces stand in a module. -/
def declaredNames (module : NativeModule) : List String :=
  module.globals.map (·.name) ++ module.functions.map (·.name) ++ module.interfaceNames

/-- Every interface can be handed a value for each of its parameters. -/
def Passable (module : NativeModule) : Prop :=
  ∀ entry ∈ module.interfaces, ∀ shape ∈ entry.signature.params, shape.isVoid = false

/-- No two declarations share a name, the taken names are those of declarations, and interfaces can
be handed their arguments. -/
structure Tidy (module : NativeModule) : Prop where
  distinct : module.declaredNames.Nodup
  taken : ∀ name, name ∈ module.defined ↔ name ∈ module.declaredNames
  passable : module.Passable

/-- Whatever else happens, a tidy module is tidy again. -/
def KeepsTidy (before after : NativeModule) : Prop := before.Tidy → after.Tidy

instance : Std.Refl KeepsTidy := ⟨fun _ => id⟩

instance : IsTrans NativeModule KeepsTidy := ⟨fun _ _ _ start rest => rest ∘ start⟩

/-- Where nothing is declared, a tidy module stays tidy. -/
theorem Undeclared.keepsTidy (undeclared : before.Undeclared after) : before.KeepsTidy after := by
  intro tidy
  rw [undeclared]
  exact ⟨tidy.distinct, tidy.taken, tidy.passable⟩

/-- A step that declares nothing keeps a module tidy. -/
theorem keepsTidy_of_undeclared {α : Type} {step : ModuleStep α}
    (undeclared : StepFollows Undeclared step) : StepFollows KeepsTidy step :=
  undeclared.mono fun _ _ => Undeclared.keepsTidy

/-! ## Declarations -/

/-- A declaration that takes its name first and then stands under it keeps a module tidy. -/
theorem declare_keepsTidy {add : NativeModule → NativeModule} {name : String}
    (defined : ∀ module, (add module).defined = module.defined)
    (names : ∀ module, (add module).declaredNames.Perm (name :: module.declaredNames))
    (passable : ∀ module, module.Passable → (add module).Passable) :
    StepFollows KeepsTidy
      (onModule (claim name) >>= fun _ => onModule (Step.modify add) : ModuleStep Unit) := by
  rintro ⟨module, rest⟩ tidy
  cases free : module.defined.contains name with
  | true =>
      have refused : (onModule (claim name)).run (module, rest) =
          (.error (module.taken name), (module, rest)) := by
        rw [onModule, Step.run_onFirst, Step.run, claim, if_pos free]
      rw [Step.run_bind, refused]
      exact tidy
  | false =>
      rw [run_declare add free]
      have fresh : name ∉ module.declaredNames := by
        rw [← tidy.taken]
        simpa using free
      constructor
      · exact (names _).nodup_iff.mpr (List.nodup_cons.mpr ⟨fresh, tidy.distinct⟩)
      · intro other
        dsimp only
        rw [defined, (names _).mem_iff, List.mem_cons, List.mem_append, List.mem_singleton,
          tidy.taken, or_comm]
        exact Iff.rfl
      · exact passable _ tidy.passable

/-- Adding a variable keeps a module tidy. -/
theorem addVariable_keepsTidy (machine : Machine) (declared : Variable) :
    StepFollows KeepsTidy (addVariable machine declared) := by
  refine .bind (.ofExcept _) fun _ => .bind (ensureFree_follows _) fun _ => ?_
  refine .bind (keepsTidy_of_undeclared (typeUse_undeclared machine _)) fun type => ?_
  apply declare_keepsTidy
  · exact fun _ => rfl
  · intro module
    simp only [declaredNames, List.map_append, List.map_cons, List.map_nil, List.append_assoc,
      List.singleton_append]
    exact List.perm_middle
  · exact fun _ => id

/-- Adding a function keeps a module tidy. -/
theorem addFunction_keepsTidy (machine : Machine) (function : Function) :
    StepFollows KeepsTidy (addFunction machine function) := by
  refine .bind (.ofExcept _) fun _ => .bind (ensureFree_follows _) fun _ => ?_
  refine .bind_answer (keepsTidy_of_undeclared (callable_undeclared machine _ _ _ _))
    (callable_named machine _ _ _ _) fun entry named => ?_
  rw [← named]
  apply declare_keepsTidy
  · exact fun _ => rfl
  · intro module
    simp only [declaredNames, List.map_append, List.map_cons, List.map_nil, List.append_assoc,
      List.singleton_append]
    rw [← List.append_assoc, ← List.append_assoc]
    exact List.perm_middle
  · exact fun _ => id

/-! ## Interfaces -/

/-- Asking for the shape of a type declares nothing. -/
theorem callShape_undeclared (machine : Machine) (owner member : String)
    (type : Option MemberType) :
    StepFollows Undeclared (callShape machine owner member type) := by
  cases type with
  | none => exact .pure _
  | some type =>
      cases type with
      | scalar name =>
          exact .bind (StepFollows.onSecond _) fun _ => .bind (.ofExcept _) fun _ => .pure _
      | composite child =>
          exact .bind (fun _ => rfl) fun _ => .bind .get fun _ => .bind (.ofExcept _) fun _ =>
            .pure _
      | pointer child => exact .pure _

/-- Asking for the shapes of parameters declares nothing. -/
theorem callShapes_undeclared (machine : Machine) (owner : String) (parameters : List Parameter) :
    StepFollows Undeclared (callShapes machine owner parameters) := by
  induction parameters with
  | nil => exact .pure _
  | cons parameter rest ih =>
      exact .bind (callShape_undeclared machine owner _ _) fun _ => .bind ih fun _ => .pure _

/-- Whatever has a type can be handed over. -/
theorem callShape_passable (machine : Machine) (owner member : String) (type : MemberType)
    (state : NativeModule × Session × Workbench) :
    (callShape machine owner member (some type)).Ensures state
      (fun shape _ => shape.isVoid = false) (fun _ _ => True) := by
  have any : ∀ {α : Type} (step : ModuleStep α) (state : NativeModule × Session × Workbench),
      step.Ensures state (fun _ _ => True) (fun _ _ => True) :=
    fun _ _ => ⟨fun _ _ => trivial, fun _ _ => trivial⟩
  cases type with
  | scalar name =>
      refine .bind _ (any _ _) fun _ _ _ => ?_
      exact .bind_ofExcept (fun _ _ => .pure rfl) fun _ _ => trivial
  | composite child =>
      refine .bind _ (any _ _) fun _ _ _ => .bind_get ?_
      exact .bind_ofExcept (fun _ _ => .pure rfl) fun _ _ => trivial
  | pointer child => exact .pure rfl

/-- The shapes of parameters are those of values. -/
theorem callShapes_passable (machine : Machine) (owner : String) (parameters : List Parameter)
    (state : NativeModule × Session × Workbench) :
    (callShapes machine owner parameters).Ensures state
      (fun shapes _ => ∀ shape ∈ shapes, shape.isVoid = false) (fun _ _ => True) := by
  induction parameters generalizing state with
  | nil => exact .pure nofun
  | cons parameter rest ih =>
      refine .bind _ (callShape_passable machine owner _ _ state) fun shape middle first => ?_
      refine .bind _ (ih middle) fun shapes _ others => ?_
      exact .pure (List.forall_mem_cons.mpr ⟨first, others⟩)

/-- Adding an interface keeps a module tidy. -/
theorem addInterface_keepsTidy (machine : Machine) (interface : Interface) :
    StepFollows KeepsTidy (addInterface machine interface) := by
  refine .bind (.ofExcept _) fun _ => .bind (ensureFree_follows _) fun _ => ?_
  refine .bind_answer (keepsTidy_of_undeclared (callShapes_undeclared machine _ _))
    (callShapes_passable machine _ _) fun params passable => ?_
  refine .bind (keepsTidy_of_undeclared (callShape_undeclared machine _ _ _)) fun result => ?_
  refine .bind_answer (keepsTidy_of_undeclared (callable_undeclared machine _ _ _ _))
    (callable_named machine _ _ _ _) fun entry named => ?_
  rw [← named]
  apply declare_keepsTidy
  · exact fun _ => rfl
  · intro module
    simp only [declaredNames, interfaceNames, List.map_append, List.map_cons, List.map_nil]
    rw [← List.append_assoc]
    exact List.perm_append_singleton _ _
  · intro module earlier
    exact List.forall_mem_append.mpr ⟨earlier, List.forall_mem_singleton.mpr passable⟩

/-- Exporting a function keeps a module tidy. -/
theorem addExported_keepsTidy (machine : Machine) (function : Function)
    (exportedName : Option String) :
    StepFollows KeepsTidy (addExported machine function exportedName) :=
  .bind (.ofExcept _) fun interface => .bind (ensureFree_follows _) fun _ =>
    .bind (addFunction_keepsTidy machine function) fun _ =>
      .bind (addInterface_keepsTidy machine interface) fun _ => .pure _

/-! ## Calls and runs -/

/-- Whatever is asked of a module, and whatever comes of it, a tidy module stays tidy. -/
theorem Call.keepsTidy (call : module.Call after) : module.KeepsTidy after := by
  cases call with
  | quiet call =>
      intro tidy
      rw [call.alone]
      exact ⟨tidy.distinct, tidy.taken, tidy.passable⟩
  | setHeaderName headerName => exact fun tidy => ⟨tidy.distinct, tidy.taken, tidy.passable⟩
  | addHeader name moduleOnly =>
      unfold NativeModule.addHeader
      split
      · exact id
      · exact fun tidy => ⟨tidy.distinct, tidy.taken, tidy.passable⟩
  | addStructure machine composite rest built =>
      exact keepsTidy_of_undeclared (addStructure_undeclared machine composite) (module, rest)
  | addVariable machine declared rest built =>
      exact addVariable_keepsTidy machine declared (module, rest)
  | addFunction machine function rest built =>
      exact addFunction_keepsTidy machine function (module, rest)
  | addInterface machine interface rest built =>
      exact addInterface_keepsTidy machine interface (module, rest)
  | addExported machine function exportedName rest built =>
      exact addExported_keepsTidy machine function exportedName (module, rest)

theorem tidy_empty (name : String) : (empty name).Tidy where
  distinct := List.nodup_nil
  taken _ := Iff.rfl
  passable := nofun

/-- Modules that calls lead to are tidy. -/
theorem Reached.tidy (reached : module.Reached) : module.Tidy := by
  obtain ⟨name, calls⟩ := reached
  induction calls with
  | refl => exact tidy_empty name
  | tail _ call ih => exact call.keepsTidy ih

end TypeBridge.NativeModule
