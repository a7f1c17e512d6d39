import TypeBridge.Proofs.Generated.Declaring
import TypeBridge.Proofs.Generated.Rendering

/-!
# Modules that calls lead to

`NativeModule.Call` lists all that can be asked of a module, each time in a session of its own and
whatever comes of it; a `QuietCall` adds nothing to it. `Reached` modules are those that any calls
lead to from one that holds nothing. `Reached.sound` and `Calls.continues` carry the invariant.
-/

namespace TypeBridge.NativeModule

variable {module before after : NativeModule} {id : Nat}

/-- A call that adds nothing to a module: a request to its structures, or one for a text. -/
inductive QuietCall (module : NativeModule) : NativeModule → Prop where
  | structures {structures : Catalogue} (request : module.structures.Request structures) :
      QuietCall module { module with structures := structures }
  | renderModule : QuietCall module (renderModule.run module).2
  | renderHeader : QuietCall module (renderHeader.run module).2

/-- Anything that is asked of a module. -/
inductive Call (module : NativeModule) : NativeModule → Prop where
  | quiet {after : NativeModule} (call : module.QuietCall after) : Call module after
  | setHeaderName (headerName : String) : Call module (module.setHeaderName headerName)
  | addHeader (name : String) (moduleOnly : Bool) : Call module (module.addHeader name moduleOnly)
  | addStructure (machine : Machine) (composite : Composite) (rest : Session × Workbench)
      (built : composite.isBuilt) :
      Call module ((addStructure machine composite).run (module, rest)).2.1
  | addVariable (machine : Machine) (declared : Variable) (rest : Session × Workbench)
      (built : declared.type.isBuilt) :
      Call module ((addVariable machine declared).run (module, rest)).2.1
  | addFunction (machine : Machine) (function : Function) (rest : Session × Workbench)
      (built : typesBuilt function.returnType function.parameters) :
      Call module ((addFunction machine function).run (module, rest)).2.1
  | addInterface (machine : Machine) (interface : Interface) (rest : Session × Workbench)
      (built : typesBuilt interface.returnType interface.parameters) :
      Call module ((addInterface machine interface).run (module, rest)).2.1
  | addExported (machine : Machine) (function : Function) (exportedName : Option String)
      (rest : Session × Workbench) (built : typesBuilt function.returnType function.parameters) :
      Call module ((addExported machine function exportedName).run (module, rest)).2.1

/-- The module behind a request for a function. -/
def behindFunction (module : NativeModule) (machine : Machine) (function : Function)
    (rest : Session × Workbench) : NativeModule :=
  ((addFunction machine function).run (module, rest)).2.1

-- Stated for all functions: a given request would be run to compare the module with its name.
/-- A request for a function is a call. -/
theorem Call.behindFunction (machine : Machine) (function : Function) (rest : Session × Workbench)
    (built : typesBuilt function.returnType function.parameters) :
    module.Call (module.behindFunction machine function rest) :=
  .addFunction machine function rest built

/-- Any number of calls. -/
abbrev Calls : NativeModule → NativeModule → Prop := Relation.ReflTransGen Call

/-- Any number of calls that add nothing. -/
abbrev QuietCalls : NativeModule → NativeModule → Prop := Relation.ReflTransGen QuietCall

/-- A module that calls lead to. -/
def Reached (module : NativeModule) : Prop := ∃ name, Calls (.empty name) module

/-! ## Single calls -/

/-- Other structures in the same module. -/
theorem Sound.restructure (sound : module.Sound) {structures : Catalogue}
    (later : module.structures.Later structures) :
    module.Continues { module with structures := structures } where
  sound := {
    indexed := later.indexed sound.indexed
    structures := later.sound sound.indexed sound.structures
    ordered := sound.ordered.extend later.extension
    declared := sound.declared }
  later := later
  grows := List.prefix_refl _

/-- Marking the structures of a module only carries them on. -/
theorem Sound.marked (sound : module.Sound) : module.Continues module.marked :=
  sound.restructure (Catalogue.later_markAll sound.ordered.known)

/-- A call that adds nothing keeps a module sound and its order as it was begun. -/
theorem QuietCall.continues (call : module.QuietCall after) (sound : module.Sound) :
    module.Continues after := by
  cases call with
  | structures request => exact sound.restructure (request.later sound.indexed)
  | renderModule =>
      rw [run_renderModule]
      by_cases separate : module.headerName.isSome
      · rw [if_pos separate]
        exact .refl sound
      · rw [if_neg separate]
        exact sound.marked
  | renderHeader =>
      rw [run_renderHeader]
      exact sound.marked

/-- A call that adds nothing changes the structures at most. -/
theorem QuietCall.alone (call : module.QuietCall after) :
    after = { module with structures := after.structures } := by
  cases call with
  | structures => rfl
  | renderModule =>
      rw [run_renderModule]
      by_cases separate : module.headerName.isSome
      · rw [if_pos separate]
      · rw [if_neg separate]
        rfl
  | renderHeader =>
      rw [run_renderHeader]
      rfl

/-- What a step ensures of the module behind it holds whatever comes of it. -/
theorem continues_of_ensures {α : Type} {step : ModuleStep α} {rest : Session × Workbench}
    (ensures : step.Ensures (module, rest) (fun _ after => module.Continues after.1)
      (fun _ after => module.Continues after.1)) :
    module.Continues (step.run (module, rest)).2.1 :=
  Step.Ensures.of_run (σ := NativeModule × Session × Workbench)
    (fun after => module.Continues after.1) ensures rfl

/-- Every call keeps a module sound and carries on its structures and their order. -/
theorem Call.continues (call : module.Call after) (sound : module.Sound) :
    module.Continues after := by
  cases call with
  | quiet call => exact call.continues sound
  | setHeaderName headerName =>
      exact ⟨sound.declare rfl rfl fun _ member => Or.inl member, .refl _, List.prefix_refl _⟩
  | addHeader name moduleOnly =>
      unfold NativeModule.addHeader
      split
      · exact .refl sound
      · exact ⟨sound.declare rfl rfl fun _ member => Or.inl member, .refl _, List.prefix_refl _⟩
  | addStructure machine composite rest built =>
      apply continues_of_ensures
      exact (addStructure_ensures sound built).mono (fun _ _ ensured => ensured.1.continues)
        fun _ _ ensured => ensured.1.continues
  | addVariable machine declared rest built =>
      apply continues_of_ensures
      exact addVariable_ensures sound declared built
  | addFunction machine function rest built =>
      apply continues_of_ensures
      exact addFunction_ensures sound function built
  | addInterface machine interface rest built =>
      apply continues_of_ensures
      exact (addInterface_ensures sound interface built).mono_failed
        fun _ _ ensured => ensured.1.continues
  | addExported machine function exportedName rest built =>
      apply continues_of_ensures
      exact addExported_ensures sound function exportedName built

/-! ## Runs -/

/-- Any number of calls carry a module on. -/
theorem Calls.continues (calls : Calls before after) (sound : before.Sound) :
    before.Continues after := by
  induction calls with
  | refl => exact .refl sound
  | tail _ call ih => exact ih.trans (call.continues ih.sound)

/-- Calls that add nothing are calls. -/
theorem QuietCalls.calls (calls : QuietCalls before after) : Calls before after :=
  Relation.ReflTransGen.mono (fun _ _ call => .quiet call) _ _ calls

/-- Calls that add nothing change nothing but the structures. -/
theorem QuietCalls.alone (calls : QuietCalls before after) :
    after = { before with structures := after.structures } := by
  induction calls with
  | refl => rfl
  | tail _ call ih =>
      rw [call.alone, ih]

/-- A module that holds nothing is sound. -/
theorem sound_empty (name : String) : (empty name).Sound where
  indexed := Catalogue.indexed_empty
  structures := Catalogue.sound_empty
  ordered := .nil _
  declared := nofun

/-- Whatever is asked of a module, it stays sound. -/
theorem Reached.sound (reached : module.Reached) : module.Sound := by
  obtain ⟨name, calls⟩ := reached
  exact (calls.continues (sound_empty name)).sound

end TypeBridge.NativeModule
