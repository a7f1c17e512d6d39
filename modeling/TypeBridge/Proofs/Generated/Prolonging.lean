import TypeBridge.Proofs.Generated.Signing
import TypeBridge.Proofs.Record.ByValue

/-!
# Histories that go on

While composites are entered and scalars are named in one session, what was asked of a catalogue
stays known, and is told by the registry that the session has in the end (`Witnessed`). So the
history of a catalogue goes on with each step that enters composites (`Catalogue.Prolongs`), and that
of the structures of a module with each interface that is added to it (`addInterface_prolongs`).
-/

namespace TypeBridge

namespace Catalogue

/-- A catalogue in a session of which all is known: what was asked of it, in sessions that lead to
this one, which has only plain types registered. -/
structure Witnessed (log : EntryLog) (renamed : List Nat)
    (state : Catalogue × Session × Workbench) : Prop where
  history : History (Toward state.2.1.registry) log renamed state.1
  reached : ∃ unsized, Session.Reached unsized state.2.1
  plain : state.2.1.registry.Plain

/-- What was asked of a catalogue goes on from one state to another. -/
def Prolongs (before after : Catalogue × Session × Workbench) : Prop :=
  ∀ log renamed, Witnessed log renamed before →
    ∃ added, Witnessed (added ++ log) renamed after

instance : Std.Refl Prolongs := ⟨fun _ _ _ witnessed => ⟨[], witnessed⟩⟩

instance : IsTrans (Catalogue × Session × Workbench) Prolongs where
  trans _ _ _ start rest log renamed witnessed := by
    obtain ⟨earlier, middle⟩ := start log renamed witnessed
    obtain ⟨later, last⟩ := rest (earlier ++ log) renamed middle
    exact ⟨later ++ earlier, by rwa [List.append_assoc]⟩

/-- A history goes on while the session advances. -/
theorem Witnessed.advance {log : EntryLog} {renamed : List Nat} {catalogue : Catalogue}
    {session after : Session} {bench bench' : Workbench}
    (witnessed : Witnessed log renamed (catalogue, session, bench))
    (reached : ∃ unsized, Session.Reached unsized after) (advances : session.Advances after) :
    Witnessed log renamed (catalogue, after, bench') where
  history := witnessed.history.mono fun _ _ toward => toward.trans advances.grows
  reached := reached
  plain := advances.plain witnessed.plain

/-- Entering a composite prolongs the history. -/
theorem create_prolongs (machine : Machine) {composite : Composite} (built : composite.isBuilt) :
    (create machine composite).Follows Prolongs := by
  rintro ⟨catalogue, session, bench⟩ log renamed ⟨history, reached, plain⟩
  have notes := create_notes machine composite log catalogue (session, bench) reached
  have advances := create_advances machine composite (catalogue, session, bench)
  obtain ⟨added, same, -⟩ := notes.added
  have longer := (history.mono fun _ _ toward => toward.trans advances.grows).create machine
    composite (session, bench) built reached (Registry.Grows.refl _)
  refine ⟨added, ?_, notes.reached, advances.plain plain⟩
  rw [← show logAfter machine composite log catalogue (session, bench) = added ++ log from same]
  exact longer

end Catalogue

namespace NativeModule

variable {machine : Machine} {type : Option MemberType}

/-- The structures of a module in a session. -/
def structuresIn (state : NativeModule × Session × Workbench) : Catalogue × Session × Workbench :=
  (state.1.structures, state.2)

/-- Whatever comes of a step, the history of the structures goes on. -/
abbrev Prolongs {α : Type} (step : ModuleStep α) : Prop :=
  step.Follows (Order.Preimage structuresIn Catalogue.Prolongs)

/-- A step of the module that leaves its structures alone prolongs their history. -/
theorem onModule_prolongs {α : Type} {step : Step NativeModule GenerateFault α}
    (same : ∀ module, (step.run module).2.structures = module.structures) :
    Prolongs (onModule step) := by
  rintro ⟨module, rest⟩
  show Catalogue.Prolongs (module.structures, rest) ((step.run module).2.structures, rest)
  rw [same]
  exact Std.Refl.refl _

/-- Resolving a name prolongs the history of the structures. -/
theorem resolve_prolongs (machine : Machine) (name : TypeName) :
    Prolongs (Step.onSecond ((Session.resolve machine name).widen GenerateFault.type) :
      ModuleStep ResolvedScalar) := by
  rintro ⟨module, session, bench⟩ log renamed witnessed
  rw [Step.run_onSecond, Step.run_widen]
  obtain ⟨unsized, reached⟩ := witnessed.reached
  exact ⟨[], witnessed.advance ⟨unsized, reached.resolve machine name bench⟩
    (Session.resolve_advances machine name (session, bench))⟩

/-- Entering a composite prolongs it. -/
theorem onCatalogue_create_prolongs (machine : Machine) {composite : Composite}
    (built : composite.isBuilt) : Prolongs (onCatalogue (Catalogue.create machine composite)) :=
  fun state => Catalogue.create_prolongs machine built (structuresIn state)

/-- Entering and listing a composite prolongs it. -/
theorem addStructure_prolongs (machine : Machine) {composite : Composite}
    (built : composite.isBuilt) : Prolongs (addStructure machine composite) :=
  .bind (onCatalogue_create_prolongs machine built) fun _ =>
    .bind (onModule_prolongs fun _ => rfl) fun _ => .pure _

/-- Resolving a type prolongs it. -/
theorem typeUse_prolongs (built : ∀ member, type = some member → member.isBuilt) :
    Prolongs (typeUse machine type) := by
  cases type with
  | none => exact .pure _
  | some type =>
      cases type with
      | scalar name => exact .bind (resolve_prolongs machine name) fun _ => .pure _
      | composite child => exact .bind (addStructure_prolongs machine (built _ rfl)) fun _ => .pure _
      | pointer child => exact .bind (addStructure_prolongs machine (built _ rfl)) fun _ => .pure _

/-- Resolving the types of parameters prolongs it. -/
theorem parameterUses_prolongs (parameters : List Parameter)
    (built : ∀ parameter ∈ parameters, parameter.type.isBuilt) :
    Prolongs (parameterUses machine parameters) := by
  induction parameters with
  | nil => exact .pure _
  | cons parameter others ih =>
      obtain ⟨first, later⟩ := List.forall_mem_cons.mp built
      exact .bind (typeUse_prolongs fun _ same => Option.some.inj same ▸ first) fun _ =>
        .bind (ih later) fun _ => .pure _

/-- Asking for the shape of a type prolongs it. -/
theorem callShape_prolongs (owner member : String)
    (built : ∀ member, type = some member → member.isBuilt) :
    Prolongs (callShape machine owner member type) := by
  cases type with
  | none => exact .pure _
  | some type =>
      cases type with
      | scalar name =>
          exact .bind (resolve_prolongs machine name) fun _ => .bind (.ofExcept _) fun _ => .pure _
      | composite child =>
          exact .bind (onCatalogue_create_prolongs machine (built _ rfl)) fun _ =>
            .bind .get fun _ => .bind (.ofExcept _) fun _ => .pure _
      | pointer child => exact .pure _

/-- Asking for the shapes of parameters prolongs it. -/
theorem callShapes_prolongs (owner : String) (parameters : List Parameter)
    (built : ∀ parameter ∈ parameters, parameter.type.isBuilt) :
    Prolongs (callShapes machine owner parameters) := by
  induction parameters with
  | nil => exact .pure _
  | cons parameter others ih =>
      obtain ⟨first, later⟩ := List.forall_mem_cons.mp built
      exact .bind (callShape_prolongs owner parameter.name fun _ same =>
        Option.some.inj same ▸ first) fun _ => .bind (ih later) fun _ => .pure _

/-- Asking whether a name is free prolongs it. -/
theorem ensureFree_prolongs (name : String) : Prolongs (onModule (ensureFree name)) := by
  refine onModule_prolongs fun module => ?_
  unfold Step.run ensureFree
  split
  · rfl
  · rfl

/-- Taking a name prolongs it. -/
theorem claim_prolongs (name : String) : Prolongs (onModule (claim name)) := by
  refine onModule_prolongs fun module => ?_
  unfold Step.run claim
  split
  · rfl
  · rfl

/-- Adding an interface prolongs the history of the structures. -/
theorem addInterface_prolongs (machine : Machine) (interface : Interface)
    (built : typesBuilt interface.returnType interface.parameters) :
    Prolongs (addInterface machine interface) :=
  .bind (.ofExcept _) fun _ => .bind (ensureFree_prolongs _) fun _ =>
    .bind (callShapes_prolongs _ _ built.2) fun _ =>
      .bind (callShape_prolongs _ _ built.1) fun _ =>
        .bind (.bind (.ofExcept _) fun _ => .bind (typeUse_prolongs built.1) fun _ =>
          .bind (parameterUses_prolongs _ built.2) fun _ => .pure _) fun _ =>
            .bind (claim_prolongs _) fun _ => onModule_prolongs fun _ => rfl

end NativeModule

end TypeBridge
