import TypeBridge.Generated.NativeModule
import TypeBridge.Proofs.Failing

/-!
# Faults that are not about shapes

A declaration is refused for a shape if a value of its type does not cross the boundary to native
code (`GenerateFault.RefusesShape`). Entering a composite never ends with such a fault, nor does
anything else that is done to resolve a declaration.
-/

namespace TypeBridge

/-- Whether a fault is about a shape: about a value that does not cross the boundary. -/
def GenerateFault.RefusesShape : GenerateFault → Prop
  | .unsupported _ => True
  | .marshal _ => True
  | _ => False

/-- A name that is no identifier is not refused for a shape. -/
theorem checkIdentifier_fault {name : String} {fault : GenerateFault}
    (refused : checkIdentifier name = .error fault) : ¬ fault.RefusesShape := by
  obtain ⟨-, rfl⟩ := checkIdentifier_eq_error_iff.mp refused
  exact id

namespace Catalogue

/-- A packing is not refused for a shape. -/
theorem check_fault {packing : Packing} {fault : GenerateFault}
    (refused : packing.check = .error fault) : ¬ fault.RefusesShape := by
  obtain ⟨-, bytes, -, rfl⟩ := Packing.check_eq_error_iff.mp refused
  exact id

/-- Naming a scalar does not fail for a shape. -/
theorem resolveScalar_failsBy (machine : Machine) (name : TypeName) :
    (resolveScalar machine name).FailsBy fun fault => ¬ fault.RefusesShape :=
  .bind (.onSecond (.widen _ fun _ => id)) fun _ => .bind .get fun _ => .pure _

/-- Entering resolved fields does not fail for a shape. -/
theorem enter_failsBy (overflow : Overflow) (composite : Composite) (parts : List Piece) :
    (enter overflow composite parts).FailsBy fun fault => ¬ fault.RefusesShape := by
  intro catalogue
  unfold Step.Ensures Step.run enter
  dsimp only
  split
  · exact ⟨fun _ _ => trivial, fun _ absurd => by cases absurd⟩
  · split
    · refine ⟨fun _ _ => trivial, fun fault same => ?_⟩
      cases same
      exact id
    · split
      · refine ⟨fun _ _ => trivial, fun fault same => ?_⟩
        cases same
        exact id
      · exact ⟨fun _ _ => trivial, fun _ absurd => by cases absurd⟩

mutual

/-- A composite is not refused for its shape when it is entered. -/
theorem create_failsBy (machine : Machine) : (composite : Composite) →
    (create machine composite).FailsBy fun fault => ¬ fault.RefusesShape
  | .mk fields packing => by
    rw [create]
    refine .bind .get fun state => ?_
    have filled : (Step.ofExcept packing.check >>= fun _ => createFields machine fields >>=
        fun parts => Step.onFirst (enter machine.overflow (.mk fields packing) parts) :
          CatalogueStep Nat).FailsBy fun fault => ¬ fault.RefusesShape :=
      .bind (.ofExcept fun _ => check_fault) fun _ =>
        .bind (createFields_failsBy machine fields) fun parts => .onFirst (enter_failsBy _ _ parts)
    dsimp only
    split
    · exact .pure _
    · split
      · exact .bind (.fail id) fun _ => filled
      · exact filled

/-- Nor does resolving fields. -/
theorem createFields_failsBy (machine : Machine) : (fields : List Field) →
    (createFields machine fields).FailsBy fun fault => ¬ fault.RefusesShape
  | [] => by
    rw [createFields]
    exact .pure _
  | .mk name type count :: rest => by
    rw [createFields]
    exact .bind (.ofExcept fun _ => checkIdentifier_fault) fun _ =>
      .bind (createMember_failsBy machine type) fun _ =>
        .bind (createFields_failsBy machine rest) fun _ => .pure _

/-- Nor does resolving what a field holds. -/
theorem createMember_failsBy (machine : Machine) : (type : MemberType) →
    (createMember machine type).FailsBy fun fault => ¬ fault.RefusesShape
  | .scalar name => by
    rw [createMember]
    exact .bind (resolveScalar_failsBy machine name) fun _ => .pure _
  | .composite child => by
    rw [createMember]
    exact .bind (create_failsBy machine child) fun _ => .bind .get fun _ => .pure _
  | .pointer child => by
    rw [createMember]
    exact .bind (create_failsBy machine child) fun _ => .bind .get fun _ => .pure _

end

end Catalogue

namespace NativeModule

/-- Entering a composite into a module does not fail for a shape. -/
theorem onCatalogue_create_failsBy (machine : Machine) (composite : Composite) :
    (onCatalogue (Catalogue.create machine composite)).FailsBy fun fault => ¬ fault.RefusesShape :=
  fun state => Step.Ensures.within
    (Catalogue.create_failsBy machine composite (state.1.structures, state.2))

/-- Resolving a type of a declaration does not fail for a shape. -/
theorem typeUse_failsBy (machine : Machine) (type : Option MemberType) :
    (typeUse machine type).FailsBy fun fault => ¬ fault.RefusesShape := by
  have structure' : ∀ composite,
      (addStructure machine composite).FailsBy fun fault => ¬ fault.RefusesShape := fun composite =>
    .bind (onCatalogue_create_failsBy machine composite) fun _ =>
      .bind (.onFirst (.modify _)) fun _ => .pure _
  cases type with
  | none => exact .pure _
  | some type =>
      cases type with
      | scalar name =>
          exact .bind (.onSecond (.widen _ fun _ => id)) fun _ => .pure _
      | composite child => exact .bind (structure' child) fun _ => .pure _
      | pointer child => exact .bind (structure' child) fun _ => .pure _

/-- Nor does resolving the types of parameters. -/
theorem parameterUses_failsBy (machine : Machine) (parameters : List Parameter) :
    (parameterUses machine parameters).FailsBy fun fault => ¬ fault.RefusesShape := by
  induction parameters with
  | nil => exact .pure _
  | cons parameter others ih =>
      exact .bind (typeUse_failsBy machine _) fun _ => .bind ih fun _ => .pure _

/-- The names of parameters are not refused for a shape. -/
theorem checkParameters_fault {parameters : List Parameter} {fault : GenerateFault}
    (refused : checkParameters parameters = .error fault) : ¬ fault.RefusesShape := by
  induction parameters with
  | nil => cases refused
  | cons parameter others ih =>
      rw [checkParameters] at refused
      cases checked : checkIdentifier parameter.name with
      | error first =>
          rw [checked] at refused
          cases refused
          exact checkIdentifier_fault checked
      | ok =>
          rw [checked] at refused
          exact ih refused

/-- A step that fails only for a name that is taken does not fail for a shape. -/
theorem taken_failsBy {α : Type} {step : Step NativeModule GenerateFault α} (name : String)
    (taken : ∀ module fault, (step.run module).1 = .error fault → fault = module.taken name) :
    (onModule step).FailsBy fun fault => ¬ fault.RefusesShape := by
  rintro ⟨module, rest⟩
  refine ⟨fun _ _ => trivial, fun fault refused => ?_⟩
  rw [taken module fault refused]
  exact id

/-- Asking whether a name is free does not fail for a shape. -/
theorem ensureFree_failsBy (name : String) :
    (onModule (ensureFree name)).FailsBy fun fault => ¬ fault.RefusesShape := by
  refine taken_failsBy name fun module fault refused => ?_
  unfold Step.run ensureFree at refused
  split at refused
  · cases refused
    rfl
  · cases refused

/-- Taking a name does not fail for a shape. -/
theorem claim_failsBy (name : String) :
    (onModule (claim name)).FailsBy fun fault => ¬ fault.RefusesShape := by
  refine taken_failsBy name fun module fault refused => ?_
  unfold Step.run claim at refused
  split at refused
  · cases refused
    rfl
  · cases refused

end NativeModule

end TypeBridge
