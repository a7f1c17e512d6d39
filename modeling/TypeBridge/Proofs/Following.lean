import Mathlib.Order.RelClasses
import TypeBridge.Proofs.Ensures

/-!
# Steps that follow a relation

A step follows a relation if the state behind it is related to the one before, whatever comes of it.
Where the relation is one that states carry on, sequences follow it if their parts do, so that most
of what a step leaves alone can be read off from how it is put together.
-/

namespace TypeBridge.Step

variable {σ τ ε ε' α β : Type} {relation : σ → σ → Prop} {step : Step σ ε α}

/-- Whatever comes of a step, the state behind it is related to the one before. -/
def Follows (relation : σ → σ → Prop) (step : Step σ ε α) : Prop :=
  ∀ state, relation state (step.run state).2

namespace Follows

/-- A step that was run leads from its state to one that is related to it. -/
theorem of_run (follows : step.Follows relation) {state after : σ} {result : Except ε α}
    (ran : step.run state = (result, after)) : relation state after := by
  have behind := follows state
  rw [ran] at behind
  exact behind

/-- The relation holds whatever comes of the step. -/
theorem ensures (follows : step.Follows relation) (state : σ) :
    step.Ensures state (fun _ => relation state) (fun _ => relation state) :=
  ⟨fun _ _ => follows state, fun _ _ => follows state⟩

/-- A fault of a wider kind changes nothing about the states. -/
theorem widen (widening : ε → ε') (follows : step.Follows relation) :
    (Step.widen widening step).Follows relation := by
  intro state
  rw [run_widen]
  exact follows state

/-- A step that follows a relation follows a wider one. -/
theorem mono {wider : σ → σ → Prop} (follows : step.Follows relation)
    (widens : ∀ before after, relation before after → wider before after) : step.Follows wider :=
  fun state => widens _ _ (follows state)

/-- A sequence whose first step is known to give certain answers only. -/
theorem bind_answer [IsTrans σ relation] {next : α → Step σ ε β} {answers : α → Prop}
    (first : step.Follows relation)
    (gives : ∀ state, step.Ensures state (fun answer _ => answers answer) fun _ _ => True)
    (rest : ∀ answer, answers answer → (next answer).Follows relation) :
    (step >>= next).Follows relation := by
  intro state
  have start := first state
  rw [run_bind]
  cases ran : step.run state with
  | mk result middle =>
      rw [ran] at start
      cases result with
      | ok answer =>
          exact IsTrans.trans _ _ _ start (rest answer ((gives state).of_ok ran) middle)
      | error fault => exact start

/-- A sequence follows what its steps follow, if one can go on from step to step. -/
theorem bind [IsTrans σ relation] {next : α → Step σ ε β} (first : step.Follows relation)
    (rest : ∀ answer, (next answer).Follows relation) : (step >>= next).Follows relation :=
  first.bind_answer (fun _ => ⟨fun _ _ => trivial, fun _ _ => trivial⟩) fun answer _ => rest answer

variable [Std.Refl relation]

/-- A step that leaves the state alone follows every relation of a state to itself. -/
theorem of_same (same : ∀ state, (step.run state).2 = state) : step.Follows relation := by
  intro state
  rw [same]
  exact Std.Refl.refl state

/-- An answer at once leaves the state alone. -/
theorem pure (answer : α) : (Pure.pure answer : Step σ ε α).Follows relation :=
  of_same fun _ => rfl

/-- So does a failure. -/
theorem fail (fault : ε) : (Step.fail fault : Step σ ε α).Follows relation :=
  of_same fun _ => rfl

/-- So does a result computed elsewhere. -/
theorem ofExcept (result : Except ε α) : (Step.ofExcept result : Step σ ε α).Follows relation :=
  of_same fun _ => rfl

/-- So does a look at the state. -/
theorem get : (Step.get : Step σ ε σ).Follows relation := of_same fun _ => rfl

end Follows

end TypeBridge.Step
