import TypeBridge.Proofs.Ensures

/-!
# Faults of steps

`Step.FailsBy` says of what kind the faults are that a step can end with. As for other properties of
steps, there is one rule for each way to build a sequence.
-/

namespace TypeBridge.Step

variable {σ τ ε ε' α β : Type} {kind : ε → Prop} {step : Step σ ε α}

/-- Whatever fault a step ends with is of a kind. -/
def FailsBy (kind : ε → Prop) (step : Step σ ε α) : Prop :=
  ∀ state, step.Ensures state (fun _ _ => True) fun fault _ => kind fault

namespace FailsBy

/-- A sequence fails in one way only when both of its parts do. -/
theorem bind {next : α → Step σ ε β} (first : step.FailsBy kind)
    (rest : ∀ answer, (next answer).FailsBy kind) : (step >>= next).FailsBy kind :=
  fun state => Step.Ensures.bind _ (first state) fun answer after _ => rest answer after

/-- An answer fails in no way. -/
theorem pure (answer : α) : (Pure.pure answer : Step σ ε α).FailsBy kind :=
  fun _ => Step.Ensures.pure trivial

/-- Reading the state fails in no way. -/
theorem get : (Step.get : Step σ ε σ).FailsBy kind :=
  fun _ => ⟨fun _ _ => trivial, fun _ absurd => by cases absurd⟩

/-- Changing the state fails in no way. -/
theorem modify (change : σ → σ) : (Step.modify change : Step σ ε Unit).FailsBy kind :=
  fun _ => Step.Ensures.modify trivial

/-- A failure is of the kinds its fault is of. -/
theorem fail {fault : ε} (holds : kind fault) : (Step.fail fault : Step σ ε α).FailsBy kind :=
  fun _ => Step.Ensures.fail holds

/-- A computed result fails the way its fault says. -/
theorem ofExcept {result : Except ε α} (holds : ∀ fault, result = .error fault → kind fault) :
    (Step.ofExcept result : Step σ ε α).FailsBy kind :=
  fun _ => ⟨fun _ _ => trivial, holds⟩

/-- Faults that are widened are of the kind if all that come out are. -/
theorem widen {widening : ε' → ε} (step : Step σ ε' α) (holds : ∀ fault, kind (widening fault)) :
    (Step.widen widening step).FailsBy kind :=
  fun _ => Step.Ensures.widen ⟨fun _ _ => trivial, fun _ _ => holds _⟩

/-- A step on the first half of a state fails the way it does alone. -/
theorem onFirst (fails : step.FailsBy kind) : (Step.onFirst step : Step (σ × τ) ε α).FailsBy kind :=
  fun state => Step.Ensures.onFirst (fails state.1)

/-- A step on the second half of a state fails the way it does alone. -/
theorem onSecond (fails : step.FailsBy kind) :
    (Step.onSecond step : Step (τ × σ) ε α).FailsBy kind :=
  fun state => Step.Ensures.onSecond (fails state.2)

end FailsBy

end TypeBridge.Step
