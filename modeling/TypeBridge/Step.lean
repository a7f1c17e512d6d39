/-!
# Steps that may fail

A `Step` takes a state, answers or fails, and leaves a state behind. A failure keeps the changes
made before it. `onFirst`, `onSecond` and `within` run a step on a part of a larger state and leave
the rest of it alone.
-/

namespace TypeBridge

/-- A step on states `σ` that answers with an `α` or fails with an `ε`. -/
def Step (σ ε α : Type) : Type := σ → Except ε α × σ

namespace Step

variable {σ τ ε ε' α β : Type}

/-- What a step answers and leaves behind from a state. -/
def run (step : Step σ ε α) (state : σ) : Except ε α × σ := step state

/-- Answer at once. -/
protected def pure (answer : α) : Step σ ε α := fun state => (.ok answer, state)

/-- Go on with the answer of a step; a failure ends the sequence in the state it left. -/
protected def bind (step : Step σ ε α) (next : α → Step σ ε β) : Step σ ε β := fun state =>
  match step state with
  | (.ok answer, after) => next answer after
  | (.error fault, after) => (.error fault, after)

instance : Monad (Step σ ε) where
  pure := Step.pure
  bind := Step.bind

instance : LawfulMonad (Step σ ε) := LawfulMonad.mk' (Step σ ε)
  (by
    intro α step
    funext state
    simp only [Functor.map, Step.bind, Function.comp]
    rcases step state with ⟨answer | fault, after⟩ <;> rfl)
  (by intros; rfl)
  (by
    intro α β γ step f g
    funext state
    simp only [bind, Step.bind]
    rcases step state with ⟨answer | fault, after⟩ <;> rfl)

/-- Fail in the present state. -/
def fail (fault : ε) : Step σ ε α := fun state => (.error fault, state)

/-- The present state. -/
def get : Step σ ε σ := fun state => (.ok state, state)

/-- Change the state. -/
def modify (change : σ → σ) : Step σ ε Unit := fun state => (.ok (), change state)

/-- Take over an answer or a fault computed elsewhere. -/
def ofExcept (result : Except ε α) : Step σ ε α := fun state => (result, state)

/-- Fail with a fault of a wider kind. -/
def widen (widening : ε → ε') (step : Step σ ε α) : Step σ ε' α := fun state =>
  match step state with
  | (.ok answer, after) => (.ok answer, after)
  | (.error fault, after) => (.error (widening fault), after)

/-- Answer with what a step answers or fails with. -/
def attempt (step : Step σ ε α) : Step σ ε' (Except ε α) := fun state =>
  let (result, after) := step state
  (.ok result, after)

/-- Run a step on the first part of a pair. -/
def onFirst (step : Step σ ε α) : Step (σ × τ) ε α := fun state =>
  let (result, after) := step state.1
  (result, (after, state.2))

/-- Run a step on the second part of a pair. -/
def onSecond (step : Step τ ε α) : Step (σ × τ) ε α := fun state =>
  let (result, after) := step state.2
  (result, (state.1, after))

/-- Run a step on the part of a state that `part` reads and `replace` writes. -/
def within (part : σ → τ) (replace : τ → σ → σ) (step : Step τ ε α) : Step σ ε α := fun state =>
  let (result, after) := step (part state)
  (result, replace after state)

/-- Answering at once leaves the state alone. -/
@[simp] theorem run_pure (answer : α) (state : σ) :
    (pure answer : Step σ ε α).run state = (.ok answer, state) := rfl

/-- Failing leaves the state alone. -/
@[simp] theorem run_fail (fault : ε) (state : σ) :
    (fail fault : Step σ ε α).run state = (.error fault, state) := rfl

/-- Reading the state leaves it alone. -/
@[simp] theorem run_get (state : σ) : (get : Step σ ε σ).run state = (.ok state, state) := rfl

/-- A change is made to the state. -/
@[simp] theorem run_modify (change : σ → σ) (state : σ) :
    (modify change : Step σ ε Unit).run state = (.ok (), change state) := rfl

/-- A result computed elsewhere leaves the state alone. -/
@[simp] theorem run_ofExcept (result : Except ε α) (state : σ) :
    (ofExcept result : Step σ ε α).run state = (result, state) := rfl

/-- A sequence answers from where its first step left off, or stops with that step's fault. -/
theorem run_bind (step : Step σ ε α) (next : α → Step σ ε β) (state : σ) :
    (step >>= next).run state =
      match step.run state with
      | (.ok answer, after) => (next answer).run after
      | (.error fault, after) => (.error fault, after) := rfl

/-- A step on the first part keeps the second. -/
theorem run_onFirst (step : Step σ ε α) (state : σ × τ) :
    (onFirst step : Step (σ × τ) ε α).run state =
      ((step.run state.1).1, ((step.run state.1).2, state.2)) := rfl

/-- A step on the second part keeps the first. -/
theorem run_onSecond (step : Step τ ε α) (state : σ × τ) :
    (onSecond step : Step (σ × τ) ε α).run state =
      ((step.run state.2).1, (state.1, (step.run state.2).2)) := rfl

end Step

end TypeBridge
