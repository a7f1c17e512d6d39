import TypeBridge.Step

/-!
# What a step ensures

`Step.Ensures` says of a step in a state what holds of its answer and the state behind it, and what
holds of its fault and the state that a failure leaves. There is one rule for each way to build a
sequence, so that a claim about a long one is put together from claims about its parts.
-/

namespace TypeBridge

section Results

variable {ε α β : Type}

/-- What goes well has an answer. -/
theorem exists_of_isOk {result : Except ε α} (ok : result.isOk) :
    ∃ answer, result = .ok answer := by
  cases result with
  | error fault => cases ok
  | ok answer => exact ⟨answer, rfl⟩

/-- A sequence that answers has an answer of its first part. -/
theorem exists_of_bind_ok {result : Except ε α} {next : α → Except ε β} {answer : β}
    (ran : result >>= next = .ok answer) :
    ∃ first, result = .ok first ∧ next first = .ok answer := by
  cases result with
  | error fault => cases ran
  | ok first => exact ⟨first, rfl, ran⟩

/-- What is made of an answer was made of one. -/
theorem exists_of_map_ok {result : Except ε α} {change : α → β} {answer : β}
    (ran : result.map change = .ok answer) :
    ∃ first, result = .ok first ∧ change first = answer := by
  cases result with
  | error fault => cases ran
  | ok first => exact ⟨first, rfl, Except.ok.inj ran⟩

end Results

namespace Step

variable {σ τ ε ε' α β : Type}

/-- A step whose result is known leaves whatever it leaves. -/
theorem run_eq_of_fst {step : Step σ ε α} {state : σ} {result : Except ε α}
    (same : (step.run state).1 = result) : step.run state = (result, (step.run state).2) :=
  Prod.ext same rfl

/-- A step that goes well has an answer and a state behind it. -/
theorem exists_of_run_isOk {step : Step σ ε α} {state : σ} (ok : (step.run state).1.isOk) :
    ∃ answer after, step.run state = (.ok answer, after) := by
  obtain ⟨answer, same⟩ := exists_of_isOk ok
  exact ⟨answer, _, run_eq_of_fst same⟩

/-- A step whose result is known leaves some state. -/
theorem exists_of_fst {step : Step σ ε α} {state : σ} {result : Except ε α}
    (same : (step.run state).1 = result) : ∃ after, step.run state = (result, after) :=
  ⟨_, run_eq_of_fst same⟩

/-- A sequence that answers went through an answer of its first step. -/
theorem exists_of_run_bind_ok {step : Step σ ε α} {next : α → Step σ ε β} {state after : σ}
    {answer : β} (ran : (step >>= next).run state = (.ok answer, after)) :
    ∃ first middle, step.run state = (.ok first, middle) ∧
      (next first).run middle = (.ok answer, after) := by
  rw [run_bind] at ran
  cases first : step.run state with
  | mk result middle =>
      rw [first] at ran
      cases result with
      | ok value => exact ⟨value, middle, rfl, ran⟩
      | error fault => cases (Prod.mk.inj ran).1

/-- A fault of a wider kind changes nothing about the state. -/
theorem run_widen (widening : ε → ε') (step : Step σ ε α) (state : σ) :
    (widen widening step).run state =
      ((step.run state).1.mapError widening, (step.run state).2) := by
  simp only [run, widen]
  rcases step state with ⟨answer | fault, after⟩
  · rfl
  · rfl

/-- An attempt answers with whatever came of the step. -/
theorem run_attempt (step : Step σ ε α) (state : σ) :
    (attempt step : Step σ ε' (Except ε α)).run state =
      (.ok (step.run state).1, (step.run state).2) := rfl

/-- Whatever a step answers is as `answered` says, whatever it fails with as `failed` says. -/
def Ensures (step : Step σ ε α) (state : σ) (answered : α → σ → Prop)
    (failed : ε → σ → Prop) : Prop :=
  (∀ answer, (step.run state).1 = .ok answer → answered answer (step.run state).2) ∧
    ∀ fault, (step.run state).1 = .error fault → failed fault (step.run state).2

namespace Ensures

variable {step : Step σ ε α} {state : σ} {answered answered' : α → σ → Prop}
  {failed failed' : ε → σ → Prop}

/-- What is ensured of an answer. -/
theorem of_ok {answer : α} {after : σ} (ensures : step.Ensures state answered failed)
    (ran : step.run state = (.ok answer, after)) : answered answer after := by
  have holds := ensures.1 answer
  rw [ran] at holds
  exact holds rfl

/-- What is ensured of a failure. -/
theorem of_error {fault : ε} {after : σ} (ensures : step.Ensures state answered failed)
    (ran : step.run state = (.error fault, after)) : failed fault after := by
  have holds := ensures.2 fault
  rw [ran] at holds
  exact holds rfl

/-- What is ensured of the state behind a step in either case. -/
theorem of_run {result : Except ε α} {after : σ} (always : σ → Prop)
    (ensures : step.Ensures state (fun _ after => always after) (fun _ after => always after))
    (ran : step.run state = (result, after)) : always after := by
  cases result with
  | ok answer => exact ensures.of_ok ran
  | error fault => exact ensures.of_error ran

/-- A step ensures that it was run. -/
theorem ran (step : Step σ ε α) (state : σ) :
    step.Ensures state (fun answer after => step.run state = (.ok answer, after))
      (fun fault after => step.run state = (.error fault, after)) :=
  ⟨fun _ same => run_eq_of_fst same, fun _ same => run_eq_of_fst same⟩

/-- A step ensures all that follows from what it ensures. -/
theorem mono (ensures : step.Ensures state answered failed)
    (answers : ∀ answer after, answered answer after → answered' answer after)
    (failures : ∀ fault after, failed fault after → failed' fault after) :
    step.Ensures state answered' failed' :=
  ⟨fun answer ran => answers _ _ (ensures.1 answer ran),
    fun fault ran => failures _ _ (ensures.2 fault ran)⟩

/-- What is ensured of failures may be weakened alone. -/
theorem mono_failed (ensures : step.Ensures state answered failed)
    (failures : ∀ fault after, failed fault after → failed' fault after) :
    step.Ensures state answered failed' :=
  ensures.mono (fun _ _ holds => holds) failures

/-- What is ensured twice over holds together. -/
theorem both (one : step.Ensures state answered failed)
    (other : step.Ensures state answered' failed') :
    step.Ensures state (fun answer after => answered answer after ∧ answered' answer after)
      (fun fault after => failed fault after ∧ failed' fault after) :=
  ⟨fun answer ran => ⟨one.1 answer ran, other.1 answer ran⟩,
    fun fault ran => ⟨one.2 fault ran, other.2 fault ran⟩⟩

/-- What is ensured of an answer twice over holds together, whatever is ensured of failures. -/
theorem both_answered (one : step.Ensures state answered failed)
    (other : step.Ensures state answered' failed') :
    step.Ensures state (fun answer after => answered answer after ∧ answered' answer after)
      (fun _ _ => True) :=
  (one.both other).mono_failed fun _ _ _ => trivial

/-- A step whose run is known ensures what holds of it. -/
theorem of_run_ok {answer : α} {after : σ} (ran : step.run state = (.ok answer, after))
    (holds : answered answer after) : step.Ensures state answered failed := by
  unfold Ensures
  rw [ran]
  exact ⟨fun _ same => Except.ok.inj same ▸ holds, fun _ absurd => by cases absurd⟩

/-- A step that is known to fail ensures what holds of its fault. -/
theorem of_run_error {fault : ε} {after : σ} (ran : step.run state = (.error fault, after))
    (holds : failed fault after) : step.Ensures state answered failed := by
  unfold Ensures
  rw [ran]
  refine ⟨nofun, fun fault' same => ?_⟩
  cases same
  exact holds

/-- A sequence ensures what its second step does behind the first. -/
theorem bind {next : α → Step σ ε β} (middle : α → σ → Prop) {answered : β → σ → Prop}
    (first : step.Ensures state middle failed)
    (second : ∀ answer after, middle answer after → (next answer).Ensures after answered failed) :
    (step >>= next).Ensures state answered failed := by
  unfold Ensures
  rw [run_bind]
  cases ran : step.run state with
  | mk result after =>
      cases result with
      | ok answer => exact second answer after (first.of_ok ran)
      | error fault =>
          refine ⟨fun answer absurd => (nomatch absurd), fun fault' same => ?_⟩
          cases same
          exact first.of_error ran

/-- A sequence behind an answer that is known. -/
theorem bind_of_ok {answer : α} {after : σ} {next : α → Step σ ε β} {answered : β → σ → Prop}
    (ran : step.run state = (.ok answer, after))
    (rest : (next answer).Ensures after answered failed) :
    (step >>= next).Ensures state answered failed := by
  unfold Ensures
  rw [run_bind, ran]
  exact rest

/-- A sequence that ends with a failure that is known. -/
theorem bind_of_error {fault : ε} {after : σ} {next : α → Step σ ε β} {answered : β → σ → Prop}
    (ran : step.run state = (.error fault, after)) (holds : failed fault after) :
    (step >>= next).Ensures state answered failed := by
  unfold Ensures
  rw [run_bind, ran]
  constructor
  · intro answer absurd
    cases absurd
  · intro fault' same
    cases same
    exact holds

/-- An answer at once ensures what holds of it now. -/
theorem pure {answer : α} (holds : answered answer state) :
    (Pure.pure answer : Step σ ε α).Ensures state answered failed :=
  ⟨fun _ same => by cases same; exact holds, fun _ absurd => (nomatch absurd)⟩

/-- A failure ensures what holds of its fault now. -/
theorem fail {fault : ε} (holds : failed fault state) :
    (Step.fail fault : Step σ ε α).Ensures state answered failed := by
  refine ⟨nofun, fun fault' same => ?_⟩
  cases same
  exact holds

/-- A result computed elsewhere ensures what holds of it now. -/
theorem ofExcept {result : Except ε α} (answers : ∀ answer, result = .ok answer →
    answered answer state) (failures : ∀ fault, result = .error fault → failed fault state) :
    (Step.ofExcept result).Ensures state answered failed := ⟨answers, failures⟩

/-- A change ensures what holds of the changed state. -/
theorem modify {change : σ → σ} {answered : Unit → σ → Prop} (holds : answered () (change state)) :
    (Step.modify change : Step σ ε Unit).Ensures state answered failed :=
  ⟨fun _ same => by cases same; exact holds, fun _ absurd => (nomatch absurd)⟩

/-- A sequence that starts with a look at the state goes on in it. -/
theorem bind_get {next : σ → Step σ ε β} {answered : β → σ → Prop}
    (rest : (next state).Ensures state answered failed) :
    (Step.get >>= next).Ensures state answered failed := rest

/-- A sequence that starts with a failure fails. -/
theorem bind_fail {fault : ε} {next : α → Step σ ε β} {answered : β → σ → Prop}
    (holds : failed fault state) : (Step.fail fault >>= next).Ensures state answered failed := by
  constructor
  · intro answer absurd
    cases absurd
  · intro fault' same
    cases same
    exact holds

/-- A sequence that starts with a result computed elsewhere goes on with its answer. -/
theorem bind_ofExcept {result : Except ε α} {next : α → Step σ ε β} {answered : β → σ → Prop}
    (answers : ∀ answer, result = .ok answer → (next answer).Ensures state answered failed)
    (failures : ∀ fault, result = .error fault → failed fault state) :
    (Step.ofExcept result >>= next).Ensures state answered failed := by
  cases result with
  | ok answer => exact answers answer rfl
  | error fault => exact bind_fail (failures fault rfl)

/-- A fault of a wider kind stands for the fault that it was made of. -/
theorem widen {widening : ε → ε'} {failed : ε' → σ → Prop}
    (part : step.Ensures state answered fun fault after => failed (widening fault) after) :
    (Step.widen widening step).Ensures state answered failed := by
  unfold Ensures
  rw [run_widen]
  cases ran : step.run state with
  | mk result after =>
      cases result with
      | ok answer =>
          refine ⟨fun answer' same => ?_, nofun⟩
          cases same
          exact part.of_ok ran
      | error fault =>
          refine ⟨nofun, fun fault' same => ?_⟩
          cases same
          exact part.of_error ran

/-- A step on the first part ensures what it does there. -/
theorem onFirst {state : σ × τ} {answered : α → σ × τ → Prop} {failed : ε → σ × τ → Prop}
    (part : step.Ensures state.1 (fun answer after => answered answer (after, state.2))
      (fun fault after => failed fault (after, state.2))) :
    (Step.onFirst step : Step (σ × τ) ε α).Ensures state answered failed := part

/-- A step on the second part ensures what it does there. -/
theorem onSecond {state : τ × σ} {answered : α → τ × σ → Prop} {failed : ε → τ × σ → Prop}
    (part : step.Ensures state.2 (fun answer after => answered answer (state.1, after))
      (fun fault after => failed fault (state.1, after))) :
    (Step.onSecond step : Step (τ × σ) ε α).Ensures state answered failed := part

/-- A step on some part ensures what it does there. -/
theorem within {get : τ → σ} {set : σ → τ → τ} {state : τ} {answered : α → τ → Prop}
    {failed : ε → τ → Prop}
    (part : step.Ensures (get state) (fun answer after => answered answer (set after state))
      (fun fault after => failed fault (set after state))) :
    (Step.within get set step : Step τ ε α).Ensures state answered failed := part

end Ensures

end Step

end TypeBridge
