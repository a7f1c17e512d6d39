import TypeBridge.Record.Catalogue

/-!
# A log of what is entered

`Catalogue.createLogged` is `Catalogue.create` that also notes which composite was entered with which
resolved fields. A catalogue itself forgets the fields of a composite that turns out to be a
structure it has already. `erases_createLogged` says that the two do the same otherwise.
-/

namespace TypeBridge

/-- The composites that were entered, each with the fields it was resolved to, the last one
first. -/
abbrev EntryLog := List (Composite × List ResolvedField)

namespace Catalogue

/-- A step of a catalogue that keeps a log. -/
abbrev LoggedStep := Step (EntryLog × Catalogue × Session × Workbench) GenerateFault

/-- Enter a composite and note with which fields. -/
def enterLogged (overflow : Overflow) (composite : Composite) (parts : List Piece) :
    LoggedStep Nat := do
  let id ← Step.onSecond (Step.onFirst (enter overflow composite parts))
  Step.modify fun state => ((composite, parts.map (·.field)) :: state.1, state.2)
  return id

mutual

/-- Enter a composite and those in it, and note them: the number of its structure. -/
def createLogged (machine : Machine) : Composite → LoggedStep Nat
  | .mk fields packing => do
    let composite := Composite.mk fields packing
    let (_, catalogue, _) ← Step.get
    match catalogue.lookup composite with
    | some id => return id
    | none =>
      if fields.isEmpty then Step.fail .emptyComposite
      Step.ofExcept packing.check
      let parts ← createFieldsLogged machine fields
      enterLogged machine.overflow composite parts

/-- Resolve the fields of a composite in order, and note what is entered on the way. -/
def createFieldsLogged (machine : Machine) : List Field → LoggedStep (List Piece)
  | [] => pure []
  | .mk name type count :: rest => do
    Step.ofExcept (checkIdentifier name)
    let (resolved, size, align, part) ← createMemberLogged machine type
    let others ← createFieldsLogged machine rest
    return {
      field := ⟨name, resolved, count⟩
      layout := ⟨size, align, count⟩
      key := fieldKey name part count } :: others

/-- Resolve what a field holds, and note what is entered for it. -/
def createMemberLogged (machine : Machine) :
    MemberType → LoggedStep (ResolvedType × Nat × Nat × String)
  | .scalar name => do
    let (scalar, typeString) ← Step.onSecond (resolveScalar machine name)
    return (.scalar scalar typeString, scalar.size, scalarAlign scalar.size, scalar.native.text)
  | .composite child => do
    let id ← createLogged machine child
    let (_, catalogue, _) ← Step.get
    let layout := catalogue.layout id
    return (.record id, layout.size, layout.align, "\x7b" ++ catalogue.key id ++ "\x7d")
  | .pointer child => do
    let id ← createLogged machine child
    let (_, catalogue, _) ← Step.get
    return (.pointer id, TypeInfo.wordSize, scalarAlign TypeInfo.wordSize,
      "*\x7b" ++ catalogue.key id ++ "\x7d")

end

/-! ## The log changes nothing -/

/-- A step that keeps a log does the same as one that keeps none. -/
def Erases {σ ε α : Type} (logged : Step (EntryLog × σ) ε α) (plain : Step σ ε α) : Prop :=
  ∀ log state, (logged.run (log, state)).1 = (plain.run state).1 ∧
    (logged.run (log, state)).2.2 = (plain.run state).2

section Erasure

variable {σ ε α β : Type}

/-- A logged sequence is the plain one with the log left out, when its parts are. -/
theorem Erases.bind {logged : Step (EntryLog × σ) ε α} {plain : Step σ ε α}
    {nextLogged : α → Step (EntryLog × σ) ε β} {next : α → Step σ ε β}
    (first : Erases logged plain) (second : ∀ answer, Erases (nextLogged answer) (next answer)) :
    Erases (logged >>= nextLogged) (plain >>= next) := by
  intro log state
  have same := first log state
  rw [Step.run_bind, Step.run_bind]
  generalize logged.run (log, state) = outcome at same
  generalize plain.run state = outcome' at same
  obtain ⟨result, log', after⟩ := outcome
  obtain ⟨result', after'⟩ := outcome'
  obtain ⟨rfl, rfl⟩ := same
  cases result with
  | ok answer => exact second answer log' after
  | error fault => exact ⟨rfl, rfl⟩

/-- An answer writes no log. -/
theorem Erases.pure (answer : α) :
    Erases (Pure.pure answer : Step (EntryLog × σ) ε α) (Pure.pure answer) := fun _ _ => ⟨rfl, rfl⟩

/-- A failure writes no log. -/
theorem Erases.fail (fault : ε) :
    Erases (Step.fail fault : Step (EntryLog × σ) ε α) (Step.fail fault) := fun _ _ => ⟨rfl, rfl⟩

/-- A computed result writes no log. -/
theorem Erases.ofExcept (result : Except ε α) :
    Erases (Step.ofExcept result : Step (EntryLog × σ) ε α) (Step.ofExcept result) :=
  fun _ _ => ⟨rfl, rfl⟩

/-- A plain step run beside the log is the step with the log left out. -/
theorem Erases.onSecond (step : Step σ ε α) : Erases (Step.onSecond step) step :=
  fun _ _ => ⟨rfl, rfl⟩

/-- A step that reads the state behind the log does as one that reads the state. -/
theorem Erases.bind_get {nextLogged : EntryLog × σ → Step (EntryLog × σ) ε β}
    {next : σ → Step σ ε β} (second : ∀ log state, Erases (nextLogged (log, state)) (next state)) :
    Erases (Step.get >>= nextLogged) (Step.get >>= next) := fun log state => second log state log state

end Erasure

/-- Entering a composite and noting it is entering it, with the log left out. -/
theorem erases_enterLogged (overflow : Overflow) (composite : Composite) (parts : List Piece) :
    Erases (enterLogged overflow composite parts)
      (Step.onFirst (enter overflow composite parts)) := by
  intro log state
  simp only [enterLogged, Step.run_bind, Step.run_onSecond]
  rcases (Step.onFirst (enter overflow composite parts) : CatalogueStep Nat).run state with
    ⟨result, after⟩
  cases result <;> exact ⟨rfl, rfl⟩

mutual

/-- Keeping a log does not change what entering a composite does. -/
theorem erases_createLogged (machine : Machine) : (composite : Composite) →
    Erases (createLogged machine composite) (create machine composite)
  | .mk fields packing => by
    rw [createLogged, create]
    refine Erases.bind_get fun log state => ?_
    obtain ⟨catalogue, session, bench⟩ := state
    dsimp only
    cases catalogue.lookup (.mk fields packing) with
    | some id => exact Erases.pure id
    | none =>
        have filled : Erases
            (Step.ofExcept packing.check >>= fun _ =>
              createFieldsLogged machine fields >>= enterLogged machine.overflow (.mk fields packing))
            (Step.ofExcept packing.check >>= fun _ =>
              createFields machine fields >>= fun parts =>
                Step.onFirst (enter machine.overflow (.mk fields packing) parts)) :=
          (Erases.ofExcept _).bind fun _ => (erases_createFieldsLogged machine fields).bind
            fun parts => erases_enterLogged _ _ parts
        dsimp only
        split
        · exact (Erases.fail _).bind fun _ => filled
        · exact filled

/-- The logged request for fields is the plain one, with the log left out. -/
theorem erases_createFieldsLogged (machine : Machine) : (fields : List Field) →
    Erases (createFieldsLogged machine fields) (createFields machine fields)
  | [] => by
    rw [createFieldsLogged, createFields]
    exact Erases.pure _
  | .mk name type count :: rest => by
    rw [createFieldsLogged, createFields]
    exact (Erases.ofExcept _).bind fun _ => (erases_createMemberLogged machine type).bind
      fun _ => (erases_createFieldsLogged machine rest).bind fun _ => Erases.pure _

/-- The logged request for one member is the plain one, with the log left out. -/
theorem erases_createMemberLogged (machine : Machine) : (type : MemberType) →
    Erases (createMemberLogged machine type) (createMember machine type)
  | .scalar name => by
    rw [createMemberLogged, createMember]
    exact (Erases.onSecond _).bind fun _ => Erases.pure _
  | .composite child => by
    rw [createMemberLogged, createMember]
    exact (erases_createLogged machine child).bind fun id =>
      Erases.bind_get fun _ _ => Erases.pure _
  | .pointer child => by
    rw [createMemberLogged, createMember]
    exact (erases_createLogged machine child).bind fun id =>
      Erases.bind_get fun _ _ => Erases.pure _

end

end Catalogue

end TypeBridge
