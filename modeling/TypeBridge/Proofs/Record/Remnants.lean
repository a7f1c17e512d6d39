import TypeBridge.Proofs.Record.Later

/-!
# What a refused composite leaves behind

A composite is entered after the composites in it, field by field, and nothing is taken back when a
field is refused. `settled` lists the composites whose requests were answered on the way to the
fault. They are known afterwards, and nothing else is changed (`create_settles`); so a refusal
leaves the catalogue as it was exactly if they were known before (`refused_request_iff`).
-/

namespace TypeBridge.Catalogue

variable {catalogue before middle after : Catalogue} {composite : Composite} {machine : Machine}
  {parts more : List Composite} {rest rest' : Session × Workbench} {fault : GenerateFault}

mutual

/-- The composites that a request settles: the one asked for if it is answered, else those in its
fields up to the fault. -/
def settled (machine : Machine) : Composite → Catalogue × Session × Workbench → List Composite
  | .mk fields packing, state =>
    match (create machine (.mk fields packing)).run state with
    | (.ok _, _) => [.mk fields packing]
    | (.error _, _) => if packing.isValid then settledFields machine fields state else []

/-- The composites that are settled by resolving fields in order. -/
def settledFields (machine : Machine) :
    List Field → Catalogue × Session × Workbench → List Composite
  | [], _ => []
  | .mk name type _ :: others, state =>
    if isIdentifier name then
      settledMember machine type state ++
        match (createMember machine type).run state with
        | (.ok _, after) => settledFields machine others after
        | (.error _, _) => []
    else []

/-- The composites that are settled by resolving what a field holds. -/
def settledMember (machine : Machine) :
    MemberType → Catalogue × Session × Workbench → List Composite
  | .scalar _, _ => []
  | .composite child, state => settled machine child state
  | .pointer child, state => settled machine child state

end

/-- Two catalogues that nothing tells apart from outside: they have the same structures under the
same names and keys, written or not, and know the same composites. -/
structure Alike (before after : Catalogue) : Prop where
  size : after.size = before.size
  name : ∀ id < before.size, after.name id = before.name id
  key : ∀ id < before.size, after.key id = before.key id
  emitted : ∀ id < before.size, (after.entry id).emitted = (before.entry id).emitted
  lookup : ∀ composite, after.lookup composite = before.lookup composite

/-- Each catalogue shows what it shows itself. -/
theorem Alike.refl (catalogue : Catalogue) : catalogue.Alike catalogue :=
  ⟨rfl, fun _ _ => rfl, fun _ _ => rfl, fun _ _ => rfl, fun _ => rfl⟩

/-- Whether a catalogue knows all of some composites. -/
def KnowsAll (catalogue : Catalogue) (parts : List Composite) : Prop :=
  ∀ part ∈ parts, (catalogue.lookup part).isSome

/-- All of two lists are known exactly when all of each are. -/
theorem knowsAll_append :
    catalogue.KnowsAll (parts ++ more) ↔ catalogue.KnowsAll parts ∧ catalogue.KnowsAll more :=
  List.forall_mem_append

/-- What settling some composites makes of a catalogue: structures are added so that it knows them
all, and none is if it did before. -/
structure Settles (parts : List Composite) (before after : Catalogue) : Prop where
  adds : before.Adds after
  known : after.KnowsAll parts
  unchanged : before.KnowsAll parts → after = before

namespace Settles

/-- Settling nothing leaves the catalogue as it is. -/
theorem refl (catalogue : Catalogue) : Settles [] catalogue catalogue :=
  ⟨.refl catalogue, nofun, fun _ => rfl⟩

/-- Composites are settled one list after the other. -/
theorem trans (start : Settles parts before middle) (next : Settles more middle after) :
    Settles (parts ++ more) before after where
  adds := start.adds.trans next.adds
  known := by
    refine knowsAll_append.mpr ⟨fun part member => ?_, next.known⟩
    obtain ⟨id, found⟩ := Option.isSome_iff_exists.mp (start.known part member)
    rw [next.adds.remembers part id found]
    rfl
  unchanged knows := by
    obtain ⟨first, second⟩ := knowsAll_append.mp knows
    have same := start.unchanged first
    subst same
    exact next.unchanged second

/-- Nothing tells apart the catalogues before and after exactly if all that was settled was known. -/
theorem alike_iff (settles : Settles parts before after) :
    before.Alike after ↔ before.KnowsAll parts := by
  constructor
  · intro alike part member
    rw [← alike.lookup part]
    exact settles.known part member
  · intro knows
    rw [settles.unchanged knows]
    exact .refl before

end Settles

/-! ## What requests settle -/

/-- A composite that is known is answered for at once. -/
theorem run_create_of_known {state : Catalogue × Session × Workbench} {id : Nat}
    (found : state.1.lookup composite = some id) :
    (create machine composite).run state = (.ok id, state) := by
  obtain ⟨fields, packing⟩ := composite
  rw [create, Step.run_bind, Step.run_get]
  dsimp only
  rw [found]
  rfl

/-- A request that is answered settles its composite. -/
theorem settles_of_ok {state after : Catalogue × Session × Workbench} {id : Nat}
    (built : composite.isBuilt) (indexed : state.1.Indexed)
    (ran : (create machine composite).run state = (.ok id, after)) :
    Settles [composite] state.1 after.1 := by
  obtain ⟨adds, found⟩ := (create_adds machine state.2 built indexed).of_ok ran
  refine ⟨adds, List.forall_mem_singleton.mpr (by rw [found]; rfl), fun knows => ?_⟩
  obtain ⟨known, before⟩ := Option.isSome_iff_exists.mp (knows composite (by simp))
  rw [run_create_of_known before] at ran
  cases ran
  rfl

/-- A step settles some composites, whatever comes of it. -/
abbrev SettlesAt {α : Type} (step : CatalogueStep α) (state : Catalogue × Session × Workbench)
    (parts : List Composite) : Prop :=
  step.Ensures state (fun _ after => Settles parts state.1 after.1)
    (fun _ after => Settles parts state.1 after.1)

mutual

/-- A request settles the composite, or what is in it up to the fault. -/
theorem create_settles (machine : Machine) : (composite : Composite) → composite.isBuilt →
    ∀ state, state.1.Indexed →
      SettlesAt (create machine composite) state (settled machine composite state)
  | .mk fields packing, built, state, indexed => by
    have inside : (create machine (.mk fields packing)).Ensures state (fun _ _ => True)
        (fun _ after => Settles (if packing.isValid then settledFields machine fields state else [])
          state.1 after.1) := by
      rw [create]
      apply Step.Ensures.bind_get
      dsimp only
      split
      · exact Step.Ensures.pure trivial
      · cases fields with
        | nil =>
            refine Step.Ensures.bind_fail ?_
            rw [settledFields, ite_self]
            exact .refl _
        | cons field others =>
            refine Step.Ensures.bind_ofExcept (fun _ checked => ?_) fun fault refused => ?_
            · rw [if_pos (isValid_of_check checked)]
              refine Step.Ensures.bind _ (createFields_settles machine (field :: others) built state
                indexed) fun parts after settles => ?_
              refine Step.Ensures.onFirst ((enter_ensures _ _ parts after.1).mono
                (fun _ _ _ => trivial) ?_)
              rintro _ _ ⟨rfl, -⟩
              exact settles
            · rw [if_neg (Packing.check_eq_error_iff.mp refused).1]
              exact .refl _
    rw [SettlesAt, settled]
    cases ran : (create machine (.mk fields packing)).run state with
    | mk result after =>
        cases result with
        | ok id => exact Step.Ensures.of_run_ok ran (settles_of_ok built indexed ran)
        | error fault => exact Step.Ensures.of_run_error ran (inside.of_error ran)

/-- Fields settle what each of them does, up to the fault. -/
theorem createFields_settles (machine : Machine) : (fields : List Field) →
    Composite.fieldsBuilt fields → ∀ state, state.1.Indexed →
      SettlesAt (createFields machine fields) state (settledFields machine fields state)
  | [], _, state, _ => by
    rw [createFields, settledFields]
    exact Step.Ensures.pure (.refl _)
  | .mk name type count :: others, built, state, indexed => by
    simp only [Composite.fieldsBuilt, Bool.and_eq_true, decide_eq_true_eq] at built
    obtain ⟨⟨-, memberBuilt⟩, othersBuilt⟩ := built
    have member := createMember_settles machine type memberBuilt state indexed
    rw [createFields, settledFields]
    refine Step.Ensures.bind_ofExcept (fun _ checked => ?_) fun fault refused => ?_
    · rw [if_pos (isIdentifier_of_check checked)]
      cases ran : (createMember machine type).run state with
      | mk result after =>
          cases result with
          | error fault =>
              refine Step.Ensures.bind_of_error ran ?_
              rw [List.append_nil]
              exact member.of_error ran
          | ok answer =>
              have first := member.of_ok ran
              have indexed' := first.adds.later.indexed indexed
              refine Step.Ensures.bind_of_ok ran (Step.Ensures.bind _
                ((createFields_settles machine others othersBuilt after indexed').mono
                  (fun _ _ next => first.trans next) fun _ _ next => first.trans next) ?_)
              intro _ _ settles
              exact Step.Ensures.pure settles
    · rw [if_neg (checkIdentifier_eq_error_iff.mp refused).1]
      exact .refl _

/-- What a field holds settles the composite that it leads to, if any. -/
theorem createMember_settles (machine : Machine) : (type : MemberType) → type.isBuilt →
    ∀ state, state.1.Indexed →
      SettlesAt (createMember machine type) state (settledMember machine type state)
  | .scalar name, _, state, _ => by
    rw [createMember, settledMember]
    refine Step.Ensures.bind (fun _ after => after.1 = state.1)
      ((resolveScalar_ensures machine name state.1 state.2).mono_failed ?_) ?_
    · rintro _ after same
      rw [same]
      exact .refl _
    · rintro _ after same
      refine Step.Ensures.pure ?_
      rw [same]
      exact .refl _
  | .composite child, built, state, indexed => by
    rw [createMember, settledMember]
    refine Step.Ensures.bind _ (create_settles machine child built state indexed) ?_
    intro _ _ settles
    exact Step.Ensures.bind_get (Step.Ensures.pure settles)
  | .pointer child, built, state, indexed => by
    rw [createMember, settledMember]
    refine Step.Ensures.bind _ (create_settles machine child built state indexed) ?_
    intro _ _ settles
    exact Step.Ensures.bind_get (Step.Ensures.pure settles)

end

/-- Renaming a composite settles what entering it does. -/
theorem rename_settles (name : String) {state : Catalogue × Session × Workbench}
    (built : composite.isBuilt) (indexed : state.1.Indexed) :
    (rename machine composite name).Ensures state (fun _ _ => True)
      (fun _ after => Settles (settled machine composite state) state.1 after.1) := by
  rw [rename]
  refine Step.Ensures.bind _ (create_settles machine composite built state indexed) ?_
  intro id after settles
  refine Step.Ensures.bind (fun _ _ => True) (Step.Ensures.onFirst
    ((renameId_ensures id name after.1).mono (fun _ _ _ => trivial) ?_))
    fun _ _ _ => Step.Ensures.pure trivial
  rintro _ _ rfl
  exact settles

/-! ## Refused requests -/

/-- A request to enter a composite, with a new name for it or without, that is refused has settled
some of what is in it, and nothing tells the catalogue apart from the one before exactly if that one
knew all of this. Renaming a structure by its number changes nothing when it is refused. -/
theorem refused_request_iff {log : EntryLog} (reached : Reached log catalogue)
    (built : composite.isBuilt) (machine : Machine) (rest : Session × Workbench) (name : String)
    (id : Nat) :
    (create machine composite).Ensures (catalogue, rest) (fun _ _ => True)
      (fun _ after => Settles (settled machine composite (catalogue, rest)) catalogue after.1 ∧
        (catalogue.Alike after.1 ↔
          catalogue.KnowsAll (settled machine composite (catalogue, rest)))) ∧
    (rename machine composite name).Ensures (catalogue, rest) (fun _ _ => True)
      (fun _ after => Settles (settled machine composite (catalogue, rest)) catalogue after.1 ∧
        (catalogue.Alike after.1 ↔
          catalogue.KnowsAll (settled machine composite (catalogue, rest)))) ∧
    (renameId id name).Ensures catalogue (fun _ _ => True) (fun _ after => after = catalogue) := by
  refine ⟨?_, ?_, ?_⟩
  · exact (create_settles machine composite built (catalogue, rest) reached.indexed).mono
      (fun _ _ _ => trivial) fun _ _ settles => ⟨settles, settles.alike_iff⟩
  · exact (rename_settles name built reached.indexed).mono_failed
      fun _ _ settles => ⟨settles, settles.alike_iff⟩
  · exact (renameId_ensures id name catalogue).mono (fun _ _ _ => trivial) fun _ _ same => same

/-- A record whose second field is a record without fields. -/
def hollowRecord : Composite :=
  .mk [.single "a" (.composite (floatRecord (.native "float"))),
    .single "b" (.composite (.mk [] .natural))] .natural

/-- The request for it, in a session that knows floats. -/
def enterHollow : Except GenerateFault Nat × Catalogue × Session × Workbench :=
  (create Scripted.Script.words.machine hollowRecord).run (.empty, floatSession)

/-- A request to give a record of one float a name that is no identifier. -/
def nameBadly : Except GenerateFault Nat × Catalogue × Session × Workbench :=
  (rename Scripted.Script.words.machine (floatRecord (.native "float")) "3d").run
    (.empty, floatSession)

/-- The record with a hollow field is refused, and its first field has been entered. -/
theorem facts_enterHollow : enterHollow.1 = .error .emptyComposite ∧ enterHollow.2.1.size = 1 ∧
    floatRecord (.native "float") ∈
      settled Scripted.Script.words.machine hollowRecord (.empty, floatSession) := by
  decide +kernel

/-- The name is refused, and the record that was to have it is entered first. -/
theorem facts_nameBadly : nameBadly.1 = .error (.invalidName "3d") ∧
    floatRecord (.native "float") ∈ settled Scripted.Script.words.machine
      (floatRecord (.native "float")) (.empty, floatSession) := by
  decide +kernel

/-- The record in the first field is entered before the second is refused, and a record before the
name for it is. -/
theorem refused_request_iff_hollowRecord :
    Reached [] .empty ∧ hollowRecord.isBuilt ∧ ¬ empty.Alike enterHollow.2.1 ∧
      (floatRecord (.native "float")).isBuilt ∧ ¬ empty.Alike nameBadly.2.1 := by
  have built : hollowRecord.isBuilt := rfl
  have built' : (floatRecord (.native "float")).isBuilt := rfl
  obtain ⟨refusal, -, enters⟩ := facts_enterHollow
  obtain ⟨refusal', enters'⟩ := facts_nameBadly
  have entering := (refused_request_iff .start built
    Scripted.Script.words.machine floatSession "" 0).1.2 _ refusal
  have naming := (refused_request_iff .start built'
    Scripted.Script.words.machine floatSession "3d" 0).2.1.2 _ refusal'
  have unknown : ∀ composite, (empty.lookup composite).isSome ≠ true := nofun
  refine ⟨.start, built, fun alike => ?_, built', fun alike => ?_⟩
  · unfold enterHollow at alike
    exact unknown _ (entering.2.mp alike _ enters)
  · unfold nameBadly at alike
    exact unknown _ (naming.2.mp alike _ enters')

/-- Refused requests do leave structures behind. -/
theorem refusal_seen_hollowRecord : ¬ ∀ log catalogue machine composite rest fault after,
    Reached log catalogue → composite.isBuilt →
    (create machine composite).run (catalogue, rest) = (.error fault, after) →
    catalogue.Alike after.1 := by
  intro claim
  obtain ⟨refusal, entered, -⟩ := facts_enterHollow
  unfold enterHollow at refusal entered
  obtain ⟨after, ran⟩ := Step.exists_of_fst refusal
  rw [ran] at entered
  have alike := claim [] .empty _ hollowRecord _ _ _ .start rfl ran
  exact absurd (alike.size.symm.trans entered) (by decide)

end TypeBridge.Catalogue
