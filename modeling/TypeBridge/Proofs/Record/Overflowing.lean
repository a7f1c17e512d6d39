import TypeBridge.Proofs.Record.Remnants
import TypeBridge.Proofs.Record.Wrapping

/-!
# Catalogues of builds in which overflow is caught, and of others

Nothing is refused because it is too large. Where overflow is caught, the program stops at the
layout of a record that takes no word (`create_stops`), so that each structure of its catalogue takes
one (`ReachedCaught.allFit`). A program that goes on enters such a record, with every number of its
layout as a word holds it. `layout_exact_iff` says both: what is recorded is exact for the structures
that take a word and for no others.
-/

namespace TypeBridge

/-- A composite holds another: it is that one, or it has a field for a composite that holds it or
for a pointer to such a composite. -/
inductive Composite.Holds : Composite → Composite → Prop where
  | self (composite : Composite) : Holds composite composite
  | inside {fields : List Field} {packing : Packing} {field : Field} {child part : Composite}
      (member : field ∈ fields)
      (leads : field.type = .composite child ∨ field.type = .pointer child)
      (holds : child.Holds part) : Holds (.mk fields packing) part

namespace Catalogue

variable {catalogue before after : Catalogue} {composite : Composite} {id : Nat}
  {fields : List ResolvedField}

/-! ## Structures that take a word -/

/-- Every structure takes a word. -/
def AllFit (catalogue : Catalogue) : Prop := ∀ id < catalogue.size, catalogue.Fits id

/-- The exact layout of a structure stays the same. -/
theorem Extends.exactLayout (extension : before.Extends after) (known : id < before.size) :
    after.exactLayout id = before.exactLayout id := by
  induction id using Nat.strongRecOn with
  | ind id ih =>
      have continued := extension.entry id known
      rw [Catalogue.exactLayout, Catalogue.exactLayout, continued.fields, continued.packing]
      congr 1
      refine memberLayoutWith_congr fun field _ child _ => ?_
      by_cases earlier : child < id
      · rw [if_pos earlier, if_pos earlier]
        exact ih child earlier (Nat.lt_trans earlier known)
      · rw [if_neg earlier, if_neg earlier]

/-- A structure that takes a word still does when others are added. -/
theorem Extends.fits (extension : before.Extends after) (known : id < before.size)
    (fits : before.Fits id) : after.Fits id := by
  rw [Fits, extension.exactLayout known]
  exact fits

/-- Structures take a word as they did when none is added. -/
theorem AllFit.carried (fit : before.AllFit) (extension : before.Extends after)
    (size : after.size = before.size) : after.AllFit := fun id known =>
  extension.fits (size ▸ known) (fit id (size ▸ known))

/-- Fields lie exactly where the structures that they refer to take a word, now and later. -/
theorem AllFit.map_memberLayout (fit : before.AllFit) (sound : before.Sound)
    (extension : before.Extends after) (knows : ∀ field ∈ fields, before.Knows field) :
    fields.map before.memberLayout = fields.map (memberLayoutWith after.exactLayout) :=
  memberLayoutWith_congr fun field member child holds => by
    have known : child < before.size :=
      knows field member child (by rw [ResolvedField.child?, holds])
    rw [extension.exactLayout known]
    exact sound.layout_eq_exact known (fit child known)

/-- Where overflow is caught, an entry keeps all structures to a word. -/
theorem Enters.allFit {bound : Nat} {start last : EntryLog × Catalogue}
    (enters : Enters .caught bound start last) (indexed : start.2.Indexed) (sound : start.2.Sound)
    (fit : start.2.AllFit) : last.2.AllFit := by
  have extension := enters.extension
  have soundLast := enters.sound indexed sound
  cases enters with
  | merged => exact fit.carried extension rfl
  | @added log catalogue composite fields small enterable unknown free laid =>
      intro id known
      rcases Nat.lt_succ_iff_lt_or_eq.mp (size_push ▸ known) with old | rfl
      · exact extension.fits old (fit id old)
      · have knows := knows_of_resolves indexed enterable.resolved
        rw [Fits, soundLast.exactLayout_eq known, entry_push_size, fields_newEntry]
        rw [fit.map_memberLayout sound extension knows] at laid
        exact (computeLayout_caught_eq_ok_iff.mp laid).1

/-- Where overflow is caught, any number of entries keep all structures to a word. -/
theorem EntersAll.allFit {bound : Nat} {start last : EntryLog × Catalogue}
    (chain : EntersAll .caught bound start last) (indexed : start.2.Indexed)
    (sound : start.2.Sound) (fit : start.2.AllFit) : last.2.AllFit := by
  induction chain with
  | refl => exact fit
  | tail before enters ih =>
      have changes := EntersAll.changes before
      exact enters.allFit (changes.indexed indexed) (changes.sound indexed sound) ih

/-! ## Requests where overflow is caught -/

/-- A request to enter a composite keeps all structures to a word, whatever comes of it. -/
theorem create_allFit {machine : Machine} (caught : machine.overflow = .caught)
    (rest : Session × Workbench) (built : composite.isBuilt) (indexed : catalogue.Indexed)
    (sound : catalogue.Sound) (fit : catalogue.AllFit) :
    ((create machine composite).run (catalogue, rest)).2.1.AllFit := by
  have chain := create_enters machine [] rest built indexed
  rw [caught] at chain
  exact chain.allFit indexed sound fit

/-- A new name for a structure takes nothing from the structures. -/
theorem renameId_allFit (fit : catalogue.AllFit) (id : Nat) (name : String) :
    (renameId id name).Ensures catalogue (fun _ after => after.AllFit)
      (fun _ after => after.AllFit) := by
  refine (renameId_ensures id name catalogue).mono ?_ ?_
  · rintro _ _ (⟨-, -, rfl⟩ | ⟨-, rfl⟩)
    · exact fit
    · exact fit.carried (extends_renamed _ _ _) size_modifyEntry
  · rintro _ _ rfl
    exact fit

/-- A request to enter and rename a composite keeps all structures to a word, too. -/
theorem rename_allFit {machine : Machine} (caught : machine.overflow = .caught) (name : String)
    (rest : Session × Workbench) (built : composite.isBuilt) (indexed : catalogue.Indexed)
    (sound : catalogue.Sound) (fit : catalogue.AllFit) :
    ((rename machine composite name).run (catalogue, rest)).2.1.AllFit := by
  have entered := create_allFit caught rest built indexed sound fit
  have ensures : (rename machine composite name).Ensures (catalogue, rest)
      (fun _ after => after.1.AllFit) (fun _ after => after.1.AllFit) := by
    rw [rename]
    refine Step.Ensures.bind (fun _ after => after.1.AllFit)
      ⟨fun _ _ => entered, fun _ _ => entered⟩ fun id after fitMiddle => ?_
    exact Step.Ensures.bind (fun _ after => after.1.AllFit)
      (Step.Ensures.onFirst (renameId_allFit fitMiddle id name))
      fun _ _ fit => Step.Ensures.pure fit
  exact ensures.of_run (fun after : Catalogue × Session × Workbench => after.1.AllFit) rfl

/-- A catalogue that calls lead to which were all made where overflow is caught. -/
inductive ReachedCaught : Catalogue → Prop where
  | start : ReachedCaught .empty
  | create {catalogue : Catalogue} (reached : ReachedCaught catalogue) (machine : Machine)
      (caught : machine.overflow = .caught) (composite : Composite) (rest : Session × Workbench)
      (built : composite.isBuilt) :
      ReachedCaught ((create machine composite).run (catalogue, rest)).2.1
  | rename {catalogue : Catalogue} (reached : ReachedCaught catalogue) (machine : Machine)
      (caught : machine.overflow = .caught) (composite : Composite) (name : String)
      (rest : Session × Workbench) (built : composite.isBuilt) :
      ReachedCaught ((rename machine composite name).run (catalogue, rest)).2.1
  | renameId {catalogue : Catalogue} (reached : ReachedCaught catalogue) (id : Nat)
      (name : String) (known : id < catalogue.size) :
      ReachedCaught ((renameId id name).run catalogue).2
  | render {catalogue : Catalogue} (reached : ReachedCaught catalogue) (id count : Nat)
      (known : id < catalogue.size) : ReachedCaught ((renderFirst id count).run catalogue).2
  | renderAll {catalogue : Catalogue} (reached : ReachedCaught catalogue) (ids : List Nat)
      (known : ∀ id ∈ ids, id < catalogue.size) :
      ReachedCaught ((renderAll ids).run catalogue).2

namespace ReachedCaught

/-- Such a catalogue is among those that calls lead to at all. -/
theorem reached (reached : ReachedCaught catalogue) : ∃ log, Reached log catalogue := by
  induction reached with
  | start => exact ⟨_, .start⟩
  | create _ machine _ composite rest built ih =>
      obtain ⟨log, earlier⟩ := ih
      exact ⟨_, earlier.create machine composite rest built⟩
  | rename _ machine _ composite name rest built ih =>
      obtain ⟨log, earlier⟩ := ih
      exact ⟨_, earlier.rename machine composite name rest built⟩
  | renameId _ id name known ih =>
      obtain ⟨log, earlier⟩ := ih
      exact ⟨_, earlier.renameId id name known⟩
  | render _ id count known ih =>
      obtain ⟨log, earlier⟩ := ih
      exact ⟨_, earlier.render id count known⟩
  | renderAll _ ids known ih =>
      obtain ⟨log, earlier⟩ := ih
      exact ⟨_, earlier.renderAll ids known⟩

/-- Each structure of such a catalogue takes a word. -/
theorem allFit (reached : ReachedCaught catalogue) : catalogue.AllFit := by
  induction reached with
  | start => exact fun _ known => absurd known (Nat.not_lt_zero _)
  | create earlier machine caught composite rest built ih =>
      obtain ⟨log, reached⟩ := earlier.reached
      exact create_allFit caught rest built reached.indexed reached.sound ih
  | rename earlier machine caught composite name rest built ih =>
      obtain ⟨log, reached⟩ := earlier.reached
      exact rename_allFit caught name rest built reached.indexed reached.sound ih
  | renameId _ id name known ih => exact (renameId_allFit ih id name).of_run AllFit rfl
  | render _ id count known ih =>
      rw [run_renderFirst]
      exact ih.carried (extends_markAll _ _) (size_markAll _ _)
  | renderAll _ ids known ih =>
      rw [run_renderAll]
      exact ih.carried (extends_markAll _ _) (size_markAll _ _)

end ReachedCaught

/-! ## Where a program stops -/

/-- A program that was built so stops at the layout of a composite, whose fields are resolved. -/
def StopsAt (overflow : Overflow) (catalogue : Catalogue) (part : Composite) : Prop :=
  ∃ fields operation, List.Forall₂ catalogue.ResolvesField part.fields fields ∧
    computeLayout overflow (fields.map catalogue.memberLayout) part.packing = .error operation

/-- The fields of a composite are resolved, and a record of them takes no word. -/
def Exceeds (catalogue : Catalogue) (part : Composite) : Prop :=
  ∃ fields, List.Forall₂ catalogue.ResolvesField part.fields fields ∧
    0x10000000000000000 ≤ (Exact.computeLayout
      (fields.map (memberLayoutWith catalogue.exactLayout)) part.packing).size

/-- A program stops only where overflow is caught, and at a record that takes no word. -/
theorem StopsAt.exceeds {overflow : Overflow} {part : Composite} (indexed : catalogue.Indexed)
    (sound : catalogue.Sound) (fit : overflow = .caught → catalogue.AllFit)
    (stops : StopsAt overflow catalogue part) : overflow = .caught ∧ catalogue.Exceeds part := by
  obtain ⟨fields, operation, resolved, stopped⟩ := stops
  have caught : overflow = .caught := by
    cases overflow with
    | caught => rfl
    | wraps =>
        rw [computeLayout_wraps] at stopped
        cases stopped
  have knows := knows_of_resolves indexed resolved
  rw [(fit caught).map_memberLayout sound (.refl catalogue) knows] at stopped
  refine ⟨caught, fields, resolved, Nat.le_of_not_lt fun fits => ?_⟩
  rw [computeLayout_eq_exact overflow fits] at stopped
  cases stopped

/-- Fields that are resolved are resolved against the catalogue behind them. -/
theorem createFields_resolves (machine : Machine) {declared : List Field}
    (built : Composite.fieldsBuilt declared) (state : Catalogue × Session × Workbench)
    (indexed : state.1.Indexed) :
    (createFields machine declared).Ensures state
      (fun parts after => ∃ resolved, parts = resolved.map after.1.pieceOf ∧
        List.Forall₂ after.1.ResolvesField declared resolved)
      (fun _ _ => True) := by
  refine ⟨fun parts ran => ?_, fun _ _ => trivial⟩
  obtain ⟨sameResult, sameState⟩ := erases_createFieldsLogged machine declared [] state
  rw [← sameResult] at ran
  rw [← sameState]
  exact ((createFieldsLogged_ensures machine declared built [] state.1 state.2 indexed).1
    parts ran).2

/-- A request that fails at overflow stopped at one of some composites. -/
def StopsIn (machine : Machine) (leads : Composite → Prop) (fault : GenerateFault)
    (after : Catalogue × Session × Workbench) : Prop :=
  ∀ operation, fault = .overflow operation →
    ∃ part, leads part ∧ StopsAt machine.overflow after.1 part

/-- The composites that a request stopped at may be more. -/
theorem StopsIn.mono {machine : Machine} {leads leads' : Composite → Prop} {fault : GenerateFault}
    {after : Catalogue × Session × Workbench} (stops : StopsIn machine leads fault after)
    (more : ∀ part, leads part → leads' part) : StopsIn machine leads' fault after := by
  intro operation same
  obtain ⟨part, leading, stopped⟩ := stops operation same
  exact ⟨part, more part leading, stopped⟩

mutual

/-- A request to enter a composite stops at one that it holds, if it stops at overflow. -/
theorem create_stops (machine : Machine) : (composite : Composite) → composite.isBuilt →
    ∀ state, state.1.Indexed → (create machine composite).Ensures state (fun _ _ => True)
      (StopsIn machine composite.Holds)
  | .mk fields packing, built, state, indexed => by
    rw [create]
    apply Step.Ensures.bind_get
    dsimp only
    split
    · exact Step.Ensures.pure trivial
    · split
      · exact Step.Ensures.bind_fail nofun
      · refine Step.Ensures.bind_ofExcept (fun _ _ => ?_) fun fault refused => ?_
        · refine Step.Ensures.bind _ ((createFields_resolves machine built state indexed).both
            (createFields_stops machine fields built state indexed) |>.mono_failed ?_) ?_
          · rintro fault after ⟨-, stops⟩
            refine stops.mono fun part ⟨field, member, child, leads, holds⟩ => ?_
            exact .inside member leads holds
          · rintro parts after ⟨⟨resolved, rfl, resolves⟩, -⟩
            refine Step.Ensures.onFirst ((enter_ensures _ _ _ after.1).mono
              (fun _ _ _ => trivial) ?_)
            rintro fault _ ⟨rfl, stopped⟩ operation same
            have stopped := stopped operation same
            rw [map_layout_pieceOf] at stopped
            exact ⟨_, .self _, resolved, operation, resolves, stopped⟩
        · obtain ⟨-, bytes, -, rfl⟩ := Packing.check_eq_error_iff.mp refused
          exact nofun

/-- Resolving fields stops at a composite that one of them leads to, if it stops at overflow. -/
theorem createFields_stops (machine : Machine) : (fields : List Field) →
    Composite.fieldsBuilt fields → ∀ state, state.1.Indexed →
      (createFields machine fields).Ensures state (fun _ _ => True)
        (StopsIn machine fun part => ∃ field ∈ fields, ∃ child,
          (field.type = .composite child ∨ field.type = .pointer child) ∧ child.Holds part)
  | [], _, state, _ => by
    rw [createFields]
    exact Step.Ensures.pure trivial
  | .mk name type count :: others, built, state, indexed => by
    simp only [Composite.fieldsBuilt, Bool.and_eq_true, decide_eq_true_eq] at built
    obtain ⟨⟨-, memberBuilt⟩, othersBuilt⟩ := built
    have settles : SettlesAt (createMember machine type) state (settledMember machine type state) :=
      createMember_settles machine type memberBuilt state indexed
    rw [createFields]
    refine Step.Ensures.bind_ofExcept (fun _ _ => ?_) fun fault refused => ?_
    · refine Step.Ensures.bind _ ((settles.both
        (createMember_stops machine type memberBuilt state indexed)).mono_failed ?_) ?_
      · rintro fault after ⟨-, stops⟩
        exact stops.mono fun part leads => ⟨_, List.mem_cons_self, leads⟩
      · rintro answer after ⟨settled, -⟩
        have indexed' := settled.adds.later.indexed indexed
        refine Step.Ensures.bind _
          ((createFields_stops machine others othersBuilt after indexed').mono_failed ?_)
          fun _ _ _ => Step.Ensures.pure trivial
        rintro fault after stops
        refine stops.mono fun part ⟨field, member, leads⟩ => ?_
        exact ⟨field, List.mem_cons_of_mem _ member, leads⟩
    · obtain ⟨-, rfl⟩ := checkIdentifier_eq_error_iff.mp refused
      exact nofun

/-- Resolving what a field holds stops at a composite that it leads to, if it stops at overflow. -/
theorem createMember_stops (machine : Machine) : (type : MemberType) → type.isBuilt →
    ∀ state, state.1.Indexed →
      (createMember machine type).Ensures state (fun _ _ => True)
        (StopsIn machine fun part => ∃ child,
          (type = .composite child ∨ type = .pointer child) ∧ child.Holds part)
  | .scalar name, _, state, _ => by
    rw [createMember]
    refine Step.Ensures.bind (fun _ _ => True) ?_ fun _ _ _ => Step.Ensures.pure trivial
    rw [resolveScalar]
    refine Step.Ensures.bind (fun _ _ => True) (Step.Ensures.onSecond (Step.Ensures.widen
      ⟨fun _ _ => trivial, fun _ _ => nofun⟩)) fun _ _ _ => ?_
    exact Step.Ensures.bind_get (Step.Ensures.pure trivial)
  | .composite child, built, state, indexed => by
    rw [createMember]
    refine Step.Ensures.bind (fun _ _ => True)
      ((create_stops machine child built state indexed).mono_failed ?_)
      fun _ _ _ => Step.Ensures.bind_get (Step.Ensures.pure trivial)
    exact fun _ _ stops => stops.mono fun _ holds => ⟨child, .inl rfl, holds⟩
  | .pointer child, built, state, indexed => by
    rw [createMember]
    refine Step.Ensures.bind (fun _ _ => True)
      ((create_stops machine child built state indexed).mono_failed ?_)
      fun _ _ _ => Step.Ensures.bind_get (Step.Ensures.pure trivial)
    exact fun _ _ stops => stops.mono fun _ holds => ⟨child, .inr rfl, holds⟩

end

/-! ## What is recorded -/

/-- Every number of the layout of a structure, and every number that working it out goes through, is
the exact one as a word holds it; they are the exact ones if and only if the structure takes a
word. -/
theorem Sound.layout_exact (sound : catalogue.Sound) (known : id < catalogue.size) :
    (catalogue.layout id).offsets = (catalogue.placings id).map Placing.start ∧
      catalogue.layout id = (catalogue.exactLayout id).wrapped ∧
      catalogue.placings id = (catalogue.exactPlacings id).map Placing.wrapped ∧
      (catalogue.layout id = catalogue.exactLayout id ∧
          catalogue.placings id = catalogue.exactPlacings id ↔ catalogue.Fits id) := by
  obtain ⟨layout, placings⟩ := sound.layout_wrapped known
  refine ⟨sound.offsets_layout known, layout, placings, fun exact => ?_, fun fits => ?_⟩
  · rw [Fits, ← exact.1, layout]
    exact wrapWord_lt _
  · refine ⟨sound.layout_eq_exact known fits, placings.trans ?_⟩
    rw [Fits, sound.exactLayout_eq known] at fits
    exact Exact.placings_wrapped (Packing.cap_pos _) Nat.one_pos fits

/-- A request where overflow is caught answers with a structure that takes a word. It stops at
overflow only if the composite holds one whose record takes no word, and only there. -/
theorem ReachedCaught.create_ensures (reached : ReachedCaught catalogue) (machine : Machine)
    (rest : Session × Workbench) (built : composite.isBuilt) :
    (Catalogue.create machine composite).Ensures (catalogue, rest)
      (fun id after => machine.overflow = .caught → after.1.Fits id)
      (fun fault after => ∀ operation, fault = .overflow operation →
        machine.overflow = .caught ∧ ∃ part, composite.Holds part ∧ after.1.Exceeds part) := by
  obtain ⟨log, earlier⟩ := reached.reached
  have adds := create_adds machine rest built earlier.indexed
  have fit : machine.overflow = .caught →
      ((Catalogue.create machine composite).run (catalogue, rest)).2.1.AllFit := fun caught =>
    create_allFit caught rest built earlier.indexed earlier.sound reached.allFit
  constructor
  · intro id ran caught
    obtain ⟨added, found⟩ := adds.1 id ran
    exact fit caught id ((added.later.indexed earlier.indexed).byType _ _ found)
  · intro fault ran operation same
    have later := (adds.2 fault ran).later
    obtain ⟨part, holds, stopped⟩ :=
      (create_stops machine composite built (catalogue, rest) earlier.indexed).2 fault ran operation
        same
    obtain ⟨caught, exceeds⟩ := stopped.exceeds (later.indexed earlier.indexed)
      (later.sound earlier.indexed earlier.sound) fit
    exact ⟨caught, part, holds, exceeds⟩

/-- What is recorded of structures, whatever was done at overflow: every number of a layout, and
every number that working it out goes through, is the exact one as a word holds it, and none of them
differs from the exact one, at any depth, if and only if the structure takes a word. Where overflow
was caught always, none differs for any structure. There a request answers with a structure that
takes a word, or stops at a record that takes none, or is refused for another reason. -/
theorem layout_exact_iff {log : EntryLog} (reached : Reached log catalogue) :
    (∀ id < catalogue.size,
      (catalogue.layout id).offsets = (catalogue.placings id).map Placing.start ∧
      catalogue.layout id = (catalogue.exactLayout id).wrapped ∧
      catalogue.placings id = (catalogue.exactPlacings id).map Placing.wrapped ∧
      (catalogue.layout id = catalogue.exactLayout id ∧
          catalogue.placings id = catalogue.exactPlacings id ↔ catalogue.Fits id)) ∧
    (ReachedCaught catalogue →
      (∀ id < catalogue.size, catalogue.layout id = catalogue.exactLayout id ∧
        catalogue.placings id = catalogue.exactPlacings id) ∧
      ∀ (machine : Machine) (composite : Composite) (rest : Session × Workbench),
        composite.isBuilt → (create machine composite).Ensures (catalogue, rest)
          (fun id after => machine.overflow = .caught → after.1.Fits id)
          (fun fault after => ∀ operation, fault = .overflow operation →
            machine.overflow = .caught ∧
              ∃ part, composite.Holds part ∧ after.1.Exceeds part)) := by
  have exact := fun id (known : id < catalogue.size) => reached.sound.layout_exact known
  refine ⟨exact, fun caught => ⟨fun id known => ?_, fun machine composite rest built =>
    caught.create_ensures machine rest built⟩⟩
  exact (exact id known).2.2.2.mpr (caught.allFit id known)

/-- A request to enter a composite as the first one, by a program that was built so. -/
def entering (overflow : Overflow) (composite : Composite) :
    Except GenerateFault Nat × Catalogue × Session × Workbench :=
  (create ⟨Scripted.Script.words.start, overflow⟩ composite).run (.empty, floatSession)

/-- The catalogue behind such a request. -/
def enteredBy (overflow : Overflow) (composite : Composite) : Catalogue :=
  (entering overflow composite).2.1

-- Stated for all composites, so that no request is run to compare the catalogue with its name.
/-- The catalogue behind a request is one that calls lead to. -/
theorem reached_enteredBy (overflow : Overflow) (composite : Composite)
    (built : composite.isBuilt) : ∃ log, Reached log (enteredBy overflow composite) :=
  ⟨_, Reached.start.create _ composite _ built⟩

/-- The catalogue behind a request where overflow is caught is one that such calls lead to. -/
theorem reachedCaught_enteredBy (composite : Composite) (built : composite.isBuilt) :
    ReachedCaught (enteredBy .caught composite) :=
  .create .start _ rfl composite _ built

/-- A record of as many floats as take half of all bytes that a word can count. -/
def halfRecord : Composite :=
  .mk [.array "x" (.scalar (.native "float")) 0x2000000000000000] .natural

/-- A record with a float before three of those. -/
def largeRecord : Composite :=
  .mk [.single "tag" (.scalar (.native "float")), .array "halves" (.composite halfRecord) 3]
    .natural

/-- The inner record takes a word, and its layout is exact. A program that goes on at overflow
records the outer one with a third of its bytes, and that is what a word holds of its size; one that
stops there stops behind the inner record, at one that takes no word. -/
theorem layout_exact_iff_largeRecord :
    ((enteredBy .wraps largeRecord).layout 0 = (enteredBy .wraps largeRecord).exactLayout 0 ∧
      (enteredBy .wraps largeRecord).Fits 0) ∧
    ((enteredBy .wraps largeRecord).layout 1 = ⟨[0, 4], 0x8000000000000004, 4⟩ ∧
      (enteredBy .wraps largeRecord).exactLayout 1 = ⟨[0, 4], 0x18000000000000004, 4⟩ ∧
      (enteredBy .wraps largeRecord).layout 1 =
        ((enteredBy .wraps largeRecord).exactLayout 1).wrapped) ∧
    (entering .caught largeRecord).1 = .error (.overflow .multiply) ∧
    (enteredBy .caught largeRecord).size = 1 ∧
    (enteredBy .caught largeRecord).layout 0 = (enteredBy .caught largeRecord).exactLayout 0 ∧
    ∃ part, largeRecord.Holds part ∧ (enteredBy .caught largeRecord).Exceeds part := by
  have facts : ((0 < (enteredBy .wraps largeRecord).size ∧
        1 < (enteredBy .wraps largeRecord).size ∧ (enteredBy .wraps largeRecord).Fits 0) ∧
      (enteredBy .wraps largeRecord).layout 1 = ⟨[0, 4], 0x8000000000000004, 4⟩ ∧
      (enteredBy .wraps largeRecord).exactLayout 1 = ⟨[0, 4], 0x18000000000000004, 4⟩) ∧
      (entering .caught largeRecord).1 = .error (.overflow .multiply) ∧
      (enteredBy .caught largeRecord).size = 1 := by
    decide +kernel
  obtain ⟨⟨⟨inner, outer, fits⟩, recorded, exact⟩, stopped, size⟩ := facts
  obtain ⟨log, reached⟩ := reached_enteredBy .wraps largeRecord rfl
  have exactInner := ((layout_exact_iff reached).1 0 inner).2.2.2.mpr fits
  have wrappedOuter := ((layout_exact_iff reached).1 1 outer).2.1
  obtain ⟨logCaught, reachedLog⟩ := reached_enteredBy .caught largeRecord rfl
  have caught := ((layout_exact_iff reachedLog).2 (reachedCaught_enteredBy largeRecord rfl)).1
  -- For all composites, as above.
  have exceeds (composite : Composite) (built : composite.isBuilt)
      (stopped : (entering .caught composite).1 = .error (.overflow .multiply)) :
      ∃ part, composite.Holds part ∧ (enteredBy .caught composite).Exceeds part :=
    ((((layout_exact_iff .start).2 .start).2 ⟨Scripted.Script.words.start, .caught⟩ composite
      floatSession built).2 _ stopped _ rfl).2
  exact ⟨⟨exactInner.1, fits⟩, ⟨recorded, exact, wrappedOuter⟩, stopped, size,
    (caught 0 (Nat.lt_of_lt_of_eq Nat.one_pos size.symm)).1, exceeds largeRecord rfl stopped⟩

/-- A record of as many floats as take all bytes that a word can count, and one more. -/
def hugeRecord : Composite :=
  .mk [.array "x" (.scalar (.native "float")) 0x4000000000000000] .natural

/-- A program that goes on at overflow enters it with no bytes at all, and one that stops there
stops at it. -/
theorem layout_wraps_hugeRecord : (¬ ∀ (log : EntryLog) (catalogue : Catalogue) (id : Nat),
    Reached log catalogue → id < catalogue.size →
      catalogue.layout id = catalogue.exactLayout id) ∧
    (entering .caught hugeRecord).1 = .error (.overflow .multiply) := by
  have facts : (0 < (enteredBy .wraps hugeRecord).size ∧
      ((enteredBy .wraps hugeRecord).layout 0).size = 0 ∧
      ((enteredBy .wraps hugeRecord).exactLayout 0).size = 0x10000000000000000) ∧
      (entering .caught hugeRecord).1 = .error (.overflow .multiply) := by
    decide +kernel
  obtain ⟨⟨known, recorded, exact⟩, stopped⟩ := facts
  refine ⟨fun claim => ?_, stopped⟩
  obtain ⟨log, reached⟩ := reached_enteredBy .wraps hugeRecord rfl
  have same := claim log _ 0 reached known
  rw [same, exact] at recorded
  cases recorded

end Catalogue

end TypeBridge
