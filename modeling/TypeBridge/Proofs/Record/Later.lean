import TypeBridge.Proofs.Record.Soundness

/-!
# Catalogues as time goes by

`Catalogue.Later` relates a catalogue to all that requests make of it, whatever is entered into it on
the way. A later catalogue is sound, and keeps the name of each structure that was written.
-/

namespace TypeBridge.Catalogue

variable {catalogue before middle after : Catalogue} {composite : Composite} {id : Nat}
  {name : String}

/-- A state that a catalogue can come to by a sequence of changes. -/
def Later (before after : Catalogue) : Prop :=
  ∀ log, ∃ log', ChangesAll (log, before) (log', after)

namespace Later

theorem refl (catalogue : Catalogue) : catalogue.Later catalogue := by
  intro log
  exact ⟨log, .refl⟩

/-- A later state of a later state is one. -/
theorem trans (start : before.Later middle) (rest : middle.Later after) : before.Later after := by
  intro log
  obtain ⟨log', changes⟩ := start log
  obtain ⟨log'', changes'⟩ := rest log'
  exact ⟨log'', changes.trans changes'⟩

/-- Structures that are there are carried on in a later state. -/
theorem extension (later : before.Later after) : before.Extends after := by
  obtain ⟨log, changes⟩ := later []
  exact ChangesAll.extension changes

/-- The indexes of a later state lead to structures, too. -/
theorem indexed (later : before.Later after) (indexed : before.Indexed) : after.Indexed := by
  obtain ⟨log, changes⟩ := later []
  exact ChangesAll.indexed changes indexed

/-- A later state of a sound catalogue is sound. -/
theorem sound (later : before.Later after) (indexed : before.Indexed) (sound : before.Sound) :
    after.Sound := by
  obtain ⟨log, changes⟩ := later []
  exact ChangesAll.sound changes indexed sound

end Later

/-! ## Names of structures that were written -/

/-- A change leaves the name of a structure alone that was written. -/
theorem Changes.name_of_written {start last : EntryLog × Catalogue} (changes : Changes start last)
    (known : id < start.2.size) (written : (start.2.entry id).emitted) :
    last.2.name id = start.2.name id := by
  cases changes with
  | entered enters => exact congrArg RecordEntry.name (enters.entry known)
  | @renamed log catalogue target name _ renamable =>
      have different : target ≠ id := by
        rintro rfl
        have unwritten := renamable.unwritten
        simp [written] at unwritten
      have same : (catalogue.renamed target name).entry id = catalogue.entry id :=
        (entry_modifyEntry known).trans (if_neg different)
      exact congrArg RecordEntry.name same
  | marked => exact name_markEmitted _ _ _

/-- Changes leave the name of a structure alone that was written. -/
theorem ChangesAll.name_of_written {start last : EntryLog × Catalogue}
    (changes : ChangesAll start last) (known : id < start.2.size)
    (written : (start.2.entry id).emitted) : last.2.name id = start.2.name id := by
  induction changes with
  | refl => rfl
  | tail earlier change ih =>
      have extension := ChangesAll.extension earlier
      have still := Nat.lt_of_lt_of_le known extension.size
      rw [change.name_of_written still ((extension.entry id known).emitted written), ih]

/-- A structure that was written stays so and keeps its name. -/
theorem Later.name_of_written (later : before.Later after) (known : id < before.size)
    (written : (before.entry id).emitted) :
    (after.entry id).emitted ∧ after.name id = before.name id := by
  obtain ⟨log, changes⟩ := later []
  constructor
  · exact ((ChangesAll.extension changes).entry id known).emitted written
  · exact ChangesAll.name_of_written changes known written

/-- A structure that was written cannot get another name. -/
theorem run_renameId_of_written (written : (catalogue.entry id).emitted)
    (identifier : isIdentifier name) (different : catalogue.name id ≠ name) :
    (renameId id name).run catalogue =
      (.error (.alreadyRendered (catalogue.name id)), catalogue) := by
  have checked : checkIdentifier name = .ok () := if_pos identifier
  have other : ¬(catalogue.entry id).name = name := different
  simp only [Step.run, renameId, checked, if_neg other, if_pos written]
  rfl

/-- A structure that was not written can get any name that no structure has. -/
theorem run_renameId_of_unwritten (unwritten : (catalogue.entry id).emitted = false)
    (identifier : isIdentifier name) (different : catalogue.name id ≠ name)
    (free : catalogue.byName.lookup name = none) :
    (renameId id name).run catalogue = (.ok (), catalogue.renamed id name) := by
  have checked : checkIdentifier name = .ok () := if_pos identifier
  have other : ¬(catalogue.entry id).name = name := different
  simp only [Step.run, renameId, checked, if_neg other, unwritten, free]
  rfl

/-! ## Requests -/

/-- A later catalogue in which all structures are as they were, and some may be new. -/
structure Adds (before after : Catalogue) : Prop where
  later : before.Later after
  entry : ∀ id, id < before.size → after.entry id = before.entry id
  remembers : before.Remembers after

namespace Adds

theorem refl (catalogue : Catalogue) : catalogue.Adds catalogue :=
  ⟨.refl catalogue, fun _ _ => rfl, fun _ _ known => known⟩

/-- What is added twice over is added. -/
theorem trans (start : before.Adds middle) (rest : middle.Adds after) : before.Adds after where
  later := start.later.trans rest.later
  entry id known := by
    have still := Nat.lt_of_lt_of_le known start.later.extension.size
    rw [rest.entry id still, start.entry id known]
  remembers composite id known := rest.remembers composite id (start.remembers composite id known)

end Adds

/-- A request to enter a composite adds structures, and makes the composite known if it is
answered. -/
theorem create_adds (machine : Machine) (rest : Session × Workbench) (built : composite.isBuilt)
    (indexed : catalogue.Indexed) :
    (create machine composite).Ensures (catalogue, rest)
      (fun id after => catalogue.Adds after.1 ∧ after.1.lookup composite = some id)
      (fun _ after => catalogue.Adds after.1) := by
  have adds : ∀ after : Catalogue × Session × Workbench,
      (∀ log, EntersAll machine.overflow (sizeOf composite) (log, catalogue)
        (logAfter machine composite log catalogue rest, after.1)) → catalogue.Adds after.1 := by
    intro after chain
    refine ⟨fun log => ⟨_, EntersAll.changes (chain log)⟩, ?_, EntersAll.remembers (chain [])⟩
    intro id known
    exact EntersAll.entry (chain []) known
  have ensures := fun log => create_ensures machine log rest built indexed
  constructor
  · intro id ran
    exact ⟨adds _ fun log => ((ensures log).1 id ran).1, ((ensures []).1 id ran).2⟩
  · intro fault ran
    exact adds _ fun log => (ensures log).2 fault ran

/-- A request to enter and rename a composite leads to a later state. -/
theorem later_rename (machine : Machine) (rest : Session × Workbench) (built : composite.isBuilt)
    (indexed : catalogue.Indexed) (name : String) :
    catalogue.Later ((rename machine composite name).run (catalogue, rest)).2.1 := by
  intro log
  have ensures := rename_ensures name machine log rest built indexed
  exact ⟨_, Step.Ensures.of_run (fun after => ChangesAll (log, catalogue) (_, after.1))
    (ensures.mono (fun _ _ ensured => ensured.1) fun _ _ changes => changes) rfl⟩

/-- So does a call to rename a structure. -/
theorem later_renameId (known : id < catalogue.size) (name : String) :
    catalogue.Later ((renameId id name).run catalogue).2 := by
  intro log
  exact ⟨log, renameId_changes known⟩

/-- So do marks. -/
theorem later_markAll {ids : List Nat} (known : ∀ id ∈ ids, id < catalogue.size) :
    catalogue.Later (catalogue.markAll ids) := by
  intro log
  exact ⟨log, markAll_changes catalogue known⟩

/-- So does writing a structure with all that it refers to. -/
theorem later_renderFirst (known : id < catalogue.size) (count : Nat) :
    catalogue.Later ((renderFirst id count).run catalogue).2 := by
  rw [run_renderFirst]
  apply later_markAll
  intro other member
  exact Nat.lt_of_le_of_lt (le_of_mem_dependencyOrder (List.mem_of_mem_take member)) known

/-- A request to a catalogue. A structure is named by its number, which only the catalogue gives
out. -/
inductive Request (catalogue : Catalogue) : Catalogue → Prop where
  | create (machine : Machine) (composite : Composite) (rest : Session × Workbench)
      (built : composite.isBuilt) :
      Request catalogue ((create machine composite).run (catalogue, rest)).2.1
  | rename (machine : Machine) (composite : Composite) (name : String) (rest : Session × Workbench)
      (built : composite.isBuilt) :
      Request catalogue ((rename machine composite name).run (catalogue, rest)).2.1
  | renameId (id : Nat) (name : String) (known : id < catalogue.size) :
      Request catalogue ((renameId id name).run catalogue).2
  | render (id count : Nat) (known : id < catalogue.size) :
      Request catalogue ((renderFirst id count).run catalogue).2
  | renderAll (ids : List Nat) (known : ∀ id ∈ ids, id < catalogue.size) :
      Request catalogue ((renderAll ids).run catalogue).2

/-- A request leads to a later catalogue. -/
theorem Request.later (request : catalogue.Request after) (indexed : catalogue.Indexed) :
    catalogue.Later after := by
  cases request with
  | create machine composite rest built =>
      have ensures := create_adds machine rest built indexed
      exact Step.Ensures.of_run (fun after => catalogue.Later after.1) (ensures.mono
        (fun _ _ ensured => ensured.1.later) fun _ _ adds => adds.later) rfl
  | rename machine composite name rest built => exact later_rename machine rest built indexed name
  | renameId id name known => exact later_renameId known name
  | render id count known => exact later_renderFirst known count
  | renderAll ids known =>
      rw [run_renderAll]
      exact later_markAll known

end TypeBridge.Catalogue
