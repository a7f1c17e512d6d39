import TypeBridge.Proofs.Record.Entering
import TypeBridge.Proofs.Record.Order
import TypeBridge.Record.Definition
import TypeBridge.Scripted.Compiler

/-!
# Catalogues that calls lead to

`Catalogue.Reached` holds of every catalogue that calls lead to from the one without structures, each
in a session of its own and whether it is answered or not, together with the log of what they
entered. `Catalogue.Changes` lists all that a call can do, one change at a time, and
`Reached.changes` is the induction that carries an invariant from there to all reached catalogues.
-/

namespace TypeBridge.Catalogue

variable {catalogue before after : Catalogue} {composite : Composite} {id : Nat} {name : String}

/-! ## Renaming -/

/-- A catalogue behind the renaming of a structure. -/
def renamed (catalogue : Catalogue) (id : Nat) (name : String) : Catalogue :=
  { catalogue.modifyEntry id (fun entry => { entry with name := name }) with
    byName := catalogue.reindexName (catalogue.name id) name id }

/-- A new name is a later state of a catalogue. -/
theorem extends_renamed (catalogue : Catalogue) (id : Nat) (name : String) :
    catalogue.Extends (catalogue.renamed id name) :=
  have extension := extends_modifyEntry (fun entry => { entry with name := name })
    (fun _ => ⟨rfl, rfl, rfl, rfl, fun written => written⟩) catalogue id
  ⟨extension.size, extension.entry⟩

/-- A structure that was renamed has the new name. -/
theorem name_renamed (known : id < catalogue.size) :
    (catalogue.renamed id name).name id = name := by
  have changed : ((catalogue.renamed id name).entry id).name = _ :=
    congrArg RecordEntry.name (entry_modifyEntry known)
  rw [Catalogue.name, changed, if_pos rfl]

/-- What is made sure of before a structure gets another name. -/
structure Renamable (catalogue : Catalogue) (id : Nat) (name : String) : Prop where
  identifier : isIdentifier name
  different : catalogue.name id ≠ name
  unwritten : (catalogue.entry id).emitted = false
  free : ∀ other, catalogue.byName.lookup name = some other → other = id

/-- A structure keeps the name that it is to have, or gets another one, or the request is refused
and nothing happens. -/
theorem renameId_ensures (id : Nat) (name : String) (catalogue : Catalogue) :
    (renameId id name).Ensures catalogue
      (fun _ after => (isIdentifier name ∧ catalogue.name id = name ∧ after = catalogue) ∨
        (catalogue.Renamable id name ∧ after = catalogue.renamed id name))
      (fun _ after => after = catalogue) := by
  unfold Step.Ensures Step.run renameId
  dsimp only
  cases checked : checkIdentifier name with
  | error fault => exact ⟨fun _ absurd => (by cases absurd), fun _ _ => rfl⟩
  | ok =>
      have identifier := isIdentifier_of_check checked
      dsimp only
      by_cases same : (catalogue.entry id).name = name
      · rw [if_pos same]
        exact ⟨fun _ _ => Or.inl ⟨identifier, same, rfl⟩, fun _ absurd => by cases absurd⟩
      · rw [if_neg same]
        cases written : (catalogue.entry id).emitted with
        | true => exact ⟨fun _ absurd => (by cases absurd), fun _ _ => rfl⟩
        | false =>
            rw [if_neg Bool.false_ne_true]
            split
            · exact ⟨fun _ absurd => (by cases absurd), fun _ _ => rfl⟩
            · rename_i open'
              refine ⟨fun _ _ => Or.inr ⟨⟨identifier, same, written, fun other taken => ?_⟩, rfl⟩,
                fun _ absurd => by cases absurd⟩
              rw [taken] at open'
              simpa using open'

/-! ## Writing definitions -/

/-- A mark is a later state of a catalogue. -/
theorem extends_markEmitted (catalogue : Catalogue) (id : Nat) :
    catalogue.Extends (catalogue.markEmitted id) :=
  extends_modifyEntry (fun entry => { entry with emitted := true })
    (fun _ => ⟨rfl, rfl, rfl, rfl, fun _ => rfl⟩) catalogue id

/-- Note that the definitions of some structures were written. -/
def markAll (catalogue : Catalogue) (ids : List Nat) : Catalogue :=
  ids.foldl markEmitted catalogue

/-- So are marks in turn. -/
theorem extends_markAll (ids : List Nat) (catalogue : Catalogue) :
    catalogue.Extends (catalogue.markAll ids) := by
  induction ids generalizing catalogue with
  | nil => exact .refl catalogue
  | cons id rest ih =>
      exact (extends_markEmitted catalogue id).trans (ih (catalogue.markEmitted id))

/-- A structure that is marked counts as written. -/
theorem emitted_markAll {ids : List Nat} (member : id ∈ ids) (known : id < catalogue.size) :
    ((catalogue.markAll ids).entry id).emitted := by
  induction ids generalizing catalogue with
  | nil => cases member
  | cons first rest ih =>
      have still : id < (catalogue.markEmitted first).size :=
        Nat.lt_of_lt_of_eq known size_modifyEntry.symm
      rcases List.mem_cons.mp member with rfl | later
      · have extension := extends_markAll rest (catalogue.markEmitted id)
        refine (extension.entry id still).emitted ?_
        rw [markEmitted, entry_modifyEntry known, if_pos rfl]
      · exact ih later still

/-- A definition knows of the names, fields and packing of its structure, and of the names of those
that it refers to. -/
theorem nativeDefinition_congr {other : Catalogue} (ownName : other.name id = catalogue.name id)
    (names : ∀ child ∈ catalogue.children id, other.name child = catalogue.name child)
    (fields : (other.entry id).fields = (catalogue.entry id).fields)
    (packing : (other.entry id).packing = (catalogue.entry id).packing) :
    other.nativeDefinition id = catalogue.nativeDefinition id := by
  have lines : (catalogue.entry id).fields.map other.memberLine =
      (catalogue.entry id).fields.map catalogue.memberLine := by
    apply List.map_congr_left
    intro field member
    have sameName : ∀ child, field.child? = some child →
        other.name child = catalogue.name child := fun child refers =>
      names child (List.mem_filterMap.mpr ⟨field, member, refers⟩)
    obtain ⟨name, type, count⟩ := field
    cases type with
    | scalar => rfl
    | record child => simp only [memberLine, typeText, sameName child rfl]
    | pointer child => simp only [memberLine, typeText, sameName child rfl]
  have entryName : (other.entry id).name = (catalogue.entry id).name := ownName
  simp only [nativeDefinition, entryName, fields, packing, lines]

/-- A mark changes nothing of a structure but whether it was written. -/
theorem entry_markEmitted (catalogue : Catalogue) (id target : Nat) :
    ∃ emitted, (catalogue.markEmitted target).entry id =
      { catalogue.entry id with emitted := emitted } := by
  simp only [Catalogue.entry, markEmitted, modifyEntry, List.getElem?_modify]
  cases catalogue.entries[id]? with
  | none => exact ⟨false, rfl⟩
  | some entry =>
      by_cases same : target = id
      · exact ⟨true, by simp [same]⟩
      · exact ⟨entry.emitted, by simp [same]⟩

/-- A mark leaves names alone. -/
theorem name_markEmitted (catalogue : Catalogue) (id target : Nat) :
    (catalogue.markEmitted target).name id = catalogue.name id := by
  obtain ⟨_, same⟩ := entry_markEmitted catalogue id target
  rw [name, same]
  rfl

/-- So do marks in turn. -/
theorem name_markAll (ids : List Nat) (catalogue : Catalogue) (id : Nat) :
    (catalogue.markAll ids).name id = catalogue.name id := by
  induction ids generalizing catalogue with
  | nil => rfl
  | cons first rest ih =>
      have marked := ih (catalogue.markEmitted first)
      rw [name_markEmitted] at marked
      exact marked

/-- Marks add no structure. -/
theorem size_markAll (ids : List Nat) (catalogue : Catalogue) :
    (catalogue.markAll ids).size = catalogue.size := by
  induction ids generalizing catalogue with
  | nil => rfl
  | cons first rest ih => exact (ih (catalogue.markEmitted first)).trans size_modifyEntry

/-- A mark leaves native definitions alone. -/
theorem nativeDefinition_markEmitted (catalogue : Catalogue) (id target : Nat) :
    (catalogue.markEmitted target).nativeDefinition id = catalogue.nativeDefinition id := by
  obtain ⟨_, same⟩ := entry_markEmitted catalogue id target
  exact nativeDefinition_congr (name_markEmitted catalogue id target)
    (fun child _ => name_markEmitted catalogue child target) (by rw [same]) (by rw [same])

/-- Writing structures gives their definitions as they were before, and marks them. -/
theorem run_renderAll (ids : List Nat) (catalogue : Catalogue) :
    (renderAll ids).run catalogue =
      (.ok (ids.map catalogue.nativeDefinition), catalogue.markAll ids) := by
  induction ids generalizing catalogue with
  | nil => rfl
  | cons id rest ih =>
      have definitions : (catalogue.markEmitted id).nativeDefinition = catalogue.nativeDefinition :=
        funext fun other => nativeDefinition_markEmitted catalogue other id
      rw [renderAll]
      simp only [Step.run_bind, Step.run_get, Step.run_modify, ih, Step.run_pure, definitions,
        List.map_cons]
      rfl

/-- Writing a structure with all that it refers to gives the first of their definitions. -/
theorem run_renderFirst (id count : Nat) (catalogue : Catalogue) :
    (renderFirst id count).run catalogue =
      (.ok (((catalogue.dependencyOrder id).take count).map catalogue.nativeDefinition),
        catalogue.markAll ((catalogue.dependencyOrder id).take count)) :=
  run_renderAll _ catalogue

/-! ## Changes -/

/-- A single change of a catalogue and the log that goes with it. -/
inductive Changes : EntryLog × Catalogue → EntryLog × Catalogue → Prop where
  | entered {overflow : Overflow} {bound : Nat} {before after : EntryLog × Catalogue}
      (enters : Enters overflow bound before after) : Changes before after
  | renamed {log : EntryLog} {catalogue : Catalogue} {id : Nat} {name : String}
      (known : id < catalogue.size) (renamable : catalogue.Renamable id name) :
      Changes (log, catalogue) (log, catalogue.renamed id name)
  | marked {log : EntryLog} {catalogue : Catalogue} {id : Nat} (known : id < catalogue.size) :
      Changes (log, catalogue) (log, catalogue.markEmitted id)

/-- A change is a later state. -/
theorem Changes.extension {start last : EntryLog × Catalogue} (changes : Changes start last) :
    start.2.Extends last.2 := by
  cases changes with
  | entered enters => exact enters.extension
  | renamed => exact extends_renamed _ _ _
  | marked => exact extends_markEmitted _ _

/-- A sequence of changes. -/
abbrev ChangesAll : EntryLog × Catalogue → EntryLog × Catalogue → Prop :=
  Relation.ReflTransGen Changes

/-- A chain of entries is a sequence of changes. -/
theorem EntersAll.changes {overflow : Overflow} {bound : Nat} {start last : EntryLog × Catalogue}
    (chain : EntersAll overflow bound start last) : ChangesAll start last :=
  Relation.ReflTransGen.mono (fun _ _ enters => .entered enters) _ _ chain

/-- A sequence of changes leads to a later state. -/
theorem ChangesAll.extension {start last : EntryLog × Catalogue} (changes : ChangesAll start last) :
    start.2.Extends last.2 := by
  induction changes with
  | refl => exact .refl _
  | tail _ change ih => exact ih.trans change.extension

/-- Changes keep the indexes to numbers of structures. -/
theorem ChangesAll.indexed {start last : EntryLog × Catalogue} (changes : ChangesAll start last)
    (indexed : start.2.Indexed) : last.2.Indexed := by
  induction changes with
  | refl => exact indexed
  | tail _ change ih =>
      cases change with
      | entered enters => exact enters.indexed ih
      | renamed => exact ih.modified size_modifyEntry rfl rfl
      | marked => exact ih.modified size_modifyEntry rfl rfl

/-- A call to rename a structure makes a change, or none. -/
theorem renameId_changes {log : EntryLog} (known : id < catalogue.size) :
    ChangesAll (log, catalogue) (log, ((renameId id name).run catalogue).2) := by
  have ensures := renameId_ensures id name catalogue
  generalize ran : (renameId id name).run catalogue = outcome
  obtain ⟨result, after⟩ := outcome
  cases result with
  | ok answer =>
      rcases ensures.of_ok ran with ⟨-, -, rfl⟩ | ⟨renamable, rfl⟩
      · exact .refl
      · exact .single (.renamed known renamable)
  | error fault =>
      cases ensures.of_error ran
      exact .refl

/-- Marks are changes. -/
theorem markAll_changes {log : EntryLog} {ids : List Nat} (catalogue : Catalogue)
    (known : ∀ id ∈ ids, id < catalogue.size) :
    ChangesAll (log, catalogue) (log, catalogue.markAll ids) := by
  induction ids generalizing catalogue with
  | nil => exact .refl
  | cons id rest ih =>
      refine .head (.marked (known id List.mem_cons_self)) (ih (catalogue.markEmitted id) ?_)
      intro other member
      exact Nat.lt_of_lt_of_eq (known other (List.mem_cons_of_mem id member)) size_modifyEntry.symm

/-! ## Calls -/

/-- The composites that a request to enter one enters, each with its resolved fields, and before
them those that were entered earlier. -/
def logAfter (machine : Machine) (composite : Composite) (log : EntryLog) (catalogue : Catalogue)
    (rest : Session × Workbench) : EntryLog :=
  ((createLogged machine composite).run (log, catalogue, rest)).2.1

/-- A request to enter a composite is a chain of entries; behind it the composite is known by the
number that it answers with. -/
theorem create_ensures (machine : Machine) (log : EntryLog) (rest : Session × Workbench)
    (built : composite.isBuilt) (indexed : catalogue.Indexed) :
    (create machine composite).Ensures (catalogue, rest)
      (fun id after => EntersAll machine.overflow (sizeOf composite) (log, catalogue)
          (logAfter machine composite log catalogue rest, after.1) ∧
        after.1.lookup composite = some id)
      (fun _ after => EntersAll machine.overflow (sizeOf composite) (log, catalogue)
          (logAfter machine composite log catalogue rest, after.1)) := by
  obtain ⟨answers, failures⟩ :=
    createLogged_ensures machine composite built log catalogue rest indexed
  obtain ⟨sameResult, sameState⟩ := erases_createLogged machine composite log (catalogue, rest)
  refine ⟨fun id ran => ?_, fun fault ran => ?_⟩
  · rw [← sameResult] at ran
    rw [← sameState]
    exact answers id ran
  · rw [← sameResult] at ran
    rw [← sameState]
    exact failures fault ran

/-- A request to enter a composite is a chain of entries whatever comes of it. -/
theorem create_enters (machine : Machine) (log : EntryLog) (rest : Session × Workbench)
    (built : composite.isBuilt) (indexed : catalogue.Indexed) :
    EntersAll machine.overflow (sizeOf composite) (log, catalogue)
      (logAfter machine composite log catalogue rest,
        ((create machine composite).run (catalogue, rest)).2.1) :=
  Step.Ensures.of_run (fun after => EntersAll _ _ _ (_, after.1))
    ((create_ensures machine log rest built indexed).mono (fun _ _ ensured => ensured.1)
      fun _ _ chain => chain) rfl

/-- A request to enter and rename a composite is a sequence of changes. -/
theorem rename_ensures (name : String) (machine : Machine) (log : EntryLog) (rest : Session × Workbench)
    (built : composite.isBuilt) (indexed : catalogue.Indexed) :
    (rename machine composite name).Ensures (catalogue, rest)
      (fun id after =>
        ChangesAll (log, catalogue) (logAfter machine composite log catalogue rest, after.1) ∧
          after.1.lookup composite = some id ∧ after.1.name id = name)
      (fun _ after =>
        ChangesAll (log, catalogue) (logAfter machine composite log catalogue rest, after.1)) := by
  rw [rename]
  refine Step.Ensures.bind _ ((create_ensures machine log rest built indexed).mono_failed
    fun _ _ chain => EntersAll.changes chain) ?_
  rintro id ⟨catalogue', rest'⟩ ⟨chain, known⟩
  have changes := EntersAll.changes chain
  have present : id < catalogue'.size := (changes.indexed indexed).byType composite id known
  refine Step.Ensures.bind (fun _ after =>
    ChangesAll (log, catalogue) (logAfter machine composite log catalogue rest, after.1) ∧
      after.1.lookup composite = some id ∧ after.1.name id = name)
    (Step.Ensures.onFirst ((renameId_ensures id name catalogue').mono ?_ ?_))
    fun _ _ holds => Step.Ensures.pure holds
  · rintro _ after (⟨-, same, rfl⟩ | ⟨renamable, rfl⟩)
    · exact ⟨changes, known, same⟩
    · exact ⟨changes.tail (.renamed present renamable), known, name_renamed present⟩
  · rintro _ _ rfl
    exact changes

/-- A catalogue that calls lead to, with the log of what they entered. Each call is made in any
session, and counts whatever comes of it. A structure is named by its number, which only the
catalogue gives out. -/
inductive Reached : EntryLog → Catalogue → Prop where
  | start : Reached [] .empty
  | create {log : EntryLog} {catalogue : Catalogue} (reached : Reached log catalogue)
      (machine : Machine) (composite : Composite) (rest : Session × Workbench)
      (built : composite.isBuilt) :
      Reached (logAfter machine composite log catalogue rest)
        ((create machine composite).run (catalogue, rest)).2.1
  | rename {log : EntryLog} {catalogue : Catalogue} (reached : Reached log catalogue)
      (machine : Machine) (composite : Composite) (name : String) (rest : Session × Workbench)
      (built : composite.isBuilt) :
      Reached (logAfter machine composite log catalogue rest)
        ((rename machine composite name).run (catalogue, rest)).2.1
  | renameId {log : EntryLog} {catalogue : Catalogue} (reached : Reached log catalogue) (id : Nat)
      (name : String) (known : id < catalogue.size) :
      Reached log ((renameId id name).run catalogue).2
  | render {log : EntryLog} {catalogue : Catalogue} (reached : Reached log catalogue)
      (id count : Nat) (known : id < catalogue.size) :
      Reached log ((renderFirst id count).run catalogue).2
  | renderAll {log : EntryLog} {catalogue : Catalogue} (reached : Reached log catalogue)
      (ids : List Nat) (known : ∀ id ∈ ids, id < catalogue.size) :
      Reached log ((renderAll ids).run catalogue).2

/-! ## Invariants of reached catalogues -/

/-- A reached catalogue arises from the empty one by a sequence of changes. -/
theorem Reached.changes {log : EntryLog} (reached : Reached log catalogue) :
    ChangesAll ([], .empty) (log, catalogue) := by
  induction reached with
  | start => exact .refl
  | @create log catalogue reached machine composite rest built ih =>
      have chain := create_enters machine log rest built (ih.indexed indexed_empty)
      exact ih.trans (EntersAll.changes chain)
  | rename reached machine composite name rest built ih =>
      exact ih.trans (Step.Ensures.of_run (fun after => ChangesAll _ (_, after.1))
        ((rename_ensures name machine _ rest built (ih.indexed indexed_empty)).mono
          (fun _ _ ensured => ensured.1) fun _ _ ensured => ensured) rfl)
  | renameId reached id name known ih => exact ih.trans (renameId_changes known)
  | @render log catalogue reached id count known ih =>
      refine ih.trans ?_
      rw [run_renderFirst]
      exact markAll_changes catalogue fun other member => Nat.lt_of_le_of_lt
        (le_of_mem_dependencyOrder (List.mem_of_mem_take member)) known
  | renderAll reached ids known ih =>
      rw [run_renderAll]
      exact ih.trans (markAll_changes _ known)

/-- The indexes of a reached catalogue lead to its structures. -/
theorem Reached.indexed {log : EntryLog} (reached : Reached log catalogue) : catalogue.Indexed :=
  reached.changes.indexed indexed_empty

/-- A session that knows floats and has nothing to probe, on a workbench without files. -/
def floatSession : Session × Workbench :=
  let floats : List TypeName := [.native "float", .arrayLib "float32", .ffi "c_float"]
  ({ Session.start (.standardFor .linux) with
      registry := floats.foldl (fun registry name => registry.insert name (.float 4)) .empty
      probed := Builtin.nativeNames },
    .fresh "/tmp" .empty)

/-- A record of one float that is named in some system. -/
def floatRecord (name : TypeName) : Composite := .mk [.single "x" (.scalar name)] .natural

/-- The catalogue behind a request to enter a composite as the first one, in that session. -/
def enteredFirst (composite : Composite) : Catalogue :=
  ((create Scripted.Script.words.machine composite).run (.empty, floatSession)).2.1

-- Stated for all composites: a given request would be run to compare the catalogue with its name.
/-- Every composite can be the first one that is entered. -/
theorem reached_enteredFirst (composite : Composite) (built : composite.isBuilt) :
    Reached (logAfter Scripted.Script.words.machine composite [] .empty floatSession)
      (enteredFirst composite) :=
  Reached.start.create _ composite _ built

end TypeBridge.Catalogue
