import TypeBridge.Proofs.Record.KeyReading
import TypeBridge.Proofs.Record.Later

/-!
# Names of structures

A structure is called after the digest of its key until it is renamed, and the index of names is
changed along with it. `Catalogue.Named` says that the index leads from each name to the structure
that bears it now and from no other name anywhere; every change keeps it.
-/

namespace TypeBridge

/-! ## Names made of digests -/

/-- A hexadecimal digit can stand in a name. -/
theorem isNameRest_hexDigit (n : Nat) : isNameRest (Text.Hex.digit n) := by
  have known : "0123456789abcdef".toList.all isNameRest := by decide
  rw [Text.Hex.digit, List.getD_eq_getElem?_getD]
  cases found : ("0123456789abcdef".toList)[n]? with
  | none => decide
  | some c => exact List.all_eq_true.mp known c (List.mem_of_getElem? found)

/-- A digest consists of characters that can stand in a name. -/
theorem isNameRest_of_mem_sha1Hex {message : List UInt8} {c : Char}
    (member : c ∈ (Digest.sha1Hex message).toList) : isNameRest c := by
  simp only [Digest.sha1Hex, String.toList_ofList, List.mem_flatMap, Text.Hex.digits,
    List.mem_map] at member
  obtain ⟨word, -, i, -, rfl⟩ := member
  exact isNameRest_hexDigit _

/-- A digest behind a word is an identifier, whatever it is the digest of. -/
theorem isIdentifier_canonicalName (key : String) : isIdentifier (Catalogue.canonicalName key) := by
  have shape : (Catalogue.canonicalName key).toList =
      's' :: ("truct_".toList ++ (Digest.sha1Hex (Text.Utf8.encode key)).toList) := by
    simp [Catalogue.canonicalName]
  simp only [isIdentifier, shape, List.all_append, Bool.and_eq_true]
  refine ⟨by decide +kernel, by decide +kernel, ?_⟩
  rw [List.all_eq_true]
  intro c member
  exact isNameRest_of_mem_sha1Hex member

namespace Catalogue

variable {catalogue before after : Catalogue} {composite : Composite} {id : Nat} {name : String}

/-! ## The index of names -/

/-- The index of names leads to each structure from its present name and from no other name, and
each name is one that native code can use. -/
structure Named (catalogue : Catalogue) : Prop where
  found : ∀ name id, catalogue.byName.lookup name = some id ↔
    id < catalogue.size ∧ catalogue.name id = name
  identifier : ∀ id, id < catalogue.size → isIdentifier (catalogue.name id)

/-- The index of an empty catalogue is in step. -/
theorem named_empty : empty.Named where
  found _ _ := ⟨nofun, fun known => absurd known.1 (Nat.not_lt_zero _)⟩
  identifier _ known := absurd known (Nat.not_lt_zero _)

/-- No two structures share a name. -/
theorem Named.eq_of_name_eq (named : catalogue.Named) {other : Nat} (known : id < catalogue.size)
    (known' : other < catalogue.size) (same : catalogue.name id = catalogue.name other) :
    id = other := by
  have found := (named.found _ id).mpr ⟨known, rfl⟩
  have found' := (named.found _ other).mpr ⟨known', rfl⟩
  rw [same, found'] at found
  exact (Option.some.inj found).symm

/-- A catalogue in which nothing got another name or was added. -/
theorem Named.carried (named : before.Named) (size : after.size = before.size)
    (byName : after.byName = before.byName)
    (names : ∀ id, id < before.size → after.name id = before.name id) : after.Named where
  found name id := by
    rw [byName, named.found, size]
    exact and_congr_right fun known => by rw [names id known]
  identifier id known := by
    rw [names id (size ▸ known)]
    exact named.identifier id (size ▸ known)

/-- A new structure is found by its name, and the others as before. -/
theorem byName_push (entry : RecordEntry) (name : String) :
    (catalogue.push composite entry).byName.lookup name =
      if name = entry.name then some catalogue.size else catalogue.byName.lookup name := by
  simp only [push, List.lookup_cons, size]
  split <;> simp_all

/-- A new structure under a name that was free. -/
theorem Named.push (named : catalogue.Named) {entry : RecordEntry}
    (identifier : isIdentifier entry.name) (free : catalogue.byName.lookup entry.name = none) :
    (catalogue.push composite entry).Named := by
  have old : ∀ id, id < catalogue.size →
      (catalogue.push composite entry).name id = catalogue.name id := fun id known =>
    congrArg RecordEntry.name (entry_push_of_lt known)
  have new : (catalogue.push composite entry).name catalogue.size = entry.name :=
    congrArg RecordEntry.name entry_push_size
  constructor
  · intro name id
    rw [byName_push, size_push, Nat.lt_succ_iff_lt_or_eq]
    by_cases same : name = entry.name
    · rw [if_pos same, same]
      constructor
      · rintro ⟨⟩
        exact ⟨Or.inr rfl, new⟩
      · rintro ⟨known | rfl, itsName⟩
        · rw [old id known] at itsName
          have taken := (named.found _ _).mpr ⟨known, itsName⟩
          rw [free] at taken
          cases taken
        · rfl
    · rw [if_neg same, named.found]
      constructor
      · rintro ⟨known, itsName⟩
        exact ⟨Or.inl known, (old id known).trans itsName⟩
      · rintro ⟨known | rfl, itsName⟩
        · exact ⟨known, (old id known).symm.trans itsName⟩
        · exact absurd (itsName.symm.trans new) same
  · intro id known
    rw [size_push, Nat.lt_succ_iff_lt_or_eq] at known
    rcases known with known | rfl
    · rw [old id known]
      exact named.identifier id known
    · rw [new]
      exact identifier

/-- Of the names that were not taken out of an index, each leads where it led. -/
theorem lookup_filter_names (kept : String → Bool) (name : String) (names : List (String × Nat)) :
    (names.filter fun entry => kept entry.1).lookup name =
      if kept name then names.lookup name else none := by
  induction names with
  | nil => simp
  | cons entry rest ih =>
      obtain ⟨other, target⟩ := entry
      by_cases here : name = other
      · subst here
        cases keeps : kept name with
        | true => simp [keeps]
        | false => simpa [keeps] using ih
      · have different : (name == other) = false := by simpa using here
        rw [List.filter_cons]
        split
        · rw [List.lookup_cons, List.lookup_cons, different, ih]
        · rw [List.lookup_cons, different, ih]

/-- A name that is moved leads to the structure, and the old one to nothing. -/
theorem lookup_reindexName (old new : String) (name : String) :
    (catalogue.reindexName old new id).lookup name =
      if name = new then some id
      else if name = old then none else catalogue.byName.lookup name := by
  rw [reindexName, List.lookup_cons,
    lookup_filter_names (fun entry => entry != old && entry != new)]
  by_cases isNew : name = new
  · simp [isNew]
  · have other : (name == new) = false := by simpa using isNew
    rw [if_neg isNew, other]
    by_cases isOld : name = old
    · simp [isOld]
    · simp [isOld, isNew]

/-- A structure under another name that was free, or its own. -/
theorem Named.renamed (named : catalogue.Named) (known : id < catalogue.size)
    (renamable : catalogue.Renamable id name) : (catalogue.renamed id name).Named := by
  have new : (catalogue.renamed id name).name id = name := name_renamed known
  have others : ∀ other, other < catalogue.size → other ≠ id →
      (catalogue.renamed id name).name other = catalogue.name other := by
    intro other present different
    have same : (catalogue.renamed id name).entry other = catalogue.entry other :=
      (entry_modifyEntry present).trans (if_neg (Ne.symm different))
    exact congrArg RecordEntry.name same
  have size : (catalogue.renamed id name).size = catalogue.size := size_modifyEntry
  constructor
  · intro sought target
    rw [size]
    change (catalogue.reindexName (catalogue.name id) name id).lookup sought = some target ↔ _
    rw [lookup_reindexName]
    by_cases isNew : sought = name
    · rw [if_pos isNew, isNew]
      constructor
      · rintro ⟨⟩
        exact ⟨known, new⟩
      · rintro ⟨present, itsName⟩
        by_cases same : target = id
        · rw [same]
        · rw [others target present same] at itsName
          exact absurd (renamable.free target ((named.found _ _).mpr ⟨present, itsName⟩)) same
    · rw [if_neg isNew]
      by_cases isOld : sought = catalogue.name id
      · rw [if_pos isOld, isOld]
        refine ⟨nofun, ?_⟩
        rintro ⟨present, itsName⟩
        by_cases same : target = id
        · rw [same, new] at itsName
          exact absurd itsName.symm renamable.different
        · rw [others target present same] at itsName
          exact absurd (named.eq_of_name_eq present known itsName) same
      · rw [if_neg isOld, named.found]
        refine and_congr_right fun present => ?_
        by_cases same : target = id
        · subst same
          rw [new]
          exact ⟨fun itsName => absurd itsName.symm isOld, fun itsName => absurd itsName.symm isNew⟩
        · rw [others target present same]
  · intro other present
    rw [size] at present
    by_cases same : other = id
    · rw [same, new]
      exact renamable.identifier
    · rw [others other present same]
      exact named.identifier other present

/-- A change keeps names and index in step. -/
theorem Changes.named {start last : EntryLog × Catalogue} (changes : Changes start last)
    (named : start.2.Named) : last.2.Named := by
  cases changes with
  | entered enters =>
      cases enters with
      | merged => exact named.carried rfl rfl fun _ _ => rfl
      | added _ _ _ free _ => exact named.push (isIdentifier_canonicalName _) free
  | renamed known renamable => exact named.renamed known renamable
  | marked => exact named.carried size_modifyEntry rfl fun _ _ => name_markEmitted _ _ _

/-- Any number of changes keep names and index in step. -/
theorem ChangesAll.named {start last : EntryLog × Catalogue} (changes : ChangesAll start last)
    (named : start.2.Named) : last.2.Named := by
  induction changes with
  | refl => exact named
  | tail _ change ih => exact change.named ih

/-- Calls lead to no catalogue whose names and index are out of step. -/
theorem Reached.named {log : EntryLog} (reached : Reached log catalogue) : catalogue.Named :=
  reached.changes.named named_empty

/-- However a catalogue came about, its indexes and its structures say the same: names and keys lead
to the structures that have them and nowhere else, so that no two structures share a name, every
name is an identifier, and whatever is referred to is there, before what refers to it. A further
request, answered or not, takes nothing back. -/
theorem indexes_match_structures {log : EntryLog} {catalogue : Catalogue}
    (reached : Reached log catalogue) :
    (∀ name id, catalogue.byName.lookup name = some id ↔
      id < catalogue.size ∧ catalogue.name id = name) ∧
    (∀ id id', id < catalogue.size → id' < catalogue.size →
      catalogue.name id = catalogue.name id' → id = id') ∧
    (∀ id, id < catalogue.size → isIdentifier (catalogue.name id)) ∧
    (∀ key id, catalogue.byKey.lookup key = some id ↔
      id < catalogue.size ∧ catalogue.key id = key) ∧
    (∀ composite id, catalogue.lookup composite = some id → id < catalogue.size) ∧
    (∀ id, id < catalogue.size → ∀ child ∈ catalogue.children id, child < id) ∧
    ∀ after, catalogue.Request after → catalogue.Extends after := by
  have named := reached.named
  have sound := reached.sound
  have indexed := reached.indexed
  refine ⟨named.found, fun _ _ => named.eq_of_name_eq, named.identifier, sound.keyed,
    indexed.byType, ?_, ?_⟩
  · intro id known child member
    obtain ⟨field, inside, refers⟩ := List.mem_filterMap.mp member
    exact (sound.entry id known).children field inside child refers
  · intro after request
    exact (request.later indexed).extension

/-- A catalogue into which a record was entered under a name of its own. -/
def enteredAs (composite : Composite) (name : String) (catalogue : Catalogue) : Catalogue :=
  ((rename Scripted.Script.words.machine composite name).run (catalogue, floatSession)).2.1

/-- A request for a composite that is then renamed leads from one history to another. -/
theorem Reached.enteredAs {log : EntryLog} (reached : Reached log catalogue) (composite : Composite)
    (name : String) (built : composite.isBuilt) :
    ∃ log, Reached log (Catalogue.enteredAs composite name catalogue) :=
  ⟨_, reached.rename Scripted.Script.words.machine composite name floatSession built⟩

/-- A catalogue with one record under a name of its own. -/
def renamedOnce : Catalogue := enteredAs (floatRecord (.native "float")) "point" .empty

/-- The catalogue in which that record got another name. -/
def renamedTwice : Catalogue := ((renameId 0 "spot").run renamedOnce).2

/-- The name that a structure had before leads nowhere. -/
theorem indexes_match_structures_renamedTwice : (∃ log, Reached log renamedTwice) ∧
    renamedTwice.byName.lookup "spot" = some 0 ∧
    ∀ id, renamedTwice.byName.lookup "point" ≠ some id := by
  have facts : 0 < renamedOnce.size ∧ renamedTwice.size = 1 ∧ renamedTwice.name 0 = "spot" := by
    decide +kernel
  obtain ⟨present, size, itsName⟩ := facts
  obtain ⟨log, first⟩ : ∃ log, Reached log renamedOnce :=
    Reached.start.enteredAs (floatRecord (.native "float")) "point" rfl
  have reached : Reached log renamedTwice := first.renameId 0 "spot" present
  have index := (indexes_match_structures reached).1
  have found : renamedTwice.byName.lookup "spot" = some 0 :=
    (index "spot" 0).mpr ⟨size ▸ Nat.one_pos, itsName⟩
  refine ⟨⟨log, reached⟩, found, fun id foundOther => ?_⟩
  obtain ⟨small, otherName⟩ := (index "point" id).mp foundOther
  have only : id = 0 := by omega
  rw [only, itsName] at otherName
  exact absurd otherName (by decide)

end Catalogue

end TypeBridge
