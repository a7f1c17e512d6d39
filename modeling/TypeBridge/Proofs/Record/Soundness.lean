import TypeBridge.Proofs.Record.Requests

/-!
# Sound catalogues

In a sound catalogue each structure has a field, refers to earlier structures only, and has the key
and the layout that its fields call for; the index of keys leads to each structure from its key and
from no other. `Reached.sound` says that calls lead to no other catalogues.
-/

namespace TypeBridge

/-- Every field of a composite that was put together has an element. -/
theorem Composite.count_pos {fields : List Field} (built : Composite.fieldsBuilt fields)
    {field : Field} (member : field ∈ fields) : 0 < field.count := by
  induction fields with
  | nil => cases member
  | cons first rest ih =>
      obtain ⟨name, type, count⟩ := first
      simp only [Composite.fieldsBuilt, Bool.and_eq_true, decide_eq_true_eq] at built
      rcases List.mem_cons.mp member with rfl | later
      · exact built.1.1
      · exact ih built.2 later

namespace Catalogue

variable {catalogue before after : Catalogue} {composite : Composite} {id : Nat}

/-- An entry that fits in at a number: what it refers to stands before it, and key and layout are
those of its fields. -/
structure SoundEntry (catalogue : Catalogue) (id : Nat) (entry : RecordEntry) : Prop where
  filled : entry.fields ≠ []
  packing : entry.packing.isValid
  identifiers : ∀ field ∈ entry.fields, isIdentifier field.name
  counts : ∀ field ∈ entry.fields, 0 < field.count
  children : ∀ field ∈ entry.fields, ∀ child, field.child? = some child → child < id
  key : entry.key = keyOf (entry.fields.map catalogue.pieceOf) entry.packing
  layout : entry.layout = Wrapped.computeLayout (entry.fields.map catalogue.memberLayout) entry.packing

/-- Every structure fits in at its number, and is found by its key. -/
structure Sound (catalogue : Catalogue) : Prop where
  entry : ∀ id, id < catalogue.size → catalogue.SoundEntry id (catalogue.entry id)
  keyed : ∀ key id, catalogue.byKey.lookup key = some id ↔
    id < catalogue.size ∧ catalogue.key id = key

/-- A catalogue without structures is sound. -/
theorem sound_empty : empty.Sound where
  entry _ known := absurd known (Nat.not_lt_zero _)
  keyed _ _ := ⟨nofun, fun known => absurd known.1 (Nat.not_lt_zero _)⟩

/-- An entry fits in later as it did before. -/
theorem SoundEntry.continues {entry later : RecordEntry} (extension : before.Extends after)
    (known : id ≤ before.size) (continued : entry.Continues later)
    (sound : before.SoundEntry id entry) : after.SoundEntry id later := by
  have knows : ∀ field ∈ entry.fields, before.Knows field := fun field member child refers =>
    Nat.lt_of_lt_of_le (sound.children field member child refers) known
  exact
    { filled := continued.fields ▸ sound.filled
      packing := continued.packing ▸ sound.packing
      identifiers := continued.fields ▸ sound.identifiers
      counts := continued.fields ▸ sound.counts
      children := continued.fields ▸ sound.children
      key := by
        rw [continued.key, continued.fields, continued.packing, sound.key]
        congr 1
        exact (List.map_congr_left fun field member => extension.pieceOf (knows field member)).symm
      layout := by
        rw [continued.layout, continued.fields, continued.packing, sound.layout]
        congr 1
        exact (List.map_congr_left fun field member =>
          extension.memberLayout (knows field member)).symm }

/-- Structures that were there fit in later. -/
theorem Sound.entry_later (sound : before.Sound) (extension : before.Extends after)
    (known : id < before.size) : after.SoundEntry id (after.entry id) :=
  (sound.entry id known).continues extension (Nat.le_of_lt known) (extension.entry id known)

/-- A catalogue stays sound when its structures are carried on and none is added. -/
theorem Sound.carried (sound : before.Sound) (extension : before.Extends after)
    (size : after.size = before.size) (byKey : after.byKey = before.byKey) : after.Sound where
  entry id known := sound.entry_later extension (size ▸ known)
  keyed key id := by
    rw [byKey, sound.keyed, size]
    exact and_congr_right fun known => by rw [extension.key known]

/-- The entry of a composite fits in at the free number. -/
theorem Enterable.soundEntry {fields : List ResolvedField} (indexed : catalogue.Indexed)
    (enterable : catalogue.Enterable composite fields) :
    catalogue.SoundEntry catalogue.size (newEntry composite (fields.map catalogue.pieceOf)) := by
  refine
    { filled := ?_
      packing := enterable.packing
      identifiers := ?_
      counts := ?_
      children := ?_
      key := ?_
      layout := ?_ }
  · rw [fields_newEntry]
    rintro rfl
    exact enterable.filled (List.forall₂_nil_right_iff.mp enterable.resolved)
  · rw [fields_newEntry]
    intro field member
    obtain ⟨source, -, resolves⟩ := exists_of_mem_right enterable.resolved member
    exact resolves.name ▸ resolves.identifier
  · rw [fields_newEntry]
    intro field member
    obtain ⟨source, inside, resolves⟩ := exists_of_mem_right enterable.resolved member
    obtain ⟨declared, packing⟩ := composite
    exact resolves.count ▸ Composite.count_pos enterable.built inside
  · rw [fields_newEntry]
    exact knows_of_resolves indexed enterable.resolved
  · rw [fields_newEntry]
    rfl
  · rw [fields_newEntry]
    simp [newEntry, Function.comp_def, pieceOf]

/-- An entry keeps a catalogue sound. -/
theorem Enters.sound {overflow : Overflow} {bound : Nat} {start last : EntryLog × Catalogue}
    (enters : Enters overflow bound start last) (indexed : start.2.Indexed) (sound : start.2.Sound) :
    last.2.Sound := by
  cases enters with
  | merged => exact sound.carried (extends_addType _ _ _) rfl rfl
  | @added log catalogue composite fields small enterable unknown free laid =>
      have extension := extends_push catalogue composite
        (newEntry composite (fields.map catalogue.pieceOf))
      have newKey : (catalogue.push composite
          (newEntry composite (fields.map catalogue.pieceOf))).key catalogue.size =
            keyOf (fields.map catalogue.pieceOf) composite.packing := by
        rw [Catalogue.key, entry_push_size]
        rfl
      refine ⟨fun id known => ?_, fun key id => ?_⟩
      · rcases Nat.lt_succ_iff_lt_or_eq.mp (size_push ▸ known) with old | rfl
        · exact sound.entry_later extension old
        · rw [entry_push_size]
          exact (enterable.soundEntry indexed).continues extension (Nat.le_refl _) (.refl _)
      · rw [byKey_push, size_push]
        constructor
        · intro found
          split at found
          · rename_i same
            cases found
            exact ⟨Nat.lt_succ_self _, newKey.trans same.symm⟩
          · obtain ⟨old, itsKey⟩ := (sound.keyed key id).mp found
            exact ⟨Nat.lt_succ_of_lt old, (extension.key old).trans itsKey⟩
        · rintro ⟨known, rfl⟩
          rcases Nat.lt_succ_iff_lt_or_eq.mp known with old | rfl
          · have found := (sound.keyed _ id).mpr ⟨old, rfl⟩
            rw [extension.key old, if_neg, found]
            intro same
            rw [same] at found
            exact absurd (found.symm.trans unknown) nofun
          · rw [newKey]
            exact if_pos rfl

/-- A change keeps a catalogue sound. -/
theorem Changes.sound {start last : EntryLog × Catalogue} (changes : Changes start last)
    (indexed : start.2.Indexed) (sound : start.2.Sound) : last.2.Sound := by
  cases changes with
  | entered enters => exact enters.sound indexed sound
  | renamed => exact sound.carried (extends_renamed _ _ _) size_modifyEntry rfl
  | marked => exact sound.carried (extends_markEmitted _ _) size_modifyEntry rfl

/-- Any number of changes keep a catalogue sound. -/
theorem ChangesAll.sound {start last : EntryLog × Catalogue} (changes : ChangesAll start last)
    (indexed : start.2.Indexed) (sound : start.2.Sound) : last.2.Sound := by
  induction changes with
  | refl => exact sound
  | tail before change ih => exact change.sound (ChangesAll.indexed before indexed) ih

/-- Calls lead to sound catalogues only. -/
theorem Reached.sound {log : EntryLog} (reached : Reached log catalogue) : catalogue.Sound :=
  reached.changes.sound indexed_empty sound_empty

/-- In a sound catalogue every structure refers to earlier ones only. -/
theorem Sound.descends (sound : catalogue.Sound) : catalogue.Descends := by
  intro id known child member
  obtain ⟨field, inside, refers⟩ := List.mem_filterMap.mp member
  exact (sound.entry id known).children field inside child refers

/-- No two structures have the same key. -/
theorem Sound.eq_of_key_eq (sound : catalogue.Sound) {other : Nat} (known : id < catalogue.size)
    (known' : other < catalogue.size) (same : catalogue.key id = catalogue.key other) :
    id = other := by
  have found := (sound.keyed _ id).mpr ⟨known, rfl⟩
  have found' := (sound.keyed _ other).mpr ⟨known', rfl⟩
  rw [same, found'] at found
  exact (Option.some.inj found).symm

end Catalogue

end TypeBridge
