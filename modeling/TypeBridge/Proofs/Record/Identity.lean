import TypeBridge.Proofs.Record.KeyReading
import TypeBridge.Proofs.Record.Soundness

/-!
# Structures and their trees

`Catalogue.tree` reads the tree of a structure back from the catalogue, `EntryLog.tree` puts the tree
of a composite together from its declaration and what its scalars were resolved to when it was
entered. The two agree, so two composites are one structure exactly if their trees are equal; this
rests on `RecordTree.key_injective`, since a catalogue compares keys and not trees.
-/

namespace TypeBridge

/-- The native name of a scalar; nothing for structures. -/
def ResolvedType.nativeName : ResolvedType → String
  | .scalar named _ => named.native.text
  | .record _ => ""
  | .pointer _ => ""

namespace Catalogue

variable {catalogue before after : Catalogue} {composite : Composite} {id : Nat}

/-! ## Trees read back -/

/-- What a field holds, with given trees for structures. -/
def memberTree (treeOf : Nat → RecordTree) : ResolvedType → MemberTree
  | .scalar scalar _ => .scalar scalar.native.text
  | .record id => .record (treeOf id)
  | .pointer id => .pointer (treeOf id)

/-- A field, with given trees for structures. -/
def fieldTree (treeOf : Nat → RecordTree) (field : ResolvedField) : FieldTree :=
  .mk field.name (memberTree treeOf field.type) field.count

/-- The tree of a structure. A structure refers only to ones entered before it. -/
def tree (catalogue : Catalogue) (id : Nat) : RecordTree :=
  .mk ((catalogue.entry id).fields.map
      (fieldTree fun child => if child < id then catalogue.tree child else default))
    (catalogue.entry id).packing
termination_by id

/-- Fields have the same trees whenever the structures that they refer to have. -/
theorem fieldTree_congr {treeOf treeOf' : Nat → RecordTree} {fields : List ResolvedField}
    (same : ∀ field ∈ fields, ∀ child, field.child? = some child → treeOf child = treeOf' child) :
    fields.map (fieldTree treeOf) = fields.map (fieldTree treeOf') := by
  refine List.map_congr_left fun field member => ?_
  have sameChild := same field member
  obtain ⟨name, type, count⟩ := field
  cases type with
  | scalar => rfl
  | record child => simp only [fieldTree, memberTree, sameChild child rfl]
  | pointer child => simp only [fieldTree, memberTree, sameChild child rfl]

/-- A structure keeps its tree. -/
theorem Extends.tree (extension : before.Extends after) (known : id < before.size) :
    after.tree id = before.tree id := by
  induction id using Nat.strongRecOn with
  | ind id ih =>
      rw [Catalogue.tree, Catalogue.tree, (extension.entry id known).fields,
        (extension.entry id known).packing]
      congr 1
      refine fieldTree_congr fun _ _ child _ => ?_
      split
      · rename_i smaller
        exact ih child smaller (Nat.lt_trans smaller known)
      · rfl

/-- In a sound catalogue the tree of a structure holds those of the structures it refers to. -/
theorem Sound.tree_eq (sound : catalogue.Sound) (known : id < catalogue.size) :
    catalogue.tree id = .mk ((catalogue.entry id).fields.map (fieldTree catalogue.tree))
      (catalogue.entry id).packing := by
  rw [Catalogue.tree]
  congr 1
  exact fieldTree_congr fun field member child refers =>
    if_pos ((sound.entry id known).children field member child refers)

/-- Fields are written with the keys of the structures that they refer to. -/
theorem fieldsKey_eq {treeOf : Nat → RecordTree} {fields : List ResolvedField}
    (keys : ∀ field ∈ fields, ∀ child, field.child? = some child →
      (treeOf child).key = catalogue.key child) :
    RecordTree.fieldsKey (fields.map (fieldTree treeOf)) =
      String.join ((fields.map catalogue.pieceOf).map (·.key)) := by
  induction fields with
  | nil => rfl
  | cons field rest ih =>
      have keysRest := ih fun other member => keys other (List.mem_cons_of_mem _ member)
      have keysField := keys field List.mem_cons_self
      obtain ⟨name, type, count⟩ := field
      rw [List.map_cons, List.map_cons, List.map_cons, String.join_cons, ← keysRest, fieldTree,
        RecordTree.fieldsKey]
      congr 2
      cases type with
      | scalar => rfl
      | record child => simp only [memberTree, RecordTree.memberKey, keyPart, keysField child rfl]
      | pointer child => simp only [memberTree, RecordTree.memberKey, keyPart, keysField child rfl]

/-- The key of a structure is its tree, written as a text. -/
theorem Sound.key_tree (sound : catalogue.Sound) (known : id < catalogue.size) :
    (catalogue.tree id).key = catalogue.key id := by
  induction id using Nat.strongRecOn with
  | ind id ih =>
      have entry := sound.entry id known
      rw [sound.tree_eq known, RecordTree.key, Catalogue.key, entry.key, keyOf]
      congr 1
      exact fieldsKey_eq fun field member child refers =>
        have smaller := entry.children field member child refers
        ih child smaller (Nat.lt_trans smaller known)

/-! ## Trees that can be written -/

/-- No native name holds the character that ends the parts of a key. -/
def CleanNames (fields : List ResolvedField) : Prop :=
  ∀ field ∈ fields, Char.ofNat 0 ∉ field.type.nativeName.toList

/-- Fields can be written when their names and all behind them can. -/
theorem fieldsReadable {treeOf : Nat → RecordTree} {fields : List ResolvedField}
    (identifiers : ∀ field ∈ fields, isIdentifier field.name) (clean : CleanNames fields)
    (children : ∀ field ∈ fields, ∀ child, field.child? = some child →
      (treeOf child).Readable) :
    RecordTree.FieldsReadable (fields.map (fieldTree treeOf)) := by
  induction fields with
  | nil => trivial
  | cons field rest ih =>
      have readableRest := ih (fun other member => identifiers other (List.mem_cons_of_mem _ member))
        (fun other member => clean other (List.mem_cons_of_mem _ member))
        (fun other member => children other (List.mem_cons_of_mem _ member))
      have identifier := identifiers field List.mem_cons_self
      have cleanField := clean field List.mem_cons_self
      have readableChild := children field List.mem_cons_self
      obtain ⟨name, type, count⟩ := field
      refine ⟨identifier, ?_, readableRest⟩
      cases type with
      | scalar => exact cleanField
      | record child => exact readableChild child rfl
      | pointer child => exact readableChild child rfl

/-- Structures whose scalars have clean names can be written. -/
theorem Sound.readable_tree (sound : catalogue.Sound)
    (clean : ∀ id, id < catalogue.size → CleanNames (catalogue.entry id).fields)
    (known : id < catalogue.size) : (catalogue.tree id).Readable := by
  induction id using Nat.strongRecOn with
  | ind id ih =>
      have entry := sound.entry id known
      rw [sound.tree_eq known]
      refine ⟨fun none => entry.filled (List.map_eq_nil_iff.mp none), ?_⟩
      exact fieldsReadable entry.identifiers (clean id known) fun field member child refers =>
        have smaller := entry.children field member child refers
        ih child smaller (Nat.lt_trans smaller known)

end Catalogue

/-! ## Trees of what was entered -/

namespace EntryLog

/-- What a field of a composite holds: its scalar as it was resolved, its composite as a tree. -/
def memberTree (treeOf : Composite → RecordTree) : MemberType → ResolvedType → MemberTree
  | .scalar _, resolved => .scalar resolved.nativeName
  | .composite child, _ => .record (treeOf child)
  | .pointer child, _ => .pointer (treeOf child)

/-- The tree of a composite that was entered. What is in it was entered before. -/
def tree : EntryLog → Composite → RecordTree
  | [], _ => default
  | (entered, resolved) :: earlier, composite =>
    if composite = entered then
      .mk ((composite.fields.zip resolved).map fun (declared, resolved) =>
          .mk declared.name (memberTree (tree earlier) declared.type resolved.type) declared.count)
        composite.packing
    else tree earlier composite

/-- No native name in a log holds the character that ends the parts of a key. -/
def Clean (log : EntryLog) : Prop :=
  ∀ entered ∈ log, Catalogue.CleanNames entered.2

end EntryLog

namespace Catalogue

variable {catalogue before after : Catalogue} {composite : Composite} {id : Nat} {log : EntryLog}

/-- A catalogue and the log of what was entered into it say the same. -/
structure Faithful (log : EntryLog) (catalogue : Catalogue) : Prop where
  logged : ∀ id, id < catalogue.size → ∃ composite, (composite, (catalogue.entry id).fields) ∈ log
  meaning : ∀ composite id, catalogue.lookup composite = some id →
    catalogue.tree id = log.tree composite

/-- Nothing is logged of a catalogue without structures. -/
theorem faithful_empty : Faithful [] empty where
  logged _ known := absurd known (Nat.not_lt_zero _)
  meaning _ _ := nofun

/-- Structures are as clean as the log. -/
theorem Faithful.clean (faithful : Faithful log catalogue) (clean : log.Clean)
    (known : id < catalogue.size) : CleanNames (catalogue.entry id).fields := by
  obtain ⟨composite, member⟩ := faithful.logged id known
  exact clean _ member

/-- The tree of a composite that is entered with resolved fields is read off these. -/
theorem Enterable.tree_log {fields : List ResolvedField}
    (enterable : catalogue.Enterable composite fields)
    (meaning : ∀ composite id, catalogue.lookup composite = some id →
      catalogue.tree id = log.tree composite) :
    EntryLog.tree ((composite, fields) :: log) composite =
      .mk (fields.map (fieldTree catalogue.tree)) composite.packing := by
  rw [EntryLog.tree, if_pos rfl]
  congr 1
  have resolved := enterable.resolved
  generalize composite.fields = declaredFields at resolved
  clear enterable
  induction resolved with
  | nil => rfl
  | @cons declared field declaredRest rest resolves _ ih =>
      rw [List.zip_cons_cons, List.map_cons, List.map_cons, ih]
      congr 1
      obtain ⟨name, count, -, type⟩ := resolves
      simp only [fieldTree, name, count]
      congr 1
      generalize declared.type = declaredType at type
      generalize field.type = resolvedType at type
      cases type with
      | scalar => rfl
      | record known => simp only [EntryLog.memberTree, memberTree, meaning _ _ known]
      | pointer known => simp only [EntryLog.memberTree, memberTree, meaning _ _ known]

/-- The tree that a composite gets from its resolved fields has the key that it is entered with. -/
theorem Enterable.key_tree {fields : List ResolvedField} (indexed : catalogue.Indexed)
    (sound : catalogue.Sound) (enterable : catalogue.Enterable composite fields) :
    (RecordTree.mk (fields.map (fieldTree catalogue.tree)) composite.packing).key =
      keyOf (fields.map catalogue.pieceOf) composite.packing := by
  rw [RecordTree.key, keyOf]
  congr 1
  exact fieldsKey_eq fun field member child refers =>
    sound.key_tree (knows_of_resolves indexed enterable.resolved field member child refers)

/-- The tree that a composite gets from its resolved fields can be written if these are clean. -/
theorem Enterable.readable_tree {fields : List ResolvedField} (indexed : catalogue.Indexed)
    (sound : catalogue.Sound) (enterable : catalogue.Enterable composite fields)
    (cleanFields : CleanNames fields)
    (clean : ∀ id, id < catalogue.size → CleanNames (catalogue.entry id).fields) :
    (RecordTree.mk (fields.map (fieldTree catalogue.tree)) composite.packing).Readable := by
  have fits := enterable.soundEntry indexed
  refine ⟨fun none => fits.filled (by rw [fields_newEntry]; exact List.map_eq_nil_iff.mp none), ?_⟩
  have identifiers := fits.identifiers
  have children := fits.children
  rw [fields_newEntry] at identifiers children
  exact fieldsReadable identifiers cleanFields fun field member child refers =>
    sound.readable_tree clean (children field member child refers)

/-- What is known of other composites is left alone by an entry. -/
theorem Faithful.meaning_cons {fields : List ResolvedField} {later : Catalogue} {other : Composite}
    {target : Nat} (faithful : Faithful log catalogue) (indexed : catalogue.Indexed)
    (extension : catalogue.Extends later) (different : other ≠ composite)
    (found : catalogue.lookup other = some target) :
    later.tree target = EntryLog.tree ((composite, fields) :: log) other := by
  rw [EntryLog.tree, if_neg different, extension.tree (indexed.byType other target found)]
  exact faithful.meaning other target found

/-- An entry of a clean composite keeps catalogue and log in step. -/
theorem Enters.faithful {overflow : Overflow} {bound : Nat} {start last : EntryLog × Catalogue}
    (enters : Enters overflow bound start last) (indexed : start.2.Indexed) (sound : start.2.Sound)
    (clean : last.1.Clean) (faithful : Faithful start.1 start.2) : Faithful last.1 last.2 := by
  have soundLater := enters.sound indexed sound
  cases enters with
  | @merged log catalogue composite fields id small enterable known =>
      have extension := extends_addType catalogue composite id
      refine ⟨fun other present => ?_, fun other target found => ?_⟩
      · obtain ⟨origin, member⟩ := faithful.logged other present
        exact ⟨origin, List.mem_cons_of_mem _ member⟩
      rw [lookup_addType] at found
      split at found
      · rename_i same
        cases found
        subst same
        have cleanOld : ∀ id, id < catalogue.size → CleanNames (catalogue.entry id).fields :=
          fun id present => faithful.clean (fun _ member => clean _ (List.mem_cons_of_mem _ member))
            present
        obtain ⟨present, itsKey⟩ := (sound.keyed _ id).mp known
        -- Both trees are written as the same key, so they are the same.
        rw [extension.tree present, enterable.tree_log faithful.meaning]
        refine RecordTree.key_injective (sound.readable_tree cleanOld present)
          (enterable.readable_tree indexed sound (clean _ List.mem_cons_self) cleanOld) ?_
        rw [sound.key_tree present, itsKey, enterable.key_tree indexed sound]
      · rename_i different
        exact faithful.meaning_cons indexed extension different found
  | @added log catalogue composite fields small enterable unknown free laid =>
      have extension := extends_push catalogue composite
        (newEntry composite (fields.map catalogue.pieceOf))
      refine ⟨fun other present => ?_, fun other target found => ?_⟩
      · rcases Nat.lt_succ_iff_lt_or_eq.mp (size_push ▸ present) with old | rfl
        · obtain ⟨origin, member⟩ := faithful.logged other old
          rw [entry_push_of_lt old]
          exact ⟨origin, List.mem_cons_of_mem _ member⟩
        · rw [entry_push_size, fields_newEntry]
          exact ⟨composite, List.mem_cons_self⟩
      rw [lookup_push] at found
      split at found
      · rename_i same
        cases found
        subst same
        rw [enterable.tree_log faithful.meaning,
          soundLater.tree_eq (Nat.lt_of_lt_of_eq (Nat.lt_succ_self _) size_push.symm),
          entry_push_size, fields_newEntry]
        congr 1
        exact fieldTree_congr fun field member child refers =>
          extension.tree (knows_of_resolves indexed enterable.resolved field member child refers)
      · rename_i different
        exact faithful.meaning_cons indexed extension different found

/-- Catalogue and log stay in step when structures are carried on and nothing is entered. -/
theorem Faithful.carried (faithful : Faithful log before) (indexed : before.Indexed)
    (extension : before.Extends after) (size : after.size = before.size)
    (byType : after.byType = before.byType) : Faithful log after where
  logged id known := by
    rw [(extension.entry id (size ▸ known)).fields]
    exact faithful.logged id (size ▸ known)
  meaning composite id found := by
    rw [lookup, byType] at found
    rw [extension.tree (indexed.byType composite id found)]
    exact faithful.meaning composite id found

/-- A log only grows. -/
theorem Changes.clean {start last : EntryLog × Catalogue} (changes : Changes start last)
    (clean : last.1.Clean) : start.1.Clean := by
  cases changes with
  | entered enters =>
      cases enters <;> exact fun entered member => clean entered (List.mem_cons_of_mem _ member)
  | renamed => exact clean
  | marked => exact clean

/-- A change keeps catalogue and log in step, as long as what is entered is clean. -/
theorem Changes.faithful {start last : EntryLog × Catalogue} (changes : Changes start last)
    (indexed : start.2.Indexed) (sound : start.2.Sound) (clean : last.1.Clean)
    (faithful : Faithful start.1 start.2) : Faithful last.1 last.2 := by
  cases changes with
  | entered enters => exact enters.faithful indexed sound clean faithful
  | renamed => exact faithful.carried indexed (extends_renamed _ _ _) size_modifyEntry rfl
  | marked => exact faithful.carried indexed (extends_markEmitted _ _) size_modifyEntry rfl

/-- Changes that logged clean trees leave a faithful catalogue. -/
theorem ChangesAll.faithful {last : EntryLog × Catalogue}
    (changes : ChangesAll ([], .empty) last) (clean : last.1.Clean) :
    Faithful last.1 last.2 := by
  induction changes with
  | refl => exact faithful_empty
  | tail before change ih =>
      exact change.faithful (ChangesAll.indexed before indexed_empty)
        (ChangesAll.sound before indexed_empty sound_empty) clean (ih (change.clean clean))

/-- A catalogue that calls lead to is in step with what they entered. -/
theorem Reached.faithful (reached : Reached log catalogue) (clean : log.Clean) :
    Faithful log catalogue := reached.changes.faithful clean

/-- Two structures with the same tree are one. -/
theorem Sound.eq_of_tree_eq (sound : catalogue.Sound) {other : Nat} (known : id < catalogue.size)
    (known' : other < catalogue.size) (same : catalogue.tree id = catalogue.tree other) :
    id = other :=
  sound.eq_of_key_eq known known' (by rw [← sound.key_tree known, same, sound.key_tree known'])

/-- Structural identity is exact. However a catalogue came about, composites are the same structure
exactly if their trees are equal, structures exactly if the trees read back from the catalogue are;
and a key is that of one tree only. A request that is answered has made its composite known. -/
theorem identity_iff_tree {log : EntryLog} {catalogue : Catalogue}
    (reached : Reached log catalogue) (clean : log.Clean) :
    (∀ composite composite' id id', catalogue.lookup composite = some id →
      catalogue.lookup composite' = some id' →
        (id = id' ↔ log.tree composite = log.tree composite')) ∧
    (∀ id id', id < catalogue.size → id' < catalogue.size →
      (id = id' ↔ catalogue.tree id = catalogue.tree id')) ∧
    (∀ composite id, catalogue.lookup composite = some id →
      id < catalogue.size ∧ catalogue.tree id = log.tree composite) ∧
    (∀ id, id < catalogue.size → ∀ tree : RecordTree, tree.Readable →
      (tree.key = catalogue.key id ↔ tree = catalogue.tree id)) ∧
    ∀ machine (composite : Composite) rest id after, composite.isBuilt →
      (create machine composite).run (catalogue, rest) = (.ok id, after) →
        after.1.lookup composite = some id := by
  have sound := reached.sound
  have indexed := reached.indexed
  have faithful := reached.faithful clean
  have byTree : ∀ id id', id < catalogue.size → id' < catalogue.size →
      (id = id' ↔ catalogue.tree id = catalogue.tree id') := fun id id' known known' =>
    ⟨fun same => by rw [same], fun same => sound.eq_of_tree_eq known known' same⟩
  refine ⟨?_, byTree, ?_, ?_, ?_⟩
  · intro composite composite' id id' found found'
    rw [byTree id id' (indexed.byType _ _ found) (indexed.byType _ _ found'),
      faithful.meaning _ _ found, faithful.meaning _ _ found']
  · exact fun composite id found =>
      ⟨indexed.byType _ _ found, faithful.meaning composite id found⟩
  · intro id known tree readable
    have written := sound.key_tree known
    constructor
    · intro same
      exact RecordTree.key_injective readable
        (sound.readable_tree (fun _ present => faithful.clean clean present) known)
        (same.trans written.symm)
    · rintro rfl
      exact written
  · intro machine composite rest id after built ran
    exact ((create_ensures machine log rest built indexed).of_ok ran).2

/-- The log and the catalogue behind one more request, in a session that knows floats. -/
def withEntered (state : EntryLog × Catalogue) (composite : Composite) : EntryLog × Catalogue :=
  (logAfter Scripted.Script.words.machine composite state.1 state.2 floatSession,
    ((create Scripted.Script.words.machine composite).run (state.2, floatSession)).2.1)

-- Stated for all composites: a given request would be run to compare the catalogue with its name.
/-- One more request leads to a catalogue that calls lead to. -/
theorem reached_withEntered {state : EntryLog × Catalogue} (reached : Reached state.1 state.2)
    (composite : Composite) (built : composite.isBuilt) :
    Reached (withEntered state composite).1 (withEntered state composite).2 :=
  reached.create _ composite _ built

/-- The catalogue into which a record was entered under two spellings, and its log. -/
def twoSpellings : EntryLog × Catalogue :=
  let machine := Scripted.Script.words.machine
  let enter (state : EntryLog × Catalogue) (composite : Composite) : EntryLog × Catalogue :=
    (logAfter machine composite state.1 state.2 floatSession,
      ((create machine composite).run (state.2, floatSession)).2.1)
  enter (enter ([], .empty) (floatRecord (.native "float"))) (floatRecord (.ffi "c_float"))

instance (fields : List ResolvedField) : Decidable (CleanNames fields) :=
  inferInstanceAs (Decidable (∀ field ∈ fields, _))

instance (log : EntryLog) : Decidable log.Clean :=
  inferInstanceAs (Decidable (∀ entered ∈ log, _))

/-- Two spellings of one record have one tree and one number. -/
theorem identity_iff_tree_twoSpellings : twoSpellings.1.Clean ∧
    twoSpellings.1.tree (floatRecord (.native "float")) =
      twoSpellings.1.tree (floatRecord (.ffi "c_float")) := by
  have reached : Reached twoSpellings.1 twoSpellings.2 :=
    have first : Reached (withEntered ([], .empty) (floatRecord (.native "float"))).1
        (withEntered ([], .empty) (floatRecord (.native "float"))).2 :=
      reached_withEntered .start _ rfl
    reached_withEntered first (floatRecord (.ffi "c_float")) rfl
  have known : twoSpellings.1.Clean ∧
      twoSpellings.2.lookup (floatRecord (.native "float")) = some 0 ∧
      twoSpellings.2.lookup (floatRecord (.ffi "c_float")) = some 0 := by
    decide +kernel
  obtain ⟨clean, first, second⟩ := known
  exact ⟨clean, ((identity_iff_tree reached clean).1 _ _ 0 0 first second).mp rfl⟩

end Catalogue

end TypeBridge
