import TypeBridge.Proofs.Record.History
import TypeBridge.Proofs.Record.Identity
import TypeBridge.Proofs.Record.Placement

/-!
# Catalogues filled under one registry

Two catalogues go on from a third one, and whatever they have beyond it was entered while the
registry was the same (`EnteredUnder`). A composite has one key in both: the key is worked out from
its fields anew, and only names that the registry gives stand in it (`keys_agree`). Structures with
the same tree have the same fields but for the names of scalars in the array library
(`sameFields`), so that they have the same layout and are both passed by value or both not.
-/

namespace TypeBridge

section Results

variable {ε α β : Type}

theorem isOk_map {result : Except ε α} {change : α → β} :
    (result.map change).isOk = result.isOk := by
  cases result <;> rfl

theorem isOk_bind_pure {result : Except ε α} {change : α → β} :
    (result >>= fun answer => pure (change answer)).isOk = result.isOk := by
  cases result <;> rfl

/-- A list of results goes well if each of them does. -/
theorem isOk_mapM {next : α → Except ε β} {items : List α} :
    (items.mapM next).isOk ↔ ∀ item ∈ items, (next item).isOk := by
  induction items with
  | nil => exact ⟨fun _ => nofun, fun _ => rfl⟩
  | cons item rest ih =>
      rw [List.mapM_cons, List.forall_mem_cons, ← ih]
      cases next item with
      | error fault => exact ⟨nofun, fun both => both.1⟩
      | ok answer =>
          cases rest.mapM next with
          | error fault => exact ⟨nofun, fun both => both.2⟩
          | ok answers => exact ⟨fun _ => ⟨rfl, rfl⟩, fun _ => rfl⟩

end Results

/-- What goes together stands in the two lists. -/
theorem forall₂_mem {α β : Type} {relation : α → β → Prop} {items : List α} {items' : List β}
    (all : List.Forall₂ relation items items') :
    List.Forall₂ (fun item item' => item ∈ items ∧ item' ∈ items' ∧ relation item item')
      items items' := by
  have left := (List.forall₂_and_left _ _).mpr ⟨fun _ member => member, all⟩
  have right := (List.forall₂_and_left _ _).mpr ⟨fun _ member => member, left.flip⟩
  exact right.flip.imp fun _ _ holds => ⟨holds.2.1, holds.1, holds.2.2⟩

/-- Lists that are mapped to the same one go together. -/
theorem forall₂_of_map_eq {α β γ : Type} {change : α → γ} {change' : β → γ} {items : List α}
    {items' : List β} (same : items.map change = items'.map change') :
    List.Forall₂ (fun item item' => change item = change' item') items items' := by
  rw [← List.forall₂_eq_eq_eq, List.forall₂_map_left_iff, List.forall₂_map_right_iff] at same
  exact same

/-! ## Scalars named by one registry -/

/-- Two array-library names that stand for each other in a registry: they are one name, or the same
is known of both. -/
def Registry.SameDtype (registry : Registry) (dtype dtype' : String) : Prop :=
  dtype = dtype' ∨ ∃ info, registry.info? ⟨.arrayLib, dtype, false⟩ = some info ∧
    registry.info? ⟨.arrayLib, dtype', false⟩ = some info

namespace Session.Named

variable {registry : Registry} {name name' : TypeName} {scalar scalar' : ResolvedScalar}
  {typeString typeString' : String}

theorem sound (named : Named registry registry name scalar typeString) : registry.Sound := by
  cases named with
  | @answered unsized session after machine bench bench' reached before behind ran =>
      have begins := (Session.resolve_appends machine name).of_run ran
      exact before.eq_of_between (begins.trans behind) ▸ reached.steady.sound

/-- While the registry stays as it is, scalars with the same native name are alike. -/
theorem alike (plain : registry.Plain) (named : Named registry registry name scalar typeString)
    (named' : Named registry registry name' scalar' typeString')
    (same : scalar.native.text = scalar'.native.text) :
    scalar.info = scalar'.info ∧ typeString = typeString' ∧
      registry.SameDtype scalar.arrayLib.text scalar'.arrayLib.text := by
  obtain ⟨names, itsString⟩ := named.names
  obtain ⟨names', itsString'⟩ := named'.names
  obtain ⟨sameInfo, samePointer⟩ := names.alike named.sound plain names' same
  obtain ⟨inside, registered⟩ := named.arrayLib
  obtain ⟨inside', registered'⟩ := named'.arrayLib
  rw [← samePointer, ← sameInfo] at registered'
  have spelled : ∀ {other : TypeName} {info : TypeInfo}, other.system = .arrayLib →
      registry.info? other = some info → registry.info? ⟨.arrayLib, other.text, false⟩ = some info := by
    rintro ⟨system, text, isPointer⟩ info rfl known
    have single : isPointer = false := (plain.of_info? known).1
    rw [single] at known
    exact known
  refine ⟨sameInfo, ?_, .inr ⟨_, spelled inside registered, spelled inside' registered'⟩⟩
  rw [itsString, itsString', Registry.typeString, Registry.typeString, registered, registered',
    ResolvedScalar.size, ResolvedScalar.size, sameInfo]

end Session.Named

namespace Catalogue

variable {registry : Registry} {origin catalogue catalogue' : Catalogue} {composite : Composite}
  {id id' : Nat}

/-! ## Catalogues that go on from one -/

/-- A catalogue that goes on from another one, where the registry was a given one whenever something
was entered: the scalars of each further structure, and of each composite that became known, are
named by that registry. -/
structure EnteredUnder (registry : Registry) (origin catalogue : Catalogue) : Prop where
  start : origin.Indexed
  indexed : catalogue.Indexed
  sound : catalogue.Sound
  extension : origin.Extends catalogue
  remembers : origin.Remembers catalogue
  named : ∀ id, origin.size ≤ id → id < catalogue.size → ∀ field ∈ (catalogue.entry id).fields,
    ∀ scalar typeString, field.type = .scalar scalar typeString →
      ∃ name, Session.Named registry registry name scalar typeString
  known : ∀ composite id, catalogue.lookup composite = some id → origin.lookup composite = some id ∨
    ∃ fields, catalogue.KnownAs composite id fields ∧ List.Forall₂ (fun declared resolved =>
      declared.type.AnsweredBy (Session.Named registry registry) resolved.type)
      composite.fields fields

/-- What is in a log whose scalars are named by a registry was entered under that registry. -/
theorem Recorded.enteredUnder {log : EntryLog} (recorded : Recorded origin log catalogue)
    (answered : log.AnsweredBy (Session.Named registry registry)) (start : origin.Indexed)
    (indexed : catalogue.Indexed) (sound : catalogue.Sound) (extension : origin.Extends catalogue)
    (remembers : origin.Remembers catalogue) : EnteredUnder registry origin catalogue where
  start := start
  indexed := indexed
  sound := sound
  extension := extension
  remembers := remembers
  named id new present field member scalar typeString holds := by
    obtain ⟨composite, logged⟩ := recorded.stored id new present
    obtain ⟨declared, -, named⟩ := exists_of_mem_right (answered _ logged) member
    rw [holds] at named
    generalize declared.type = type at named
    cases named with
    | scalar named => exact ⟨_, named⟩
  known composite id found := by
    refine (recorded.known composite id found).imp_right ?_
    rintro ⟨fields, logged, known⟩
    exact ⟨fields, known, answered _ logged⟩

theorem EnteredUnder.trans {middle : Catalogue} (first : EnteredUnder registry origin middle)
    (rest : EnteredUnder registry middle catalogue) : EnteredUnder registry origin catalogue where
  start := first.start
  indexed := rest.indexed
  sound := rest.sound
  extension := first.extension.trans rest.extension
  remembers composite id found := rest.remembers composite id (first.remembers composite id found)
  named id new present := by
    by_cases earlier : id < middle.size
    · rw [(rest.extension.entry id earlier).fields]
      exact first.named id new earlier
    · exact rest.named id (Nat.not_lt.mp earlier) present
  known composite id found := by
    rcases rest.known composite id found with earlier | later
    · refine (first.known composite id earlier).imp_right ?_
      rintro ⟨fields, known, answered⟩
      exact ⟨fields, known.later first.indexed (first.indexed.byType _ _ earlier) rest.extension
        rest.remembers, answered⟩
    · exact .inr later

/-! ## Keys -/

mutual

/-- A composite has the same key in both catalogues. -/
theorem keys_agree (first : EnteredUnder registry origin catalogue)
    (second : EnteredUnder registry origin catalogue') :
    (composite : Composite) → ∀ id id', catalogue.lookup composite = some id →
    catalogue'.lookup composite = some id' → catalogue.key id = catalogue'.key id'
  | .mk declared packing, id, id', found, found' => by
    -- A composite that was known at the start is the structure that it was.
    have old : ∀ {target}, origin.lookup (.mk declared packing) = some target →
        catalogue.key id = catalogue'.key id' := by
      intro target earlier
      have present := first.start.byType _ _ earlier
      cases (first.remembers _ _ earlier).symm.trans found
      cases (second.remembers _ _ earlier).symm.trans found'
      rw [first.extension.key present, second.extension.key present]
    rcases first.known _ id found with earlier | ⟨fields, ⟨resolved, key⟩, answered⟩
    · exact old earlier
    rcases second.known _ id' found' with earlier | ⟨fields', ⟨resolved', key'⟩, answered'⟩
    · exact old earlier
    rw [key, key', keyOf, keyOf, partKeys_agree first second declared fields fields' resolved
      resolved' answered answered']

/-- The fields of a composite have the same parts in its key. -/
theorem partKeys_agree (first : EnteredUnder registry origin catalogue)
    (second : EnteredUnder registry origin catalogue') :
    (declared : List Field) → ∀ fields fields',
    List.Forall₂ catalogue.ResolvesField declared fields →
    List.Forall₂ catalogue'.ResolvesField declared fields' →
    List.Forall₂ (fun declared resolved =>
      declared.type.AnsweredBy (Session.Named registry registry) resolved.type) declared fields →
    List.Forall₂ (fun declared resolved =>
      declared.type.AnsweredBy (Session.Named registry registry) resolved.type) declared fields' →
    (fields.map catalogue.pieceOf).map (·.key) = (fields'.map catalogue'.pieceOf).map (·.key)
  | [], _, _, .nil, .nil, _, _ => rfl
  | .mk name type count :: rest, field :: fields, field' :: fields', .cons resolves others,
      .cons resolves' others', .cons answered more, .cons answered' more' => by
    have parts := partKeys_agree first second rest fields fields' others others' more more'
    have part := partKey_agree first second type field.type field'.type resolves.type resolves'.type
      answered answered'
    simp only [List.map_cons, pieceOf, resolves.name, resolves'.name, resolves.count,
      resolves'.count, part]
    exact congrArg _ parts

/-- What a field holds has the same part in a key. -/
theorem partKey_agree (first : EnteredUnder registry origin catalogue)
    (second : EnteredUnder registry origin catalogue') :
    (type : MemberType) → ∀ resolved resolved',
    catalogue.ResolvesType type resolved → catalogue'.ResolvesType type resolved' →
    type.AnsweredBy (Session.Named registry registry) resolved →
    type.AnsweredBy (Session.Named registry registry) resolved' →
    catalogue.keyPart resolved = catalogue'.keyPart resolved'
  | .scalar name, _, _, _, _, .scalar named, .scalar named' => by
    rw [keyPart, keyPart, named.names.1.unique named'.names.1]
  | .composite child, _, _, .record found, .record found', _, _ => by
    rw [keyPart, keyPart, keys_agree first second child _ _ found found']
  | .pointer child, _, _, .pointer found, .pointer found', _, _ => by
    rw [keyPart, keyPart, keys_agree first second child _ _ found found']

end

/-! ## Structures with the same tree -/

/-- What two fields hold in two catalogues is the same: scalars of which the same is known, or
structures with the same tree, which stand before the two structures. -/
inductive SameMember (registry : Registry) (catalogue catalogue' : Catalogue) (id id' : Nat) :
    ResolvedType → ResolvedType → Prop where
  | scalar {scalar scalar' : ResolvedScalar} {typeString : String}
      (info : scalar.info = scalar'.info)
      (dtype : registry.SameDtype scalar.arrayLib.text scalar'.arrayLib.text) :
      SameMember registry catalogue catalogue' id id' (.scalar scalar typeString)
        (.scalar scalar' typeString)
  | record {child child' : Nat} (smaller : child < id) (smaller' : child' < id')
      (same : catalogue.tree child = catalogue'.tree child') :
      SameMember registry catalogue catalogue' id id' (.record child) (.record child')
  | pointer {child child' : Nat} :
      SameMember registry catalogue catalogue' id id' (.pointer child) (.pointer child')

/-- Two fields with the same name and number of elements that hold the same. -/
structure SameField (registry : Registry) (catalogue catalogue' : Catalogue) (id id' : Nat)
    (field field' : ResolvedField) : Prop where
  name : field.name = field'.name
  count : field.count = field'.count
  type : SameMember registry catalogue catalogue' id id' field.type field'.type

namespace EnteredUnder

/-- A structure that was there at the start is the only one with its tree. -/
theorem eq_of_tree_eq (first : EnteredUnder registry origin catalogue)
    (second : EnteredUnder registry origin catalogue') (old : id < origin.size)
    (known' : id' < catalogue'.size) (same : catalogue.tree id = catalogue'.tree id') : id = id' := by
  have known := Nat.lt_of_lt_of_le old first.extension.size
  have still := Nat.lt_of_lt_of_le old second.extension.size
  refine second.sound.eq_of_key_eq still known' ?_
  rw [second.extension.key old, ← first.extension.key old, ← first.sound.key_tree known, same,
    second.sound.key_tree known']

/-- A structure that was there at the start has the same fields in both catalogues. -/
theorem sameFields_old (first : EnteredUnder registry origin catalogue)
    (second : EnteredUnder registry origin catalogue') (old : id < origin.size) :
    (catalogue.entry id).packing = (catalogue'.entry id).packing ∧
      List.Forall₂ (SameField registry catalogue catalogue' id id) (catalogue.entry id).fields
        (catalogue'.entry id).fields := by
  have entry := first.extension.entry id old
  have entry' := second.extension.entry id old
  have sound := first.sound.entry id (Nat.lt_of_lt_of_le old first.extension.size)
  have children := sound.children
  rw [entry.fields] at children
  rw [entry.packing, entry'.packing, entry.fields, entry'.fields]
  refine ⟨rfl, List.forall₂_same.mpr fun field member => ⟨rfl, rfl, ?_⟩⟩
  have earlier := children field member
  obtain ⟨name, type, count⟩ := field
  cases type with
  | scalar => exact .scalar rfl (.inl rfl)
  | record child =>
      have smaller := earlier child rfl
      have present := Nat.lt_trans smaller old
      exact .record smaller smaller
        ((first.extension.tree present).trans (second.extension.tree present).symm)
  | pointer => exact .pointer

/-- Structures with the same tree have the same packing, and the same fields one by one. -/
theorem sameFields (plain : registry.Plain) (first : EnteredUnder registry origin catalogue)
    (second : EnteredUnder registry origin catalogue') (known : id < catalogue.size)
    (known' : id' < catalogue'.size) (same : catalogue.tree id = catalogue'.tree id') :
    (catalogue.entry id).packing = (catalogue'.entry id').packing ∧
      List.Forall₂ (SameField registry catalogue catalogue' id id') (catalogue.entry id).fields
        (catalogue'.entry id').fields := by
  by_cases old : id < origin.size
  · cases first.eq_of_tree_eq second old known' same
    exact first.sameFields_old second old
  by_cases old' : id' < origin.size
  · cases second.eq_of_tree_eq first old' known same.symm
    exact absurd old' old
  rw [first.sound.tree_eq known, second.sound.tree_eq known'] at same
  obtain ⟨fields, packing⟩ := RecordTree.mk.inj same
  refine ⟨packing, (forall₂_mem (forall₂_of_map_eq fields)).imp ?_⟩
  rintro ⟨name, type, count⟩ ⟨name', type', count'⟩ ⟨member, member', same⟩
  obtain ⟨rfl, sameType, rfl⟩ := FieldTree.mk.inj same
  have earlier := (first.sound.entry id known).children _ member
  have earlier' := (second.sound.entry id' known').children _ member'
  refine ⟨rfl, rfl, ?_⟩
  cases type with
  | scalar scalar typeString =>
      cases type' with
      | scalar scalar' typeString' =>
          obtain ⟨_, named⟩ := first.named id (Nat.not_lt.mp old) known _ member _ _ rfl
          obtain ⟨_, named'⟩ := second.named id' (Nat.not_lt.mp old') known' _ member' _ _ rfl
          obtain ⟨info, rfl, dtype⟩ := named.alike plain named' (MemberTree.scalar.inj sameType)
          exact .scalar info dtype
      | record child' => cases sameType
      | pointer child' => cases sameType
  | record child =>
      cases type' with
      | scalar scalar' typeString' => cases sameType
      | record child' =>
          exact .record (earlier child rfl) (earlier' child' rfl) (MemberTree.record.inj sameType)
      | pointer child' => cases sameType
  | pointer child =>
      cases type' with
      | scalar scalar' typeString' => cases sameType
      | record child' => cases sameType
      | pointer child' => exact .pointer

/-- Structures with the same tree have the same layout. -/
theorem layouts_agree (plain : registry.Plain) (first : EnteredUnder registry origin catalogue)
    (second : EnteredUnder registry origin catalogue') (known : id < catalogue.size)
    (known' : id' < catalogue'.size) (same : catalogue.tree id = catalogue'.tree id') :
    catalogue.layout id = catalogue'.layout id' := by
  induction id using Nat.strongRecOn generalizing id' with
  | ind id ih =>
      obtain ⟨packing, fields⟩ := first.sameFields plain second known known' same
      rw [layout, layout, (first.sound.entry id known).layout, (second.sound.entry id' known').layout,
        packing]
      congr 1
      clear packing
      generalize (catalogue.entry id).fields = items at fields
      generalize (catalogue'.entry id').fields = items' at fields
      induction fields with
      | nil => rfl
      | @cons field field' _ _ alike _ others =>
          rw [List.map_cons, List.map_cons, others]
          congr 1
          obtain ⟨name, type, count⟩ := field
          obtain ⟨name', type', count'⟩ := field'
          obtain ⟨rfl, rfl, alike⟩ := alike
          cases alike with
          | scalar info => simp only [memberLayout, memberLayoutWith, ResolvedScalar.size, info]
          | record smaller smaller' sameTree =>
              have inner := ih _ smaller (Nat.lt_trans smaller known)
                (Nat.lt_trans smaller' known') sameTree
              simp only [memberLayout, memberLayoutWith, inner]
          | pointer => rfl

end EnteredUnder

/-! ## Calls by value -/

/-- Whether what a field holds crosses the boundary to native code. -/
def crosses (catalogue : Catalogue) : ResolvedType → Bool
  | .scalar scalar _ => (ScalarKind.ofInfo scalar.info).isOk
  | .record child => (catalogue.callDefinition child).isOk
  | .pointer _ => true

theorem isOk_scalarKindOf (info : TypeInfo) (owner member : String) :
    (scalarKindOf info owner member).isOk = (ScalarKind.ofInfo info).isOk := by
  unfold scalarKindOf
  split
  · rename_i named
    rw [named]
    rfl
  · rename_i failed
    rw [failed]
    rfl
  · rename_i failed
    rw [failed]
    rfl

/-- A structure is passed by value if it is not packed and all that it holds crosses the
boundary. -/
theorem Sound.isOk_callDefinition (sound : catalogue.Sound) (known : id < catalogue.size) :
    (catalogue.callDefinition id).isOk ↔ (catalogue.entry id).packing = .natural ∧
      ∀ field ∈ (catalogue.entry id).fields, catalogue.crosses field.type := by
  have fields : ((catalogue.entry id).fields.zip (catalogue.layout id).offsets).map Prod.fst =
      (catalogue.entry id).fields :=
    List.map_fst_zip (Nat.le_of_eq (sound.length_offsets known).symm)
  rw [callDefinition]
  dsimp only
  split
  · rename_i packed
    exact ⟨fun isOk => absurd isOk Bool.false_ne_true, fun both => absurd both.1 packed⟩
  · rename_i natural
    rw [and_iff_right (Decidable.not_not.mp natural), isOk_bind_pure, isOk_mapM]
    conv_rhs => rw [← fields, List.forall_mem_map]
    refine forall₂_congr fun piece member => ?_
    obtain ⟨⟨name, type, count⟩, offset⟩ := piece
    have earlier := (sound.entry id known).child_lt (List.of_mem_zip member).1
    dsimp only
    cases type with
    | scalar scalar typeString =>
        dsimp only
        rw [isOk_bind_pure, isOk_map, isOk_scalarKindOf, crosses]
    | record child =>
        dsimp only
        rw [if_pos (earlier child rfl), isOk_bind_pure, isOk_map, crosses]
    | pointer child => exact ⟨fun _ => rfl, fun _ => rfl⟩

/-- Structures with the same tree are both passed by value or both not. -/
theorem EnteredUnder.calls_agree (plain : registry.Plain)
    (first : EnteredUnder registry origin catalogue)
    (second : EnteredUnder registry origin catalogue') (known : id < catalogue.size)
    (known' : id' < catalogue'.size) (same : catalogue.tree id = catalogue'.tree id') :
    (catalogue.callDefinition id).isOk = (catalogue'.callDefinition id').isOk := by
  induction id using Nat.strongRecOn generalizing id' with
  | ind id ih =>
      obtain ⟨packing, fields⟩ := first.sameFields plain second known known' same
      have cross : ∀ {field field'}, SameField registry catalogue catalogue' id id' field field' →
          catalogue.crosses field.type = catalogue'.crosses field'.type := by
        rintro ⟨name, type, count⟩ ⟨name', type', count'⟩ ⟨-, -, alike⟩
        cases alike with
        | scalar info => rw [crosses, crosses, info]
        | record smaller smaller' sameTree =>
            rw [crosses, crosses]
            exact ih _ smaller (Nat.lt_trans smaller known) (Nat.lt_trans smaller' known') sameTree
        | pointer => rfl
      have members : (∀ field ∈ (catalogue.entry id).fields, catalogue.crosses field.type) ↔
          ∀ field ∈ (catalogue'.entry id').fields, catalogue'.crosses field.type := by
        generalize (catalogue.entry id).fields = items at fields
        generalize (catalogue'.entry id').fields = items' at fields
        induction fields with
        | nil => exact iff_of_true (List.forall_mem_nil _) (List.forall_mem_nil _)
        | cons alike _ others =>
            rw [List.forall_mem_cons, List.forall_mem_cons, others, cross alike]
      have passes := first.sound.isOk_callDefinition known
      have passes' := second.sound.isOk_callDefinition known'
      rw [packing, members] at passes
      exact Bool.eq_iff_iff.mpr (passes.trans passes'.symm)

end Catalogue

end TypeBridge
