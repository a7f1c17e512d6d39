import TypeBridge.Proofs.Record.Agreement
import TypeBridge.Proofs.Record.OwnTrees
import TypeBridge.Proofs.Types.Advancing

/-!
# Composites that are passed by value

Whether a composite is passed by value is looked at twice: in its declaration, which tells of its
packing and of the packings in it, and in the structure that it was entered as.
`isOk_callDefinition_iff` says when the two agree. The structure may stand for a composite with other
spellings that was entered earlier, so the proof goes through the trees of both; all that it needs of
a native name is that it tells what is registered (`Understood`).
-/

namespace TypeBridge

/-! ## Scalars that are passed by value -/

mutual

/-- The scalars in a composite that are reached without following a pointer. -/
def Composite.valueScalars : Composite → List TypeName
  | .mk fields _ => Composite.fieldsValueScalars fields

/-- The scalars in some fields that are reached without following a pointer. -/
def Composite.fieldsValueScalars : List Field → List TypeName
  | [] => []
  | .mk _ type _ :: rest => type.valueScalars ++ Composite.fieldsValueScalars rest

/-- The scalars in what a field holds that are reached without following a pointer. -/
def MemberType.valueScalars : MemberType → List TypeName
  | .scalar name => [name]
  | .composite child => child.valueScalars
  | .pointer _ => []

end

/-- Whether what is known of a type has a kind in calls. -/
def Registry.Supports (registry : Registry) (name : TypeName) : Prop :=
  ∃ info, registry.facts name = some info ∧ (ScalarKind.ofInfo info).isOk

/-- Whether what a field holds can be passed by value: no packed composite and no scalar without a
kind is reached without following a pointer. -/
def MemberType.GoesByValue (registry : Registry) (type : MemberType) : Prop :=
  type.passesByValue ∧ ∀ name ∈ type.valueScalars, registry.Supports name

theorem Composite.fieldsPassByValue_iff {fields : List Field} :
    Composite.fieldsPassByValue fields ↔ ∀ field ∈ fields, field.type.passesByValue := by
  induction fields with
  | nil => simp [Composite.fieldsPassByValue]
  | cons field rest ih =>
      obtain ⟨name, type, count⟩ := field
      rw [Composite.fieldsPassByValue, Bool.and_eq_true, ih, List.forall_mem_cons]
      rfl

theorem Composite.mem_fieldsValueScalars {fields : List Field} {name : TypeName} :
    name ∈ Composite.fieldsValueScalars fields ↔ ∃ field ∈ fields, name ∈ field.type.valueScalars := by
  induction fields with
  | nil => simp [Composite.fieldsValueScalars]
  | cons field rest ih =>
      obtain ⟨_, type, count⟩ := field
      rw [Composite.fieldsValueScalars, List.mem_append, ih, List.exists_mem_cons_iff]
      rfl

/-- A composite goes by value if it is not packed and all its fields do. -/
theorem Composite.goesByValue_iff {registry : Registry} {composite : Composite} :
    (MemberType.composite composite).GoesByValue registry ↔ composite.packing = .natural ∧
      ∀ field ∈ composite.fields, field.type.GoesByValue registry := by
  obtain ⟨fields, packing⟩ := composite
  rw [MemberType.GoesByValue, MemberType.passesByValue, Composite.passesByValue,
    MemberType.valueScalars, Composite.valueScalars, Bool.and_eq_true, decide_eq_true_eq,
    Composite.fieldsPassByValue_iff]
  simp only [Composite.mem_fieldsValueScalars, MemberType.GoesByValue, Composite.packing,
    Composite.fields]
  constructor
  · rintro ⟨⟨natural, passes⟩, supported⟩
    exact ⟨natural, fun field member => ⟨passes field member,
      fun name inside => supported name ⟨field, member, inside⟩⟩⟩
  · rintro ⟨natural, all⟩
    refine ⟨⟨natural, fun field member => (all field member).1⟩, ?_⟩
    rintro name ⟨field, member, inside⟩
    exact (all field member).2 name inside

/-- What holds of the one is the other in lists that go together. -/
theorem forall_mem_iff_of_forall₂ {α β : Type} {relation : α → β → Prop} {items : List α}
    {items' : List β} {holds : α → Prop} {holds' : β → Prop}
    (all : List.Forall₂ relation items items')
    (same : ∀ item ∈ items, ∀ item' ∈ items', relation item item' → (holds item ↔ holds' item')) :
    (∀ item ∈ items, holds item) ↔ ∀ item' ∈ items', holds' item' := by
  constructor
  · intro left item' member'
    obtain ⟨item, member, related⟩ := exists_of_mem_right all member'
    exact (same item member item' member' related).mp (left item member)
  · intro right item member
    obtain ⟨item', member', related⟩ := exists_of_mem_right all.flip member
    exact (same item member item' member' related).mpr (right item' member')

/-! ## Names that tell what is registered -/

theorem Registry.Grows.plain {before after : Registry} (grows : before.Grows after)
    (plain : after.Plain) : before.Plain := by
  intro entry member
  have listed : (entry.name, entry.info) ∈ before.toList := List.mem_map.mpr ⟨entry, member, rfl⟩
  obtain ⟨other, present, same⟩ := List.mem_map.mp (grows.toList.subset listed)
  rw [← (Prod.mk.inj same).1]
  exact plain other present

/-- A registry tells what was made of a scalar, by its own name and by the native name that it was
given. -/
structure Registry.Understands (registry : Registry) (name : TypeName) (scalar : ResolvedScalar) :
    Prop where
  facts : registry.facts name = some scalar.info
  meaning : registry.meaning scalar.native.text = some scalar.info

namespace Catalogue

variable {registry : Registry} {catalogue : Catalogue} {composite : Composite} {id : Nat}
  {log : EntryLog} {renamed : List Nat}

/-- The registry grows, and nothing is known of a type but what a given one tells. -/
def Toward (registry : Registry) (_before after : Registry) : Prop := after.Grows registry

/-- A registry that grows toward one that has grown grows toward that one too. -/
theorem History.mono {admits admits' : Registry → Registry → Prop}
    (history : History admits log renamed catalogue)
    (wider : ∀ before after, admits before after → admits' before after) :
    History admits' log renamed catalogue := by
  induction history with
  | start => exact .start
  | create _ machine composite rest built reached admitted ih =>
      exact ih.create machine composite rest built reached (wider _ _ admitted)
  | renameId _ id name known ih => exact ih.renameId id name known
  | render _ id count known ih => exact ih.render id count known
  | renderAll _ ids known ih => exact ih.renderAll ids known

/-- All scalars that were entered are understood by the registry in the end. -/
theorem History.understood (history : History (Toward registry) log renamed catalogue)
    (plain : registry.Plain) :
    log.AnsweredBy fun name scalar _ => registry.Understands name scalar := by
  refine history.answered.mono ?_
  rintro name scalar typeString ⟨before, after, toward, named⟩
  cases named with
  | @answered unsized session last machine bench bench' reached begins behind ran =>
      have grows : last.registry.Grows registry := behind.grows.trans toward
      have early := ((Session.resolve_advances machine name).of_run ran).grows.trans grows
      constructor
      · exact grows.facts (Session.facts_of_resolve ran)
      · exact grows.facts (Session.meaning_of_resolve reached.steady (early.plain plain) ran)

/-- What a structure holds goes by value exactly if a field does that has the same tree. -/
theorem crosses_iff {treeOf : Composite → RecordTree} {type : MemberType}
    {own resolved : ResolvedType}
    (understood : type.AnsweredBy (fun name scalar _ => registry.Understands name scalar) own)
    (meaning : ∀ scalar typeString, resolved = .scalar scalar typeString →
      registry.meaning scalar.native.text = some scalar.info)
    (children : ∀ child id, type = .composite child → resolved = .record id →
      catalogue.tree id = treeOf child →
        ((catalogue.callDefinition id).isOk ↔ type.GoesByValue registry))
    (same : EntryLog.memberTree treeOf type own = memberTree catalogue.tree resolved) :
    catalogue.crosses resolved ↔ type.GoesByValue registry := by
  cases understood with
  | @scalar name scalar typeString understands =>
      cases resolved with
      | scalar stored storedString =>
          have sameName : scalar.native.text = stored.native.text := by injection same
          have sameInfo : some scalar.info = some stored.info := by
            rw [← understands.meaning, sameName, meaning stored storedString rfl]
          have known := understands.facts
          rw [sameInfo] at known
          rw [crosses, MemberType.GoesByValue, MemberType.valueScalars, List.forall_mem_singleton,
            Registry.Supports, known, MemberType.passesByValue]
          simp
      | record => cases same
      | pointer => cases same
  | composite child =>
      cases resolved with
      | scalar => cases same
      | record id =>
          have sameTree : treeOf child = catalogue.tree id := by injection same
          exact children child id rfl rfl sameTree.symm
      | pointer => cases same
  | pointer child =>
      cases resolved with
      | scalar => cases same
      | record => cases same
      | pointer => exact ⟨fun _ => ⟨rfl, List.forall_mem_nil _⟩, fun _ => rfl⟩

/-- A structure that has the tree of a composite as it was entered is passed by value exactly if the
composite goes by value. -/
theorem isOk_callDefinition_iff (plain : registry.Plain)
    (history : History (Toward registry) log renamed catalogue) (known : log.Knows composite)
    (present : id < catalogue.size) (same : catalogue.tree id = log.tree composite) :
    (catalogue.callDefinition id).isOk ↔ (MemberType.composite composite).GoesByValue registry := by
  have reached := history.reached
  have understood := history.understood plain
  have stored : ∀ id, id < catalogue.size → ∀ field ∈ (catalogue.entry id).fields,
      ∀ scalar typeString, field.type = .scalar scalar typeString →
        registry.meaning scalar.native.text = some scalar.info := by
    intro id present field member scalar typeString holds
    obtain ⟨source, logged⟩ := reached.recorded.stored id (Nat.zero_le id) present
    obtain ⟨declared, -, answered⟩ := exists_of_mem_right (understood _ logged) member
    rw [holds] at answered
    generalize declared.type = type at answered
    cases answered with
    | scalar understands => exact understands.meaning
  suffices holds : ∀ id, id < catalogue.size → catalogue.tree id = log.tree composite →
      ((catalogue.callDefinition id).isOk ↔
        (MemberType.composite composite).GoesByValue registry) from holds id present same
  -- The composites in this one may have been entered as other structures than those in the
  -- structure, but with the same trees.
  refine reached.logged.consistent.preserves (motive := fun composite => ∀ id, id < catalogue.size →
    catalogue.tree id = log.tree composite → ((catalogue.callDefinition id).isOk ↔
      (MemberType.composite composite).GoesByValue registry)) ?_ known
  intro composite own entered inside id present same
  rw [reached.logged.consistent.tree_eq entered, reached.sound.tree_eq present] at same
  injection same with sameFields packing
  have answered := understood _ entered
  have names : (composite.fields.zip own).map Prod.fst = composite.fields :=
    List.map_fst_zip (Nat.le_of_eq answered.length_eq)
  rw [reached.sound.isOk_callDefinition present, Composite.goesByValue_iff, packing,
    ← names, List.forall_mem_map]
  refine and_congr_right fun _ => forall_mem_iff_of_forall₂ (forall₂_of_map_eq sameFields) ?_
  intro field member pair paired sameField
  injection sameField with _ sameMember _
  refine crosses_iff (List.forall₂_zip answered paired) (stored id present field member) ?_
    sameMember.symm
  intro child target holdsChild holdsTarget sameTree
  have earlier := (reached.sound.entry id present).children field member target
    (by rw [ResolvedField.child?, holdsTarget])
  rw [holdsChild]
  exact inside pair.1 (List.of_mem_zip paired).1 child (.inl holdsChild) target
    (Nat.lt_trans earlier present) sameTree

/-- The structure that a composite was entered as is passed by value exactly if the composite goes by
value, as long as no native name mimics a key. -/
theorem isOk_callDefinition_of_lookup (plain : registry.Plain)
    (history : History (Toward registry) log renamed catalogue) (clean : log.Clean)
    (found : catalogue.lookup composite = some id) :
    (catalogue.callDefinition id).isOk ↔ (MemberType.composite composite).GoesByValue registry := by
  have reached := history.reached
  exact isOk_callDefinition_iff plain history
    ((reached.logged.knows composite).mpr (Option.isSome_iff_exists.mpr ⟨id, found⟩))
    (reached.indexed.byType _ _ found) ((reached.faithful clean).meaning _ _ found)

end Catalogue

end TypeBridge
