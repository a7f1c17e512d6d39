import TypeBridge.Proofs.Record.Independence

/-!
# Composites with one structure

Composites whose scalars are spelled differently can be one structure, which keeps the fields of
whichever was entered first. `arrayDefinition_independent_of_order` says what of its definition for
the array library rests on that choice: nothing but the names of scalars, of which each stands for
the other (`ArrayDtype.Alike`). Both go by one structure whatever the order.
-/

namespace TypeBridge

/-! ## Definitions that differ in the names of scalars -/

mutual

/-- Two definitions of a structure that are equal but for the names of scalars, which may be any two
names that are the same to a relation. -/
inductive ArrayDtype.Alike (same : String → String → Prop) : ArrayDtype → ArrayDtype → Prop where
  | mk {name : String} {fields fields' : List ArrayField} {itemSize align : Nat}
      (fieldsAlike : ArrayField.AllAlike same fields fields') :
      ArrayDtype.Alike same (.mk name fields itemSize align) (.mk name fields' itemSize align)

/-- Fields that are equal one by one but for the names of scalars. -/
inductive ArrayField.AllAlike (same : String → String → Prop) :
    List ArrayField → List ArrayField → Prop where
  | nil : ArrayField.AllAlike same [] []
  | cons {name : String} {offset count elementSize : Nat} {format format' : ArrayFormat}
      {rest rest' : List ArrayField} (formatAlike : ArrayFormat.Alike same format format')
      (restAlike : ArrayField.AllAlike same rest rest') :
      ArrayField.AllAlike same (.mk name offset count elementSize format :: rest)
        (.mk name offset count elementSize format' :: rest')

/-- Two formats that are equal but for the names of scalars. -/
inductive ArrayFormat.Alike (same : String → String → Prop) : ArrayFormat → ArrayFormat → Prop where
  | scalar {dtype dtype' typeString : String} (named : same dtype dtype') :
      ArrayFormat.Alike same (.scalar dtype typeString) (.scalar dtype' typeString)
  | record {dtype dtype' : ArrayDtype} (dtypeAlike : ArrayDtype.Alike same dtype dtype') :
      ArrayFormat.Alike same (.record dtype) (.record dtype')

end

namespace ArrayDtype

variable {same : String → String → Prop}

/-- Fields that are alike end at the same offset. -/
theorem endOf_eq : {fields fields' : List ArrayField} → ArrayField.AllAlike same fields fields' →
    ∀ {cursor}, endOf cursor fields = endOf cursor fields'
  | _, _, .nil, _ => rfl
  | _, _, .cons _ restAlike, _ => endOf_eq restAlike

mutual

/-- Definitions that are alike have the same description. -/
theorem descr_eq : {dtype dtype' : ArrayDtype} → Alike same dtype dtype' →
    descr dtype = descr dtype'
  | _, _, .mk fieldsAlike => by
    rw [descr, descr, fieldsDescr_eq fieldsAlike, endOf_eq fieldsAlike]

theorem fieldsDescr_eq : {fields fields' : List ArrayField} →
    ArrayField.AllAlike same fields fields' → ∀ {cursor},
      fieldsDescr cursor fields = fieldsDescr cursor fields'
  | _, _, .nil, _ => rfl
  | _, _, .cons formatAlike restAlike, _ => by
    rw [fieldsDescr, fieldsDescr, formatDescr_eq formatAlike, fieldsDescr_eq restAlike]
    rfl

theorem formatDescr_eq : {format format' : ArrayFormat} → ArrayFormat.Alike same format format' →
    formatDescr format = formatDescr format'
  | _, _, .scalar _ => rfl
  | _, _, .record dtypeAlike => by rw [formatDescr, formatDescr, descr_eq dtypeAlike]

end

end ArrayDtype

namespace Catalogue

variable {registry : Registry} {log : EntryLog} {origin catalogue catalogue' middle last : Catalogue}
  {composite : Composite} {id id' : Nat}

/-! ## Names of structures that were not there before -/

/-- A catalogue in which the structures of another one are as they were, and each further one is
called after its key. -/
structure Unrenamed (origin catalogue : Catalogue) : Prop where
  old : ∀ id, id < origin.size → catalogue.entry id = origin.entry id
  new : ∀ id, origin.size ≤ id → id < catalogue.size →
    catalogue.name id = canonicalName (catalogue.key id)

theorem Unrenamed.trans (size : origin.size ≤ middle.size) (first : Unrenamed origin middle)
    (rest : Unrenamed middle last) : Unrenamed origin last where
  old id known := by rw [rest.old id (Nat.lt_of_lt_of_le known size), first.old id known]
  new id new known := by
    by_cases earlier : id < middle.size
    · rw [name, key, rest.old id earlier]
      exact first.new id new earlier
    · exact rest.new id (Nat.not_lt.mp earlier) known

/-- Structures with the same tree have the same name in two catalogues in which none was renamed. -/
theorem EnteredUnder.name_eq (first : EnteredUnder registry origin catalogue)
    (second : EnteredUnder registry origin catalogue') (unrenamed : Unrenamed origin catalogue)
    (unrenamed' : Unrenamed origin catalogue') (known : id < catalogue.size)
    (known' : id' < catalogue'.size) (same : catalogue.tree id = catalogue'.tree id') :
    catalogue.name id = catalogue'.name id' := by
  by_cases old : id < origin.size
  · cases first.eq_of_tree_eq second old known' same
    rw [name, name, unrenamed.old id old, unrenamed'.old id old]
  by_cases old' : id' < origin.size
  · cases second.eq_of_tree_eq first old' known same.symm
    exact absurd old' old
  rw [unrenamed.new id (Nat.not_lt.mp old) known, unrenamed'.new id' (Nat.not_lt.mp old') known',
    ← first.sound.key_tree known, ← second.sound.key_tree known', same]

/-! ## Structures with the same tree -/

/-- Structures with the same tree have definitions that differ in the names of scalars at most. -/
theorem EnteredUnder.definitions_alike (plain : registry.Plain)
    (first : EnteredUnder registry origin catalogue)
    (second : EnteredUnder registry origin catalogue') (unrenamed : Unrenamed origin catalogue)
    (unrenamed' : Unrenamed origin catalogue') (known : id < catalogue.size)
    (known' : id' < catalogue'.size) (same : catalogue.tree id = catalogue'.tree id') :
    ArrayDtype.Alike registry.SameDtype (catalogue.arrayDefinition id)
      (catalogue'.arrayDefinition id') := by
  induction id using Nat.strongRecOn generalizing id' with
  | ind id ih =>
      obtain ⟨-, fields⟩ := first.sameFields plain second known known' same
      rw [first.sound.arrayDefinition_eq known, second.sound.arrayDefinition_eq known',
        first.name_eq second unrenamed unrenamed' known known' same,
        first.layouts_agree plain second known known' same]
      refine .mk ?_
      generalize (catalogue'.layout id').offsets = offsets
      generalize (catalogue.entry id).fields = items at fields
      generalize (catalogue'.entry id').fields = items' at fields
      induction fields generalizing offsets with
      | nil => exact .nil
      | @cons field field' _ _ alike _ others =>
          cases offsets with
          | nil => exact .nil
          | cons offset offsets =>
              rw [List.zip_cons_cons, List.zip_cons_cons, List.map_cons, List.map_cons, arrayField,
                arrayField]
              obtain ⟨name, type, count⟩ := field
              obtain ⟨name', type', count'⟩ := field'
              obtain ⟨rfl, rfl, alike⟩ := alike
              have size : (catalogue.memberLayout ⟨name, type, count⟩).size =
                  (catalogue'.memberLayout ⟨name, type', count⟩).size := by
                cases alike with
                | scalar info => simp only [memberLayout, memberLayoutWith, ResolvedScalar.size, info]
                | record smaller smaller' sameTree =>
                    simp only [memberLayout, memberLayoutWith, first.layouts_agree plain second
                      (Nat.lt_trans smaller known) (Nat.lt_trans smaller' known') sameTree]
                | pointer => rfl
              rw [size]
              refine .cons ?_ (others offsets)
              cases alike with
              | scalar _ dtype => exact .scalar dtype
              | record smaller smaller' sameTree =>
                  exact .record (ih _ smaller (Nat.lt_trans smaller known)
                    (Nat.lt_trans smaller' known') sameTree)
              | pointer => exact .scalar (.inl rfl)

/-! ## Two orders -/

/-- A composite is entered as a structure, in a session in which the registry is a given one and
stays so. -/
inductive Creates (registry : Registry) (catalogue : Catalogue) (composite : Composite) (id : Nat)
    (after : Catalogue) : Prop where
  | answered {machine : Machine} {session session' : Session} {bench bench' : Workbench}
      {unsized : List String} (built : composite.isBuilt)
      (reached : Session.Reached unsized session) (before : session.registry = registry)
      (behind : session'.registry = registry)
      (ran : (create machine composite).run (catalogue, session, bench) =
        (.ok id, after, session', bench'))

namespace Creates

/-- What was entered is known, and nothing but entries was made. -/
theorem enteredUnder (creates : Creates registry catalogue composite id last)
    (indexed : catalogue.Indexed) (sound : catalogue.Sound) :
    last.lookup composite = some id ∧ EnteredUnder registry catalogue last ∧
      Unrenamed catalogue last := by
  cases creates with
  | @answered machine session session' bench bench' unsized built reached before behind ran =>
      have known := ((create_ensures machine [] (session, bench) built indexed).of_ok ran).2
      have chain := create_enters machine [] (session, bench) built indexed
      have notes := create_notes machine composite [] catalogue (session, bench) ⟨unsized, reached⟩
      rw [ran] at chain notes
      have changes := EntersAll.changes chain
      obtain ⟨added, same, answered⟩ := notes.added
      rw [List.append_nil] at same
      rw [← same, before, behind] at answered
      refine ⟨known, ?_, fun _ present => EntersAll.entry chain present,
        fun _ new present => EntersAll.name_of_new chain new present⟩
      exact (ChangesAll.recorded changes indexed sound).enteredUnder answered indexed
        (ChangesAll.indexed changes indexed) (ChangesAll.sound changes indexed sound)
        (EntersAll.extension chain) (EntersAll.remembers chain)

end Creates

/-- The answer to a request to enter a composite, on a workbench without files. -/
def answerTo (session : Session) (catalogue : Catalogue) (composite : Composite) : Option Nat :=
  ((create (Session.printing "") composite).run
    (catalogue, session, .fresh "/tmp" .empty)).1.toOption

/-- A request that is answered and registers nothing. -/
theorem Creates.of_answer {session : Session} {unsized : List String}
    (reached : Session.Reached unsized session) (built : composite.isBuilt)
    (sameSize : (registryBehind session catalogue composite).size = session.registry.size)
    (answers : answerTo session catalogue composite = some id) :
    Creates session.registry catalogue composite id (entered session catalogue composite) := by
  have unchanged := registryBehind_eq reached sameSize
  unfold registryBehind at unchanged
  unfold answerTo at answers
  unfold entered
  generalize ran : (create (Session.printing "") composite).run
    (catalogue, session, .fresh "/tmp" .empty) = outcome at unchanged answers ⊢
  obtain ⟨result, after, session', bench'⟩ := outcome
  cases result with
  | error fault => cases answers
  | ok answer =>
      cases answers
      exact .answered built reached rfl unchanged ran

open Session (wordSession reached_wordSession plain_wordSession)

/-- A record with an array of records and a pointer, all of whose scalars have one spelling. -/
def spelledRecord (name : TypeName) : Composite :=
  .mk [.single "tag" (.scalar name), .array "points" (.composite (floatRecord name)) 2,
    .single "next" (.pointer (floatRecord name))] .natural

/-- A record in native spelling. -/
def inNative : Composite := spelledRecord (.native "float")

/-- That record in a spelling of the array library. -/
def inArrayLib : Composite := spelledRecord (.arrayLib "single")

/-- A catalogue with the record in native spelling. -/
def nativeFirst : Catalogue := entered wordSession .empty inNative

/-- That catalogue with the other spelling. -/
def arrayLibSecond : Catalogue := entered wordSession nativeFirst inArrayLib

/-- A catalogue with the record in the spelling of the array library. -/
def arrayLibFirst : Catalogue := entered wordSession .empty inArrayLib

/-- That catalogue with the native spelling. -/
def nativeSecond : Catalogue := entered wordSession arrayLibFirst inNative

/-- Whether what is seen of a definition for the array library is the same in whatever order two
composites with one key are entered. -/
def OrderFree {α : Type} (registry : Registry) (view : ArrayDtype → α) : Prop :=
  ∀ log origin one two middle last middle' last' idOne idTwo idOne' idTwo', Reached log origin →
    Creates registry origin one idOne middle → Creates registry middle two idTwo last →
    Creates registry origin two idTwo' middle' → Creates registry middle' one idOne' last' →
    last.key idOne = last.key idTwo →
      view (last.arrayDefinition idOne) = view (last'.arrayDefinition idOne')

/-- The names of the scalars that stand in a definition directly. -/
def directDtypes (definition : ArrayDtype) : List String :=
  definition.fields.filterMap fun field => match field.format with
    | .scalar dtype _ => some dtype
    | .record _ => none

/-- Two composites that are entered as the only structure of a catalogue in either order, without
anything being registered, and whose order is seen in the definition of that structure. -/
def TellsOrder {α : Type} (session : Session) (view : ArrayDtype → α) (one two : Composite) : Prop :=
  (∀ step ∈ [(Catalogue.empty, one), (entered session .empty one, two),
      (Catalogue.empty, two), (entered session .empty two, one)],
    (registryBehind session step.1 step.2).size = session.registry.size ∧
      answerTo session step.1 step.2 = some 0) ∧
  view ((entered session (entered session .empty one) two).arrayDefinition 0) ≠
    view ((entered session (entered session .empty two) one).arrayDefinition 0)

instance {α : Type} [DecidableEq α] (session : Session) (view : ArrayDtype → α)
    (one two : Composite) : Decidable (TellsOrder session view one two) :=
  inferInstanceAs (Decidable (_ ∧ _))

theorem TellsOrder.not_orderFree {α : Type} {session : Session} {view : ArrayDtype → α}
    {one two : Composite} (tells : TellsOrder session view one two)
    (reached : Session.Reached [] session) (built : one.isBuilt) (built' : two.isBuilt) :
    ¬ OrderFree session.registry view := by
  obtain ⟨answered, differ⟩ := tells
  obtain ⟨first, answered⟩ := List.forall_mem_cons.mp answered
  obtain ⟨second, answered⟩ := List.forall_mem_cons.mp answered
  obtain ⟨third, answered⟩ := List.forall_mem_cons.mp answered
  obtain ⟨fourth, -⟩ := List.forall_mem_cons.mp answered
  intro free
  exact differ (free _ _ _ _ _ _ _ _ _ _ _ _ .start (.of_answer reached built first.1 first.2)
    (.of_answer reached built' second.1 second.2) (.of_answer reached built' third.1 third.2)
    (.of_answer reached built fourth.1 fourth.2) rfl)

/-- A session in which a pointer is registered as an integer, and preferred among its family. -/
def pointerSession : Session :=
  ((Session.prefer (.native "int *")).run
    ((Session.register (.native "int *") (.signed 4)).run wordSession).2).2

end Catalogue

end TypeBridge
