import Mathlib.Data.List.Forall2
import Mathlib.Logic.Relation
import TypeBridge.Proofs.Ensures
import TypeBridge.Proofs.Record.EntryLog
import TypeBridge.Proofs.Record.Extension
import TypeBridge.Proofs.Record.WordLayout

/-!
# Entering composites

All that `Catalogue.create` changes is a chain of single entries, each of which `Enters` describes in
full: a composite that was not known yet, with its fields resolved against the structures that are
there. `createLogged_ensures` says so, whether the request is answered or fails on the way.
-/

namespace TypeBridge

mutual

/-- Whether a composite is one that can be put together: every field has an element. -/
def Composite.isBuilt : Composite → Bool
  | .mk fields _ => Composite.fieldsBuilt fields

/-- Whether all of some fields can be put together. -/
def Composite.fieldsBuilt : List Field → Bool
  | [] => true
  | .mk _ type count :: rest => decide (0 < count) && type.isBuilt && Composite.fieldsBuilt rest

/-- Whether what a field holds can be put together. -/
def MemberType.isBuilt : MemberType → Bool
  | .scalar _ => true
  | .composite child => child.isBuilt
  | .pointer child => child.isBuilt

end

/-- In two lists that go together, what stands in the second goes with something in the first. -/
theorem exists_of_mem_right {α β : Type} {relation : α → β → Prop} {items : List α}
    {answers : List β} (all : List.Forall₂ relation items answers) {answer : β}
    (member : answer ∈ answers) : ∃ item ∈ items, relation item answer := by
  induction all with
  | nil => cases member
  | cons head _ ih =>
      rcases List.mem_cons.mp member with rfl | later
      · exact ⟨_, List.mem_cons_self, head⟩
      · obtain ⟨item, inside, related⟩ := ih later
        exact ⟨item, List.mem_cons_of_mem _ inside, related⟩

namespace Catalogue

variable {catalogue before after : Catalogue} {composite : Composite} {id : Nat}

/-! ## Indexes -/

/-- The numbers in the indexes are those of structures. -/
structure Indexed (catalogue : Catalogue) : Prop where
  byType : ∀ composite id, catalogue.lookup composite = some id → id < catalogue.size
  byKey : ∀ key id, catalogue.byKey.lookup key = some id → id < catalogue.size

/-- A catalogue without structures is indexed. -/
theorem indexed_empty : empty.Indexed := ⟨nofun, nofun⟩

/-- Changed structures leave the indexes alone. -/
theorem Indexed.modified {after : Catalogue} (indexed : catalogue.Indexed)
    (size : after.size = catalogue.size) (byType : after.byType = catalogue.byType)
    (byKey : after.byKey = catalogue.byKey) : after.Indexed where
  byType composite id found := by
    rw [lookup, byType] at found
    rw [size]
    exact indexed.byType composite id found
  byKey key id found := by
    rw [byKey] at found
    rw [size]
    exact indexed.byKey key id found

/-- A composite that was noted is found as the structure it was noted for, and others as before. -/
theorem lookup_addType (other : Composite) : (catalogue.addType composite id).lookup other =
    if other = composite then some id else catalogue.lookup other := by
  simp only [lookup, addType, List.lookup_cons]
  split <;> simp_all

/-- A composite that was entered is found as the new structure, and others as before. -/
theorem lookup_push (entry : RecordEntry) (other : Composite) :
    (catalogue.push composite entry).lookup other =
      if other = composite then some catalogue.size else catalogue.lookup other := by
  simp only [lookup, push, List.lookup_cons, size]
  split <;> simp_all

/-- The new structure is found by its key, and others as before. -/
theorem byKey_push (entry : RecordEntry) (key : String) :
    (catalogue.push composite entry).byKey.lookup key =
      if key = entry.key then some catalogue.size else catalogue.byKey.lookup key := by
  simp only [push, List.lookup_cons, size]
  split <;> simp_all

/-! ## Resolved fields -/

/-- Whether a catalogue holds for a composite member what it was resolved to. -/
inductive ResolvesType (catalogue : Catalogue) : MemberType → ResolvedType → Prop where
  | scalar (name : TypeName) (scalar : ResolvedScalar) (typeString : String) :
      ResolvesType catalogue (.scalar name) (.scalar scalar typeString)
  | record {child : Composite} {id : Nat} (known : catalogue.lookup child = some id) :
      ResolvesType catalogue (.composite child) (.record id)
  | pointer {child : Composite} {id : Nat} (known : catalogue.lookup child = some id) :
      ResolvesType catalogue (.pointer child) (.pointer id)

/-- Whether a field of a composite was resolved to a field of a structure. -/
structure ResolvesField (catalogue : Catalogue) (field : Field) (resolved : ResolvedField) : Prop where
  name : resolved.name = field.name
  count : resolved.count = field.count
  identifier : isIdentifier field.name
  type : catalogue.ResolvesType field.type resolved.type

/-- What a resolved field refers to is there. -/
theorem ResolvesField.knows {field : Field} {resolved : ResolvedField}
    (resolves : catalogue.ResolvesField field resolved) (indexed : catalogue.Indexed) :
    catalogue.Knows resolved := by
  intro child refers
  obtain ⟨-, -, -, type⟩ := resolves
  obtain ⟨name, resolvedType, count⟩ := resolved
  generalize field.type = memberType at type
  cases type with
  | scalar => cases refers
  | record known => cases refers; exact indexed.byType _ _ known
  | pointer known => cases refers; exact indexed.byType _ _ known

/-- Whatever resolved fields refer to is there. -/
theorem knows_of_resolves {declared : List Field} {fields : List ResolvedField}
    (indexed : catalogue.Indexed)
    (resolved : List.Forall₂ catalogue.ResolvesField declared fields) :
    ∀ field ∈ fields, catalogue.Knows field := by
  intro field member
  obtain ⟨source, -, resolves⟩ := exists_of_mem_right resolved member
  exact resolves.knows indexed

/-- Composites that are known stay so. -/
def Remembers (before after : Catalogue) : Prop :=
  ∀ composite id, before.lookup composite = some id → after.lookup composite = some id

/-- What a field holds stays resolved when composites become known. -/
theorem ResolvesType.mono {type : MemberType} {resolved : ResolvedType}
    (remembers : before.Remembers after) (resolves : before.ResolvesType type resolved) :
    after.ResolvesType type resolved := by
  cases resolves with
  | scalar name scalar typeString => exact .scalar name scalar typeString
  | record known => exact .record (remembers _ _ known)
  | pointer known => exact .pointer (remembers _ _ known)

/-- A field stays resolved when composites become known. -/
theorem ResolvesField.mono {field : Field} {resolved : ResolvedField}
    (remembers : before.Remembers after) (resolves : before.ResolvesField field resolved) :
    after.ResolvesField field resolved :=
  { resolves with type := resolves.type.mono remembers }

/-! ## One entry -/

/-- The entry of a composite with resolved fields. -/
def newEntry (composite : Composite) (parts : List Piece) : RecordEntry where
  key := keyOf parts composite.packing
  name := canonicalName (keyOf parts composite.packing)
  packing := composite.packing
  fields := parts.map (·.field)
  layout := Wrapped.computeLayout (parts.map (·.layout)) composite.packing
  emitted := false

/-- A new structure has the fields that it was entered with. -/
@[simp] theorem fields_newEntry (composite : Composite) (fields : List ResolvedField) :
    (newEntry composite (fields.map catalogue.pieceOf)).fields = fields := by
  simp [newEntry, Function.comp_def, pieceOf]

/-- What is made sure of before a composite is entered with resolved fields. -/
structure Enterable (catalogue : Catalogue) (composite : Composite) (fields : List ResolvedField) :
    Prop where
  built : composite.isBuilt
  fresh : catalogue.lookup composite = none
  filled : composite.fields ≠ []
  packing : composite.packing.isValid
  resolved : List.Forall₂ catalogue.ResolvesField composite.fields fields

/-- A composite no larger than `bound` is entered: as the structure that has its key, or as a new
one that could be laid out. -/
inductive Enters (overflow : Overflow) (bound : Nat) : EntryLog × Catalogue → EntryLog × Catalogue → Prop where
  | merged {log : EntryLog} {catalogue : Catalogue} {composite : Composite}
      {fields : List ResolvedField} {id : Nat} (small : sizeOf composite ≤ bound)
      (enterable : catalogue.Enterable composite fields)
      (known : catalogue.byKey.lookup
        (keyOf (fields.map catalogue.pieceOf) composite.packing) = some id) :
      Enters overflow bound (log, catalogue) ((composite, fields) :: log, catalogue.addType composite id)
  | added {log : EntryLog} {catalogue : Catalogue} {composite : Composite}
      {fields : List ResolvedField} (small : sizeOf composite ≤ bound)
      (enterable : catalogue.Enterable composite fields)
      (unknown : catalogue.byKey.lookup
        (keyOf (fields.map catalogue.pieceOf) composite.packing) = none)
      (free : catalogue.byName.lookup
        (canonicalName (keyOf (fields.map catalogue.pieceOf) composite.packing)) = none)
      (laid : computeLayout overflow (fields.map catalogue.memberLayout) composite.packing =
        .ok (newEntry composite (fields.map catalogue.pieceOf)).layout) :
      Enters overflow bound (log, catalogue) ((composite, fields) :: log,
        catalogue.push composite (newEntry composite (fields.map catalogue.pieceOf)))

namespace Enters

variable {overflow : Overflow} {bound : Nat} {start last : EntryLog × Catalogue}

/-- An entry below a bound is one below any greater bound. -/
theorem mono {bound' : Nat} (le : bound ≤ bound') (enters : Enters overflow bound start last) :
    Enters overflow bound' start last := by
  cases enters with
  | merged small enterable known => exact .merged (Nat.le_trans small le) enterable known
  | added small enterable unknown free laid =>
      exact .added (Nat.le_trans small le) enterable unknown free laid

/-- Entries that are there are left alone. -/
theorem extension (enters : Enters overflow bound start last) : start.2.Extends last.2 := by
  cases enters with
  | merged => exact extends_addType _ _ _
  | added => exact extends_push _ _ _

/-- Entries that are there stay as they are. -/
theorem entry {id : Nat} (enters : Enters overflow bound start last) (known : id < start.2.size) :
    last.2.entry id = start.2.entry id := by
  cases enters with
  | merged => rfl
  | added => exact entry_push_of_lt known

/-- What is known is what was known and the composite entered. -/
theorem remembers (enters : Enters overflow bound start last) : start.2.Remembers last.2 := by
  intro composite id known
  cases enters with
  | merged _ enterable _ =>
      rw [lookup_addType]
      split
      · rename_i same
        rw [same, enterable.fresh] at known
        cases known
      · exact known
  | added _ enterable _ _ _ =>
      rw [lookup_push]
      split
      · rename_i same
        rw [same, enterable.fresh] at known
        cases known
      · exact known

/-- Nothing larger than the bound becomes known. -/
theorem lookup_of_lt {composite : Composite} (large : bound < sizeOf composite)
    (enters : Enters overflow bound start last) : last.2.lookup composite = start.2.lookup composite := by
  cases enters with
  | merged small _ _ =>
      rw [lookup_addType, if_neg]
      rintro rfl
      omega
  | added small _ _ _ _ =>
      rw [lookup_push, if_neg]
      rintro rfl
      omega

/-- An entry keeps the indexes to numbers of structures. -/
theorem indexed (enters : Enters overflow bound start last) (indexed : start.2.Indexed) :
    last.2.Indexed := by
  cases enters with
  | merged _ _ known =>
      refine ⟨fun composite id found => ?_, indexed.byKey⟩
      rw [lookup_addType] at found
      split at found
      · cases found
        exact indexed.byKey _ _ known
      · exact indexed.byType _ _ found
  | @added log catalogue _ _ =>
      refine ⟨fun composite id found => ?_, fun key id found => ?_⟩
      · rw [size_push]
        rw [lookup_push] at found
        split at found
        · cases found
          exact Nat.lt_succ_self _
        · exact Nat.lt_succ_of_lt (indexed.byType _ _ found)
      · rw [size_push]
        rw [byKey_push] at found
        split at found
        · cases found
          exact Nat.lt_succ_self _
        · exact Nat.lt_succ_of_lt (indexed.byKey _ _ found)

end Enters

/-- A chain of entries. -/
abbrev EntersAll (overflow : Overflow) (bound : Nat) : EntryLog × Catalogue → EntryLog × Catalogue → Prop :=
  Relation.ReflTransGen (Enters overflow bound)

namespace EntersAll

variable {overflow : Overflow} {bound : Nat} {start last : EntryLog × Catalogue}

/-- Entries below a bound are entries below any greater bound. -/
theorem mono {bound' : Nat} (le : bound ≤ bound') (chain : EntersAll overflow bound start last) :
    EntersAll overflow bound' start last :=
  Relation.ReflTransGen.mono (fun _ _ enters => Enters.mono le enters) _ _ chain

/-- Entries that are there are left alone all along. -/
theorem extension (chain : EntersAll overflow bound start last) : start.2.Extends last.2 := by
  induction chain with
  | refl => exact .refl _
  | tail _ enters ih => exact ih.trans enters.extension

/-- A structure that is there stays as it is all along. -/
theorem entry {id : Nat} (chain : EntersAll overflow bound start last) (known : id < start.2.size) :
    last.2.entry id = start.2.entry id := by
  induction chain with
  | refl => rfl
  | tail before enters ih =>
      have still := Nat.lt_of_lt_of_le known (EntersAll.extension before).size
      rw [enters.entry still, ih]

/-- What is known stays known all along. -/
theorem remembers (chain : EntersAll overflow bound start last) : start.2.Remembers last.2 := by
  induction chain with
  | refl => exact fun _ _ known => known
  | tail _ enters ih => exact fun composite id known => enters.remembers _ _ (ih composite id known)

/-- Nothing larger than the bound becomes known all along. -/
theorem lookup_of_lt {composite : Composite} (large : bound < sizeOf composite)
    (chain : EntersAll overflow bound start last) :
    last.2.lookup composite = start.2.lookup composite := by
  induction chain with
  | refl => rfl
  | tail _ enters ih => exact (enters.lookup_of_lt large).trans ih

/-- A chain of entries keeps the indexes to numbers of structures. -/
theorem indexed (chain : EntersAll overflow bound start last) (indexed : start.2.Indexed) :
    last.2.Indexed := by
  induction chain with
  | refl => exact indexed
  | tail _ enters ih => exact enters.indexed ih

end EntersAll

/-! ## Requests as chains of entries -/

/-- A composite is entered as the structure that has its key, or as a new one that could be laid out.
It is refused because the name for it is taken, or the program stops at its layout. -/
theorem enter_ensures (overflow : Overflow) (composite : Composite) (parts : List Piece)
    (catalogue : Catalogue) :
    (enter overflow composite parts).Ensures catalogue
      (fun id after =>
        (catalogue.byKey.lookup (keyOf parts composite.packing) = some id ∧
          after = catalogue.addType composite id) ∨
        (catalogue.byKey.lookup (keyOf parts composite.packing) = none ∧
          catalogue.byName.lookup (canonicalName (keyOf parts composite.packing)) = none ∧
          computeLayout overflow (parts.map (·.layout)) composite.packing =
            .ok (newEntry composite parts).layout ∧
          id = catalogue.size ∧ after = catalogue.push composite (newEntry composite parts)))
      (fun fault after => after = catalogue ∧ ∀ operation, fault = .overflow operation →
        computeLayout overflow (parts.map (·.layout)) composite.packing = .error operation) := by
  unfold Step.Ensures Step.run enter
  dsimp only
  cases known : catalogue.byKey.lookup (keyOf parts composite.packing) with
  | some id =>
      refine ⟨fun answer same => ?_, fun fault absurd => by cases absurd⟩
      cases same
      exact Or.inl ⟨rfl, rfl⟩
  | none =>
      cases free : catalogue.byName.lookup (canonicalName (keyOf parts composite.packing)) with
      | some other =>
          dsimp only [Option.isSome]
          rw [if_pos rfl]
          refine ⟨fun answer absurd => (by cases absurd), fun fault same => ⟨rfl, ?_⟩⟩
          cases same
          exact nofun
      | none =>
          dsimp only [Option.isSome]
          rw [if_neg Bool.false_ne_true]
          cases laid : computeLayout overflow (parts.map (·.layout)) composite.packing with
          | error operation =>
              refine ⟨fun answer absurd => (by cases absurd), fun fault same => ⟨rfl, ?_⟩⟩
              cases same
              rintro _ ⟨⟩
              rfl
          | ok layout =>
              refine ⟨fun answer same => ?_, fun fault absurd => by cases absurd⟩
              cases same
              cases eq_wrapped_of_computeLayout laid
              exact Or.inr ⟨rfl, rfl, rfl, rfl, rfl⟩

/-- The layouts of pieces are those of the fields that they are for. -/
theorem map_layout_pieceOf (fields : List ResolvedField) :
    (fields.map catalogue.pieceOf).map (·.layout) = fields.map catalogue.memberLayout := by
  simp [Function.comp_def, pieceOf]

/-- What entering a composite with resolved fields does to catalogue and log. -/
theorem enterLogged_ensures {bound : Nat} {log : EntryLog} {fields : List ResolvedField}
    {rest : Session × Workbench} (overflow : Overflow) (small : sizeOf composite ≤ bound)
    (enterable : catalogue.Enterable composite fields) :
    (enterLogged overflow composite (fields.map catalogue.pieceOf)).Ensures (log, catalogue, rest)
      (fun id after => Enters overflow bound (log, catalogue) (after.1, after.2.1) ∧
        after.2.1.lookup composite = some id)
      (fun _ after => (after.1, after.2.1) = (log, catalogue)) := by
  have noted : (fields.map catalogue.pieceOf).map (·.field) = fields :=
    fields_newEntry composite fields
  have entered : (enter overflow composite (fields.map catalogue.pieceOf)).Ensures catalogue
      (fun id after => Enters overflow bound (log, catalogue) ((composite, fields) :: log, after) ∧
        after.lookup composite = some id)
      (fun _ after => after = catalogue) := by
    refine (enter_ensures overflow composite _ catalogue).mono (fun id after outcome => ?_)
      (fun _ _ refused => refused.1)
    rw [map_layout_pieceOf] at outcome
    rcases outcome with ⟨known, rfl⟩ | ⟨unknown, free, laid, rfl, rfl⟩
    · exact ⟨.merged small enterable known, by rw [lookup_addType, if_pos rfl]⟩
    · exact ⟨.added small enterable unknown free laid, by rw [lookup_push, if_pos rfl]⟩
  refine Step.Ensures.bind (fun id after =>
    after.1 = log ∧
      Enters overflow bound (log, catalogue) ((composite, fields) :: log, after.2.1) ∧
      after.2.1.lookup composite = some id) ?_ fun id after holds => ?_
  · refine Step.Ensures.onSecond (Step.Ensures.onFirst (entered.mono ?_ ?_))
    · exact fun _ _ holds => ⟨rfl, holds⟩
    · rintro _ _ rfl
      rfl
  · obtain ⟨sameLog, enters, known⟩ := holds
    refine Step.Ensures.bind (fun _ after =>
      Enters overflow bound (log, catalogue) (after.1, after.2.1) ∧
        after.2.1.lookup composite = some id)
      (Step.Ensures.modify ?_) fun _ _ holds => Step.Ensures.pure holds
    rw [noted, sameLog]
    exact ⟨enters, known⟩

/-- A packing that passes the check is one that the native compiler honours. -/
theorem isValid_of_check {packing : Packing} (checked : packing.check = .ok ()) :
    packing.isValid := by
  cases packing with
  | natural => rfl
  | packed bytes =>
      simp only [Packing.check] at checked
      split at checked
      · assumption
      · cases checked

/-- A name that passes the check is an identifier. -/
theorem isIdentifier_of_check {name : String} (checked : checkIdentifier name = .ok ()) :
    isIdentifier name := by
  unfold checkIdentifier at checked
  split at checked
  · assumption
  · cases checked

/-- Naming a scalar leaves the catalogue alone. -/
theorem resolveScalar_ensures (machine : Machine) (name : TypeName) (catalogue : Catalogue)
    (rest : Session × Workbench) : (resolveScalar machine name).Ensures (catalogue, rest)
      (fun _ after => after.1 = catalogue) (fun _ after => after.1 = catalogue) := by
  rw [resolveScalar]
  refine Step.Ensures.bind (fun _ after => after.1 = catalogue)
    (Step.Ensures.onSecond ⟨fun _ _ => rfl, fun _ _ => rfl⟩) ?_
  intro scalar after same
  exact Step.Ensures.bind_get (Step.Ensures.pure same)

/-- The catalogue and the log behind a request arise from those before it by a chain of entries. -/
abbrev Chained (overflow : Overflow) (bound : Nat) (log : EntryLog) (catalogue : Catalogue)
    (after : EntryLog × Catalogue × Session × Workbench) : Prop :=
  EntersAll overflow bound (log, catalogue) (after.1, after.2.1)

mutual

/-- Entering a composite is a chain of entries, the last of which is its own. -/
theorem createLogged_ensures (machine : Machine) : (composite : Composite) → composite.isBuilt →
    ∀ log (catalogue : Catalogue) rest, catalogue.Indexed →
      (createLogged machine composite).Ensures (log, catalogue, rest)
        (fun id after => Chained machine.overflow (sizeOf composite) log catalogue after ∧
          after.2.1.lookup composite = some id)
        (fun _ after => Chained machine.overflow (sizeOf composite) log catalogue after)
  | .mk fields packing, built, log, catalogue, (session, bench), indexed => by
    rw [createLogged]
    apply Step.Ensures.bind_get
    dsimp only
    cases fresh : catalogue.lookup (.mk fields packing) with
    | some id => exact Step.Ensures.pure ⟨Relation.ReflTransGen.refl, fresh⟩
    | none =>
        by_cases filled : fields.isEmpty
        · rw [if_pos filled]
          exact Step.Ensures.bind_fail Relation.ReflTransGen.refl
        · rw [if_neg filled]
          have smaller : sizeOf fields < sizeOf (Composite.mk fields packing) := by
            rw [Composite.mk.sizeOf_spec]
            omega
          refine Step.Ensures.bind_ofExcept ?_ fun _ _ => Relation.ReflTransGen.refl
          intro _ checked
          have valid := isValid_of_check checked
          refine Step.Ensures.bind _ ((createFieldsLogged_ensures machine fields built log catalogue
            (session, bench) indexed).mono_failed
              fun _ _ chain => EntersAll.mono (Nat.le_of_lt smaller) chain) ?_
          rintro parts ⟨log', catalogue', rest'⟩ ⟨chain, resolved, rfl, resolves⟩
          have enterable : catalogue'.Enterable (.mk fields packing) resolved :=
            { built := built
              fresh := (chain.lookup_of_lt smaller).trans fresh
              filled := fun empty => filled (by simp [show fields = [] from empty])
              packing := valid
              resolved := resolves }
          refine (enterLogged_ensures machine.overflow (Nat.le_refl _) enterable).mono ?_ ?_
          · rintro id after ⟨enters, known⟩
            exact ⟨(EntersAll.mono (Nat.le_of_lt smaller) chain).tail enters, known⟩
          · rintro fault after same
            rw [Chained, same]
            exact EntersAll.mono (Nat.le_of_lt smaller) chain

/-- Resolving fields is a chain of entries; the fields are resolved against all of them. -/
theorem createFieldsLogged_ensures (machine : Machine) : (fields : List Field) →
    Composite.fieldsBuilt fields → ∀ log (catalogue : Catalogue) rest, catalogue.Indexed →
      (createFieldsLogged machine fields).Ensures (log, catalogue, rest)
        (fun parts after => Chained machine.overflow (sizeOf fields) log catalogue after ∧
          ∃ resolved, parts = resolved.map after.2.1.pieceOf ∧
            List.Forall₂ after.2.1.ResolvesField fields resolved)
        (fun _ after => Chained machine.overflow (sizeOf fields) log catalogue after)
  | [], _, log, catalogue, rest, _ => by
    rw [createFieldsLogged]
    exact Step.Ensures.pure ⟨Relation.ReflTransGen.refl, [], rfl, .nil⟩
  | .mk name type count :: others, built, log, catalogue, rest, indexed => by
    rw [createFieldsLogged]
    have memberSmaller : sizeOf type ≤ sizeOf (Field.mk name type count :: others) := by
      rw [List.cons.sizeOf_spec, Field.mk.sizeOf_spec]
      omega
    have othersSmaller : sizeOf others ≤ sizeOf (Field.mk name type count :: others) := by
      rw [List.cons.sizeOf_spec]
      omega
    simp only [Composite.fieldsBuilt, Bool.and_eq_true, decide_eq_true_eq] at built
    obtain ⟨⟨-, memberBuilt⟩, othersBuilt⟩ := built
    refine Step.Ensures.bind_ofExcept ?_ fun _ _ => Relation.ReflTransGen.refl
    intro _ checked
    have identifier := isIdentifier_of_check checked
    refine Step.Ensures.bind _ ((createMemberLogged_ensures machine type memberBuilt log catalogue
      rest indexed).mono_failed fun _ _ chain => EntersAll.mono memberSmaller chain) ?_
    rintro ⟨resolved, size, align, part⟩ ⟨log₁, catalogue₁, rest₁⟩ ⟨chain₁, resolves, piece⟩
    have indexed₁ : catalogue₁.Indexed := chain₁.indexed indexed
    refine Step.Ensures.bind _ ((createFieldsLogged_ensures machine others othersBuilt log₁ catalogue₁
      rest₁ indexed₁).mono_failed fun _ _ chain => (EntersAll.mono memberSmaller chain₁).trans
          (EntersAll.mono othersSmaller chain)) ?_
    rintro parts ⟨log₂, catalogue₂, rest₂⟩ ⟨chain₂, resolvedOthers, rfl, resolvesOthers⟩
    have field : catalogue₁.ResolvesField (.mk name type count) ⟨name, resolved, count⟩ :=
      ⟨rfl, rfl, identifier, resolves⟩
    refine Step.Ensures.pure ⟨(EntersAll.mono memberSmaller chain₁).trans
      (EntersAll.mono othersSmaller chain₂), ⟨name, resolved, count⟩ :: resolvedOthers, ?_, ?_⟩
    · rw [List.map_cons, chain₂.extension.pieceOf (field.knows indexed₁), piece name count]
    · exact .cons (field.mono chain₂.remembers) resolvesOthers

/-- Resolving what a field holds is a chain of entries; the piece of the field is that of its
resolved type. -/
theorem createMemberLogged_ensures (machine : Machine) : (type : MemberType) → type.isBuilt →
    ∀ log (catalogue : Catalogue) rest, catalogue.Indexed →
      (createMemberLogged machine type).Ensures (log, catalogue, rest)
        (fun answer after => Chained machine.overflow (sizeOf type) log catalogue after ∧
          after.2.1.ResolvesType type answer.1 ∧
          ∀ name count, after.2.1.pieceOf ⟨name, answer.1, count⟩ =
            ⟨⟨name, answer.1, count⟩, ⟨answer.2.1, answer.2.2.1, count⟩,
              fieldKey name answer.2.2.2 count⟩)
        (fun _ after => Chained machine.overflow (sizeOf type) log catalogue after)
  | .scalar name, _, log, catalogue, rest, _ => by
    rw [createMemberLogged]
    refine Step.Ensures.bind (fun _ after => (after.1, after.2.1) = (log, catalogue))
      (Step.Ensures.onSecond ((resolveScalar_ensures machine name catalogue rest).mono ?_ ?_)) ?_
    · rintro _ _ rfl
      rfl
    · rintro _ ⟨_, _⟩ rfl
      exact Relation.ReflTransGen.refl
    · rintro ⟨scalar, typeString⟩ ⟨log', catalogue', rest'⟩ same
      cases same
      exact Step.Ensures.pure ⟨Relation.ReflTransGen.refl, .scalar name scalar typeString,
        fun _ _ => rfl⟩
  | .composite child, built, log, catalogue, rest, indexed => by
    rw [createMemberLogged]
    have smaller : sizeOf child ≤ sizeOf (MemberType.composite child) := by
      rw [MemberType.composite.sizeOf_spec]
      omega
    refine Step.Ensures.bind _ ((createLogged_ensures machine child built log catalogue rest
      indexed).mono_failed fun _ _ chain => EntersAll.mono smaller chain) ?_
    rintro id after ⟨chain, known⟩
    apply Step.Ensures.bind_get
    exact Step.Ensures.pure ⟨EntersAll.mono smaller chain, .record known, fun _ _ => rfl⟩
  | .pointer child, built, log, catalogue, rest, indexed => by
    rw [createMemberLogged]
    have smaller : sizeOf child ≤ sizeOf (MemberType.pointer child) := by
      rw [MemberType.pointer.sizeOf_spec]
      omega
    refine Step.Ensures.bind _ ((createLogged_ensures machine child built log catalogue rest
      indexed).mono_failed fun _ _ chain => EntersAll.mono smaller chain) ?_
    rintro id after ⟨chain, known⟩
    apply Step.Ensures.bind_get
    exact Step.Ensures.pure ⟨EntersAll.mono smaller chain, .pointer known, fun _ _ => rfl⟩

end

end Catalogue

end TypeBridge
