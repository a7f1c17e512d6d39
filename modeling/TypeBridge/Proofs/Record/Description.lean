import TypeBridge.Proofs.Record.History
import TypeBridge.Proofs.Record.Placement

/-!
# Descriptions of structures

An array-interface description is read from left to right: each entry takes the bytes that its type
string tells, or those of the entries in it, times its number of elements, and stands right behind
the entry before it (`Description.read?`). `description_tiles` says that the description of a
structure, read so, has each field at the offset of the layout and nameless entries exactly where no
field is, up to the size of the structure; and the same for each structure in it.
-/

namespace TypeBridge

open Text (Json)

/-! ## Stretches of bytes -/

/-- The bytes that an entry of a description takes. -/
structure Stretch where
  name : String
  start : Nat
  bytes : Nat
deriving Repr, DecidableEq

/-- Whether a byte is among those of a stretch. -/
def Stretch.Holds (stretch : Stretch) (byte : Nat) : Prop :=
  stretch.start ≤ byte ∧ byte < stretch.start + stretch.bytes

/-- Stretches that stand one behind the other, from one offset up to another. -/
inductive Contiguous : Nat → List Stretch → Nat → Prop where
  | nil {cursor : Nat} : Contiguous cursor [] cursor
  | cons {name : String} {cursor bytes last : Nat} {rest : List Stretch}
      (behind : Contiguous (cursor + bytes) rest last) :
      Contiguous cursor (⟨name, cursor, bytes⟩ :: rest) last

namespace Contiguous

variable {cursor last byte : Nat} {stretches : List Stretch} {stretch stretch' : Stretch}

/-- Stretches start at the cursor or behind it. -/
theorem start_le (contiguous : Contiguous cursor stretches last) (member : stretch ∈ stretches) :
    cursor ≤ stretch.start := by
  induction contiguous with
  | nil => cases member
  | cons _ ih =>
      rcases List.mem_cons.mp member with rfl | later
      · exact Nat.le_refl _
      · exact Nat.le_trans (Nat.le_add_right _ _) (ih later)

/-- The cursor never passes the end of the stretches. -/
theorem le_last (contiguous : Contiguous cursor stretches last) : cursor ≤ last := by
  induction contiguous with
  | nil => exact Nat.le_refl _
  | cons _ ih => exact Nat.le_trans (Nat.le_add_right _ _) ih

/-- Every stretch ends at the end of them all or before it. -/
theorem limit_le (contiguous : Contiguous cursor stretches last) (member : stretch ∈ stretches) :
    stretch.start + stretch.bytes ≤ last := by
  induction contiguous with
  | nil => cases member
  | cons behind ih =>
      rcases List.mem_cons.mp member with rfl | later
      · exact behind.le_last
      · exact ih later

/-- Every byte in between is in a stretch. -/
theorem exists_holds (contiguous : Contiguous cursor stretches last) (low : cursor ≤ byte)
    (high : byte < last) : ∃ stretch ∈ stretches, stretch.Holds byte := by
  induction contiguous with
  | nil => exact absurd high (Nat.not_lt.mpr low)
  | @cons name cursor bytes last rest behind ih =>
      by_cases first : byte < cursor + bytes
      · exact ⟨_, List.mem_cons_self, low, first⟩
      · obtain ⟨stretch, member, holds⟩ := ih (Nat.not_lt.mp first) high
        exact ⟨stretch, List.mem_cons_of_mem _ member, holds⟩

/-- No byte is in two stretches. -/
theorem eq_of_holds (contiguous : Contiguous cursor stretches last) (member : stretch ∈ stretches)
    (member' : stretch' ∈ stretches) (holds : stretch.Holds byte) (holds' : stretch'.Holds byte) :
    stretch = stretch' := by
  induction contiguous with
  | nil => cases member
  | @cons name cursor bytes last rest behind ih =>
      -- What stands behind the first stretch starts where that one ends.
      have apart : ∀ other ∈ rest, other.Holds byte → ¬ (⟨name, cursor, bytes⟩ : Stretch).Holds byte :=
        fun other later holds first =>
          absurd (Nat.le_trans (behind.start_le later) holds.1) (Nat.not_le.mpr first.2)
      rcases List.mem_cons.mp member with rfl | later
      · rcases List.mem_cons.mp member' with rfl | later'
        · rfl
        · exact absurd holds (apart _ later' holds')
      · rcases List.mem_cons.mp member' with rfl | later'
        · exact absurd holds' (apart _ later holds)
        · exact ih later later'

/-- The nameless stretches are the bytes that no named one takes. -/
theorem gap_iff (contiguous : Contiguous cursor stretches last) :
    (∃ gap ∈ stretches, gap.name = "" ∧ gap.Holds byte) ↔ (cursor ≤ byte ∧ byte < last) ∧
      ∀ named ∈ stretches.filter (·.name ≠ ""), ¬ named.Holds byte := by
  constructor
  · rintro ⟨gap, member, nameless, holds⟩
    refine ⟨⟨Nat.le_trans (contiguous.start_le member) holds.1,
      Nat.lt_of_lt_of_le holds.2 (contiguous.limit_le member)⟩, fun named listed holds' => ?_⟩
    obtain ⟨member', isNamed⟩ := List.mem_filter.mp listed
    cases contiguous.eq_of_holds member member' holds holds'
    exact absurd nameless (of_decide_eq_true isNamed)
  · rintro ⟨⟨low, high⟩, unnamed⟩
    obtain ⟨stretch, member, holds⟩ := contiguous.exists_holds low high
    refine ⟨stretch, member, ?_, holds⟩
    by_contra named
    exact unnamed stretch (List.mem_filter.mpr ⟨member, decide_eq_true named⟩) holds

end Contiguous

/-! ## Reading -/

namespace Description

/-- The size that a type string tells: the number behind its order mark and its letter. -/
def typeStringBytes? (typeString : String) : Option Nat :=
  let digits := typeString.toList.drop 2
  if digits ≠ [] ∧ digits.all Char.isDigit then some (Nat.ofDigitChars 10 digits 0) else none

mutual

/-- The bytes of an element: those that its type string tells, or those of the entries in it. -/
def formatBytes? : Json → Option Nat
  | .text typeString => typeStringBytes? typeString
  | .array entries => entriesBytes? entries
  | _ => none

/-- The bytes of some entries together. -/
def entriesBytes? : List Json → Option Nat
  | [] => some 0
  | entry :: rest => do
    let bytes ← entryBytes? entry
    let others ← entriesBytes? rest
    return bytes + others

/-- The bytes of an entry: those of an element, times the number of elements if there is one. -/
def entryBytes? : Json → Option Nat
  | .array [.text _, format] => formatBytes? format
  | .array [.text _, format, .array [.number count]] => do
    let bytes ← formatBytes? format
    return bytes * count
  | _ => none

end

/-- The name of an entry. -/
def entryName? : Json → Option String
  | .array (.text name :: _) => some name
  | _ => none

/-- The stretches of entries placed one behind the other from an offset on, and where they end. -/
def stretches? : Nat → List Json → Option (List Stretch × Nat)
  | cursor, [] => some ([], cursor)
  | cursor, entry :: rest => do
    let name ← entryName? entry
    let bytes ← entryBytes? entry
    let (others, last) ← stretches? (cursor + bytes) rest
    return (⟨name, cursor, bytes⟩ :: others, last)

/-- The stretches of a description, and where they end. -/
def read? : Json → Option (List Stretch × Nat)
  | .array entries => stretches? 0 entries
  | _ => none

/-! ## What can be read -/

variable {cursor middle last bytes : Nat} {name : String} {entry : Json} {entries others : List Json}
  {stretches behind : List Stretch}

/-- A number behind an order mark and a letter. -/
theorem typeStringBytes?_append {front : String} (two : front.toList.length = 2) (size : Nat) :
    typeStringBytes? (front ++ toString size) = some size := by
  have digits : (front ++ toString size).toList.drop 2 = Nat.toDigits 10 size := by
    rw [String.toList_append, ← two, List.drop_left]
    simp
  rw [typeStringBytes?, digits, if_pos, Nat.ofDigitChars_ten_toDigits]
  refine ⟨Nat.toDigits_ne_nil, List.all_eq_true.mpr fun c member => ?_⟩
  exact Nat.isDigit_of_mem_toDigits (by decide) (by decide) member

/-- A type string tells the size of the types that have it. -/
theorem typeStringBytes?_typeString {info : TypeInfo} {typeString : String}
    (spelled : info.typeString? = some typeString) : typeStringBytes? typeString = info.size := by
  obtain ⟨size, sized, rfl⟩ := Option.map_eq_some_iff.mp spelled
  rw [sized]
  refine typeStringBytes?_append ?_ size
  have mark : (TypeInfo.orderMark info.kind size).toList.length = 1 := by
    unfold TypeInfo.orderMark
    split <;> rfl
  have letter : (TypeInfo.kindLetter info.kind info.signage).toList.length = 1 := by
    unfold TypeInfo.kindLetter
    split <;> rfl
  rw [String.toList_append, List.length_append, mark, letter]

/-- An entry that is read as a stretch stands in front of the stretches of the rest. -/
theorem stretches?_cons (named : entryName? entry = some name) (sized : entryBytes? entry = some bytes)
    (read : stretches? (cursor + bytes) entries = some (behind, last)) :
    stretches? cursor (entry :: entries) = some (⟨name, cursor, bytes⟩ :: behind, last) := by
  rw [stretches?, named, sized]
  simp [read]

/-- The stretches of joined lists of entries are those of each, one behind the other. -/
theorem stretches?_append (read : stretches? cursor entries = some (stretches, middle))
    (readOthers : stretches? middle others = some (behind, last)) :
    stretches? cursor (entries ++ others) = some (stretches ++ behind, last) := by
  induction entries generalizing cursor stretches with
  | nil =>
      cases read
      exact readOthers
  | cons entry rest ih =>
      simp only [stretches?, Option.bind_eq_bind, Option.bind_eq_some_iff] at read
      obtain ⟨name, named, bytes, sized, ⟨later, ends⟩, readRest, same⟩ := read
      cases same
      exact stretches?_cons named sized (ih readRest)

/-- What is read stands one behind the other. -/
theorem contiguous_of_stretches? (read : stretches? cursor entries = some (stretches, last)) :
    Contiguous cursor stretches last := by
  induction entries generalizing cursor stretches with
  | nil =>
      cases read
      exact .nil
  | cons entry rest ih =>
      simp only [stretches?, Option.bind_eq_bind, Option.bind_eq_some_iff] at read
      obtain ⟨name, named, bytes, sized, ⟨later, ends⟩, readRest, same⟩ := read
      cases same
      exact .cons (ih readRest)

/-- Entries take together what lies between where they start and where they end. -/
theorem entriesBytes?_of_stretches? (read : stretches? cursor entries = some (stretches, last)) :
    entriesBytes? entries = some (last - cursor) := by
  induction entries generalizing cursor stretches with
  | nil =>
      cases read
      rw [Nat.sub_self]
      rfl
  | cons entry rest ih =>
      simp only [stretches?, Option.bind_eq_bind, Option.bind_eq_some_iff] at read
      obtain ⟨name, named, bytes, sized, ⟨later, ends⟩, readRest, same⟩ := read
      cases same
      have bound := (contiguous_of_stretches? readRest).le_last
      rw [entriesBytes?, sized, ih readRest]
      exact congrArg some (by omega)

/-- What is read of a description stands one behind the other. -/
theorem contiguous_of_read? {description : Json}
    (read : read? description = some (stretches, last)) : Contiguous 0 stretches last := by
  cases description with
  | array entries => exact contiguous_of_stretches? read
  | _ => cases read

/-- A nested description takes the bytes at which it ends. -/
theorem formatBytes?_of_read? {description : Json}
    (read : read? description = some (stretches, last)) : formatBytes? description = some last := by
  cases description with
  | array entries => exact entriesBytes?_of_stretches? read
  | _ => cases read

/-! ## Entries of fields and gaps -/

open ArrayDtype (gap fieldEntry fieldsDescr formatDescr descr endOf)

/-- A gap is one nameless stretch up to where it ends, or none. -/
theorem exists_stretches?_gap (ordered : cursor ≤ last) :
    ∃ stretches, stretches? cursor (gap cursor last) = some (stretches, last) ∧
      stretches.filter (·.name ≠ "") = [] := by
  unfold gap
  split
  · refine ⟨[⟨"", cursor, last - cursor⟩], ?_, rfl⟩
    refine stretches?_cons rfl (typeStringBytes?_append rfl (last - cursor)) ?_
    rw [Nat.add_sub_of_le ordered]
    rfl
  · have same : cursor = last := by omega
    exact ⟨[], congrArg (fun cursor => some ([], cursor)) same, rfl⟩

/-- The entry of a field carries the field's name. -/
theorem entryName?_fieldEntry (name : String) (format : Json) (count : Nat) :
    entryName? (fieldEntry name format count) = some name := rfl

/-- An entry takes the bytes of all elements of its field. -/
theorem entryBytes?_fieldEntry (name : String) {format : Json} {count : Nat} (filled : 0 < count)
    (sized : formatBytes? format = some bytes) :
    entryBytes? (fieldEntry name format count) = some (bytes * count) := by
  unfold fieldEntry
  split
  · rw [entryBytes?, sized]
    rfl
  · have single : count = 1 := by omega
    rw [entryBytes?, sized, single, Nat.mul_one]

end Description

/-! ## Fields in order -/

/-- The bytes of a field. -/
def ArrayField.stretch (field : ArrayField) : Stretch :=
  ⟨field.name, field.offset, field.elementSize * field.count⟩

/-- Fields that stand in order from an offset on and end before another one; each has elements, and
ends at a number that a word holds. -/
def ArrayField.InOrder (last : Nat) : Nat → List ArrayField → Prop
  | cursor, [] => cursor ≤ last
  | cursor, field :: rest => cursor ≤ field.offset ∧ 0 < field.count ∧
    field.limit = field.offset + field.elementSize * field.count ∧ InOrder last field.limit rest

namespace Description

open ArrayDtype (gap fieldEntry fieldsDescr formatDescr descr endOf)

/-- A field is described by the gap in front of it and its own entry. -/
theorem fieldsDescr_cons (cursor : Nat) (field : ArrayField) (rest : List ArrayField) :
    fieldsDescr cursor (field :: rest) = gap cursor field.offset ++
      fieldEntry field.name (formatDescr field.format) field.count ::
        fieldsDescr field.limit rest := by
  obtain ⟨name, offset, count, elementSize, format⟩ := field
  rw [fieldsDescr]
  rfl

/-- The description of fields in order is read as these fields, with nameless stretches between
them. -/
theorem exists_stretches?_fields {last : Nat} {fields : List ArrayField}
    (named : ∀ field ∈ fields, field.name ≠ "")
    (sized : ∀ field ∈ fields, formatBytes? (formatDescr field.format) = some field.elementSize)
    (cursor : Nat) (inOrder : ArrayField.InOrder last cursor fields) :
    ∃ stretches, stretches? cursor (fieldsDescr cursor fields ++ gap (endOf cursor fields) last) =
        some (stretches, last) ∧
      stretches.filter (·.name ≠ "") = fields.map ArrayField.stretch := by
  induction fields generalizing cursor with
  | nil => exact exists_stretches?_gap inOrder
  | cons field rest ih =>
      obtain ⟨start, filled, limit, later⟩ := inOrder
      obtain ⟨itsName, namedRest⟩ := List.forall_mem_cons.mp named
      obtain ⟨itsSize, sizedRest⟩ := List.forall_mem_cons.mp sized
      obtain ⟨front, readFront, nameless⟩ := exists_stretches?_gap start
      obtain ⟨behind, readBehind, others⟩ := ih namedRest sizedRest field.limit later
      refine ⟨front ++ field.stretch :: behind, ?_, ?_⟩
      · rw [fieldsDescr_cons, List.append_assoc]
        refine stretches?_append readFront ?_
        refine stretches?_cons (entryName?_fieldEntry field.name _ field.count)
          (entryBytes?_fieldEntry field.name filled itsSize) ?_
        rw [← limit]
        exact readBehind
      · have isNamed : field.stretch.name ≠ "" := itsName
        rw [List.filter_append, nameless, List.nil_append, List.filter_cons,
          if_pos (decide_eq_true isNamed), others, List.map_cons]

end Description

/-! ## Structures -/

/-- A definition that stands somewhere in another one, at any depth, or is that other one. -/
inductive ArrayDtype.Within (inner : ArrayDtype) : ArrayDtype → Prop where
  | itself : ArrayDtype.Within inner inner
  | field {outer middle : ArrayDtype} {field : ArrayField} (member : field ∈ outer.fields)
      (holds : field.format = .record middle) (within : ArrayDtype.Within inner middle) :
      ArrayDtype.Within inner outer

namespace Catalogue

variable {catalogue : Catalogue} {id : Nat}

/-- The bytes of the fields of a structure, as its layout has them. -/
def fieldStretches (catalogue : Catalogue) (id : Nat) : List Stretch :=
  ((catalogue.entry id).fields.zip (catalogue.layout id).offsets).map fun (field, offset) =>
    ⟨field.name, offset, (catalogue.memberLayout field).size * field.count⟩

/-- A member's layout keeps the number of items. -/
theorem count_memberLayout (field : ResolvedField) :
    (catalogue.memberLayout field).count = field.count := by
  unfold memberLayout memberLayoutWith
  split <;> rfl

/-- A field that ends at a number that a word holds ends behind its elements. -/
theorem limit_arrayField (definitionOf : Nat → ArrayDtype) {field : ResolvedField} {offset : Nat}
    (small : offset + (catalogue.memberLayout field).size * field.count < 0x10000000000000000) :
    (catalogue.arrayField definitionOf (field, offset)).limit =
      offset + (catalogue.memberLayout field).size * field.count := by
  have bytes : wrapWord ((catalogue.memberLayout field).size * field.count) =
      (catalogue.memberLayout field).size * field.count := Nat.mod_eq_of_lt (by omega)
  have limit : (catalogue.arrayField definitionOf (field, offset)).limit = wrapWord
    (offset + wrapWord ((catalogue.memberLayout field).size * field.count)) := rfl
  rw [limit, bytes]
  exact Nat.mod_eq_of_lt small

/-- Fields that were placed one after the other stand in order. -/
theorem inOrder_placed {cap : Nat} (positive : 0 < cap) (definitionOf : Nat → ArrayDtype)
    {fields : List ResolvedField} (counts : ∀ field ∈ fields, 0 < field.count) (cursor : Nat)
    {greatest : Nat} (greatestPositive : 0 < greatest)
    (fits : (Exact.placeFrom cap cursor greatest (fields.map catalogue.memberLayout)).size <
      0x10000000000000000) :
    ArrayField.InOrder
      (Exact.placeFrom cap cursor greatest (fields.map catalogue.memberLayout)).size cursor
      ((fields.zip (Exact.placeFrom cap cursor greatest
        (fields.map catalogue.memberLayout)).offsets).map (catalogue.arrayField definitionOf)) := by
  induction fields generalizing cursor greatest with
  | nil => exact Exact.le_roundUp greatestPositive cursor
  | cons field rest ih =>
      obtain ⟨filled, countsRest⟩ := List.forall_mem_cons.mp counts
      have positiveLater := Nat.lt_of_lt_of_le greatestPositive
        (Nat.le_max_left greatest ((catalogue.memberLayout field).cappedAlign cap))
      rw [List.map_cons, Exact.placeFrom, count_memberLayout] at fits ⊢
      have behind := Nat.lt_of_le_of_lt
        (Exact.offset_le_size positive positiveLater (rest.map catalogue.memberLayout) _) fits
      have limit := catalogue.limit_arrayField definitionOf behind
      refine ⟨Exact.le_roundUp ((catalogue.memberLayout field).cappedAlign_pos positive) cursor,
        filled, limit, ?_⟩
      rw [limit]
      exact ih countsRest _ positiveLater fits

/-- The fields of a definition stand in order. -/
theorem Sound.inOrder_arrayDefinition (sound : catalogue.Sound) (known : id < catalogue.size)
    (fits : catalogue.Fits id) :
    ArrayField.InOrder (catalogue.layout id).size 0 (catalogue.arrayDefinition id).fields := by
  have layout := sound.layout_eq_members known fits
  have small : (catalogue.layout id).size < 0x10000000000000000 := by
    rw [sound.layout_eq_exact known fits]
    exact fits
  rw [sound.arrayDefinition_eq known, ArrayDtype.fields]
  rw [layout] at small ⊢
  exact inOrder_placed (Packing.cap_pos _) _ (sound.entry id known).counts 0 Nat.one_pos small

/-- A definition in that of a structure is that of an earlier structure, or of this one. -/
theorem Sound.within_arrayDefinition (sound : catalogue.Sound) {inner : ArrayDtype}
    (known : id < catalogue.size) (fits : catalogue.Fits id)
    (within : inner.Within (catalogue.arrayDefinition id)) :
    ∃ child, child < catalogue.size ∧ catalogue.Fits child ∧
      inner = catalogue.arrayDefinition child := by
  generalize defined : catalogue.arrayDefinition id = outer at within
  induction within generalizing id with
  | itself => exact ⟨id, known, fits, defined.symm⟩
  | @field outer middle field member holds _ ih =>
      rw [sound.arrayDefinition_eq known] at defined
      rw [← defined, ArrayDtype.fields] at member
      obtain ⟨⟨declared, offset⟩, listed, rfl⟩ := List.mem_map.mp member
      have inside := (List.of_mem_zip listed).1
      obtain ⟨name, type, count⟩ := declared
      cases type with
      | scalar => cases holds
      | pointer => cases holds
      | record child =>
          have smaller := (sound.entry id known).child_lt inside child rfl
          exact ih (Nat.lt_trans smaller known) (sound.fits_child known fits inside child rfl)
            (ArrayFormat.record.inj holds)

/-- A definition of a structure whose description, read from left to right, has the fields at the
offsets of the layout and nameless entries for all other bytes of the structure. -/
structure Describes (catalogue : Catalogue) (id : Nat) (definition : ArrayDtype) : Prop where
  itemSize : definition.itemSize = (catalogue.layout id).size
  tiles : ∃ stretches,
    Description.read? definition.descr = some (stretches, definition.itemSize) ∧
    stretches.filter (·.name ≠ "") = catalogue.fieldStretches id ∧
    ∀ byte, (∃ gap ∈ stretches, gap.name = "" ∧ gap.Holds byte) ↔
      byte < definition.itemSize ∧ ∀ field ∈ catalogue.fieldStretches id, ¬ field.Holds byte

section Tiling

variable {admits : Registry → Registry → Prop} {log : EntryLog} {renamed : List Nat}

/-- The description of a structure can be read, and its fields are the named stretches. -/
theorem History.exists_read (history : History admits log renamed catalogue)
    (known : id < catalogue.size) (fits : catalogue.Fits id) : ∃ stretches,
      Description.read? (catalogue.arrayDefinition id).descr =
        some (stretches, (catalogue.layout id).size) ∧
      stretches.filter (·.name ≠ "") = catalogue.fieldStretches id := by
  have sound := history.reached.sound
  induction id using Nat.strongRecOn with
  | ind id ih =>
      have entry := sound.entry id known
      have inOrder := sound.inOrder_arrayDefinition known fits
      rw [sound.arrayDefinition_eq known] at inOrder ⊢
      have formats : ∀ field ∈ (((catalogue.entry id).fields.zip (catalogue.layout id).offsets).map
          (catalogue.arrayField catalogue.arrayDefinition)), field.name ≠ "" ∧
            Description.formatBytes? (ArrayDtype.formatDescr field.format) =
              some field.elementSize := by
        refine List.forall_mem_map.mpr fun (field, offset) listed => ?_
        have inside := (List.of_mem_zip listed).1
        have identifier := entry.identifiers field inside
        refine ⟨fun nameless => ?_, ?_⟩
        · have same : field.name = "" := nameless
          rw [same] at identifier
          exact absurd identifier (by decide)
        obtain ⟨name, type, count⟩ := field
        cases type with
        | scalar scalar typeString =>
            obtain ⟨_, _, _, _, named⟩ := history.scalar_named known inside rfl
            obtain ⟨info, spelled, sized⟩ := named.exists_info
            exact (Description.typeStringBytes?_typeString spelled).trans sized
        | pointer child => rfl
        | record child =>
            have smaller := entry.child_lt inside child rfl
            obtain ⟨_, read, -⟩ := ih child smaller (Nat.lt_trans smaller known)
              (sound.fits_child known fits inside child rfl)
            exact Description.formatBytes?_of_read? read
      obtain ⟨stretches, read, named⟩ := Description.exists_stretches?_fields
        (fun field member => (formats field member).1) (fun field member => (formats field member).2)
        0 inOrder
      refine ⟨stretches, ?_, ?_⟩
      · rw [ArrayDtype.descr]
        exact read
      · rw [named, fieldStretches, List.map_map]
        rfl

/-- The descriptions of structures are exact. For a structure whose bytes a word can count, the
entries of its description, placed one behind the other, stand for its fields in order, each at the
offset of the layout and with all its elements; nameless entries take exactly the bytes of no field;
and the last entry ends with the structure. The same holds for each structure in it, at any
depth. -/
theorem description_tiles (history : History admits log renamed catalogue)
    (known : id < catalogue.size) (fits : catalogue.Fits id) :
    catalogue.Describes id (catalogue.arrayDefinition id) ∧
    ∀ inner : ArrayDtype, inner.Within (catalogue.arrayDefinition id) → ∃ child,
      child < catalogue.size ∧ inner = catalogue.arrayDefinition child ∧
        catalogue.Describes child inner := by
  have describes : ∀ id, id < catalogue.size → catalogue.Fits id →
      catalogue.Describes id (catalogue.arrayDefinition id) := by
    intro id known fits
    have size : (catalogue.arrayDefinition id).itemSize = (catalogue.layout id).size := by
      rw [history.reached.sound.arrayDefinition_eq known, ArrayDtype.itemSize]
    obtain ⟨stretches, read, named⟩ := history.exists_read known fits
    refine ⟨size, stretches, size ▸ read, named, fun byte => ?_⟩
    rw [(Description.contiguous_of_read? read).gap_iff, named, size,
      and_iff_right (Nat.zero_le byte)]
  refine ⟨describes id known fits, fun inner within => ?_⟩
  obtain ⟨child, childKnown, childFits, rfl⟩ :=
    history.reached.sound.within_arrayDefinition known fits within
  exact ⟨child, childKnown, rfl, describes child childKnown childFits⟩

end Tiling

open Session (wordSession reached_wordSession)

/-- The catalogue with a record that holds an array of records, in a session that knows words. -/
def describedCatalogue : Catalogue := entered wordSession .empty heldRecord

/-- In the description of that record the fields stand at their offsets, and so they do in that of
the record in it. -/
theorem description_tiles_heldRecord :
    (∃ log, History (Unchanging wordSession.registry) log [] describedCatalogue) ∧
    1 < describedCatalogue.size ∧ describedCatalogue.Fits 1 ∧
    describedCatalogue.fieldStretches 1 = [⟨"tag", 0, 4⟩, ⟨"points", 4, 8⟩, ⟨"next", 16, 8⟩] ∧
    describedCatalogue.Describes 1 (describedCatalogue.arrayDefinition 1) := by
  have facts : (registryBehind wordSession .empty heldRecord).size = wordSession.registry.size ∧
      (1 < describedCatalogue.size ∧ describedCatalogue.Fits 1) ∧
      describedCatalogue.fieldStretches 1 =
        [⟨"tag", 0, 4⟩, ⟨"points", 4, 8⟩, ⟨"next", 16, 8⟩] := by
    decide +kernel
  obtain ⟨same, ⟨known, fits⟩, fields⟩ := facts
  obtain ⟨log, history⟩ :
      ∃ log, History (Unchanging wordSession.registry) log [] describedCatalogue :=
    History.start.entered reached_wordSession heldRecord rfl same
  exact ⟨⟨log, history⟩, known, fits, fields, (description_tiles history known fits).1⟩

end Catalogue

end TypeBridge
