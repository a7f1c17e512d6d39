import TypeBridge.Proofs.Marshal.Writing

/-!
# Nothing is lost in native memory

What is read from a buffer fits the shape that it was read with and has its form already, unless a
float in it is no number (`Faithful`); and the octets of a leaf are told by what is read
(`slice_eq_of_decode_eq`). So a well-formed shape loses no number of a value that it accepts, and no
octet of a leaf of a buffer that it reads: `encodeFresh_lossless`.
-/

namespace TypeBridge

/-! ## Scalars -/

/-- Whether a value is a float, but no number. -/
def Value.isNan : Value → Bool
  | .f32 bits => Binary.isNan32 bits
  | .f64 bits => Binary.isNan64 bits
  | _ => false

/-- Octets write a number that they have room for. -/
theorem ofLittleEndian_lt (octets : List UInt8) :
    ofLittleEndian octets < Nat.pow 256 octets.length := by
  induction octets with
  | nil => exact Nat.one_pos
  | cons octet rest ih =>
      have grow : Nat.pow 256 (rest.length + 1) = 256 * Nat.pow 256 rest.length := Nat.mul_comm _ _
      have small : octet.toNat < 256 := octet.toNat_lt
      rw [ofLittleEndian, List.length_cons, grow]
      omega

/-- Octets are told by the number that they write. -/
theorem littleEndian_ofLittleEndian (octets : List UInt8) :
    littleEndian octets.length (ofLittleEndian octets) = octets := by
  induction octets with
  | nil => rfl
  | cons octet rest ih =>
      have small : octet.toNat < 256 := octet.toNat_lt
      have high : (octet.toNat + 256 * ofLittleEndian rest) / 256 = ofLittleEndian rest := by omega
      have low : UInt8.ofNat (octet.toNat + 256 * ofLittleEndian rest) = octet := by
        rw [← UInt8.toNat_inj, UInt8.toNat_ofNat']
        omega
      rw [List.length_cons, ofLittleEndian, littleEndian, high, low, ih]

namespace ScalarKind

variable {kind : ScalarKind} {n m : Nat} {buffer other : List UInt8}

/-- What is read is a scalar of its kind, if it is a number at all. -/
theorem holds_scalarOf (number : (scalarOf kind n).isNan = false) :
    kind.Holds (scalarOf kind n) := by
  cases kind with
  | f32 => exact .f32 _ number
  | f64 => exact .f64 _ number
  | _ => constructor

/-- Different numbers of the octets of a scalar are read as different scalars. -/
theorem eq_of_scalarOf_eq (small : n < Nat.pow 256 kind.size)
    (otherSmall : m < Nat.pow 256 kind.size) (same : scalarOf kind n = scalarOf kind m) :
    n = m := by
  cases kind <;>
  · injection same with same
    have words := congrArg (fun word => word.toBitVec.toNat) same
    change (BitVec.ofNat _ n).toNat = (BitVec.ofNat _ m).toNat at words
    rw [BitVec.toNat_ofNat, BitVec.toNat_ofNat] at words
    simp only [size, TypeInfo.wordSize, Nat.pow_eq] at small otherSmall words
    omega

/-- The octets of a scalar are told by what is read from them. -/
theorem eq_of_decodeScalar_eq (length : buffer.length = kind.size)
    (otherLength : other.length = kind.size)
    (same : decodeScalar kind buffer = decodeScalar kind other) : buffer = other := by
  rw [decodeScalar, decodeScalar, ← length, List.take_length, length, ← otherLength,
    List.take_length] at same
  have number := eq_of_scalarOf_eq (length ▸ ofLittleEndian_lt buffer)
    (otherLength ▸ ofLittleEndian_lt other) same
  rw [← littleEndian_ofLittleEndian buffer, ← littleEndian_ofLittleEndian other, number, length,
    otherLength]

end ScalarKind

/-! ## Values of a shape's own form -/

/-- The values that a kind holds fit it, and have its form already. -/
def FieldKind.Faithful (kind : FieldKind) : Prop :=
  ∀ value, kind.Holds value →
    kind.Accepts value ∧ ∀ result, kind.Canonical value result → result = value

/-- Scalars are written and read back as they were. -/
theorem faithful_scalar (kind : ScalarKind) : (FieldKind.scalar kind).Faithful :=
  fun _ holds => ⟨ScalarKind.Holds.accepts holds, fun _ canonical => canonical.eq_of_holds holds⟩

/-- In a relation that only relates an item to itself, so does every list. -/
theorem forall₂_eq {α : Type} {related : α → α → Prop} {items results : List α}
    (same : ∀ item ∈ items, ∀ result, related item result → result = item)
    (all : List.Forall₂ related items results) : results = items := by
  induction all with
  | nil => rfl
  | cons one _ ih =>
      rw [List.forall_mem_cons] at same
      rw [same.1 _ one, ih same.2]

/-- A field is accepted with values of its kind, and read back as they were, if its kind is. -/
theorem FieldKind.Faithful.field {field : FieldShape} {value : Value}
    (faithful : field.kind.Faithful) (holds : field.Holds value) :
    field.Accepts value ∧ ∀ result, field.Canonical value result → result = value := by
  obtain ⟨name, kind, count, offset⟩ := field
  by_cases several : count > 1
  · simp only [FieldShape.Holds, FieldShape.Accepts, FieldShape.Canonical, if_pos several] at *
    obtain ⟨items, rfl, length, hold⟩ := holds
    refine ⟨⟨items, rfl, length, fun item member => (faithful item (hold item member)).1⟩, ?_⟩
    rintro _ ⟨_, results, ⟨⟩, rfl, all⟩
    rw [forall₂_eq (fun item member => (faithful item (hold item member)).2) all]
  · simp only [FieldShape.Holds, FieldShape.Accepts, FieldShape.Canonical, if_neg several] at *
    exact faithful value holds

/-- Fields are accepted with entries that are found by their names, and read back as they were. -/
theorem StructShape.FieldsHold.faithful {fields : List FieldShape}
    {entries : List (String × Value)} {value : Value} (hold : FieldsHold fields entries)
    (faithful : ∀ field ∈ fields, field.kind.Faithful)
    (found : ∀ entry ∈ entries, value.field? entry.1 = some entry.2) :
    FieldsAccept fields value ∧
      ∀ results, FieldsCanonical fields value results → results = entries := by
  induction fields generalizing entries with
  | nil =>
      obtain rfl := hold
      exact ⟨trivial, fun _ none => none⟩
  | cons field rest ih =>
      obtain ⟨item, more, rfl, holds, others⟩ := hold
      rw [List.forall_mem_cons] at faithful found
      obtain ⟨accepts, same⟩ := faithful.1.field holds
      obtain ⟨acceptOthers, sameOthers⟩ := ih others faithful.2 found.2
      refine ⟨⟨⟨item, found.1, accepts⟩, acceptOthers⟩, ?_⟩
      rintro _ ⟨item', result, later, rfl, other, canonical, canonicalOthers⟩
      obtain rfl : item = item' := Option.some.inj (found.1.symm.trans other)
      rw [same result canonical, sameOthers later canonicalOthers]

/-- A well-formed kind is written and read back as it was. -/
theorem FieldKind.WellFormed.faithful {kind : FieldKind} (wellFormed : kind.WellFormed) :
    kind.Faithful := by
  refine wellFormed.induct faithful_scalar fun shape wellFormed ih => ?_
  intro value holds
  have once := wellFormed.orderly.names
  obtain ⟨name, fields, size, align⟩ := shape
  obtain ⟨entries, rfl, hold⟩ := holds
  obtain ⟨accepts, same⟩ := hold.faithful ih (hold.found once)
  refine ⟨⟨⟨entries, rfl⟩, accepts⟩, ?_⟩
  rintro _ ⟨results, rfl, canonical⟩
  rw [same results canonical]

/-! ## Buffers -/

/-- What is read holds numbers if no leaf holds anything else. -/
def FieldKind.Numbers (kind : FieldKind) (buffer : List UInt8) : Prop :=
  ∀ leaf start, kind.Leaf leaf start →
    (decodeScalar leaf (slice buffer start leaf.size)).isNan = false

/-- A scalar is read from its own octets alone. -/
theorem decodeScalar_take (kind : ScalarKind) (buffer : List UInt8) :
    decodeScalar kind (buffer.take kind.size) = decodeScalar kind buffer := by
  rw [decodeScalar, decodeScalar, List.take_take, Nat.min_self]

/-- What is read of a field has the form of the field if what is read of each element has. -/
theorem FieldShape.holds_decode {field : FieldShape} {buffer : List UInt8}
    (filled : 1 ≤ field.count) (hold : ∀ index < field.count, field.kind.Holds
      (decodeKind field.kind
        (slice buffer (field.offset + index * field.kind.size) field.kind.size))) :
    field.Holds (decodeField field buffer) := by
  obtain ⟨name, kind, count, offset⟩ := field
  simp only [FieldShape.kind, FieldShape.offset, FieldShape.count] at filled hold
  by_cases several : count > 1
  · simp only [Holds, decodeField, if_pos several]
    refine ⟨_, rfl, by simp, fun item member => ?_⟩
    obtain ⟨index, small, rfl⟩ := List.mem_map.mp member
    exact hold index (List.mem_range.mp small)
  · simp only [Holds, decodeField, if_neg several]
    have first := hold 0 filled
    rwa [Nat.zero_mul, Nat.add_zero] at first

/-- The elements of a field are told by what is read from the field. -/
theorem FieldShape.element_of_decode_eq {field : FieldShape} {buffer other : List UInt8}
    (same : decodeField field buffer = decodeField field other) {index : Nat}
    (small : index < field.count) :
    decodeKind field.kind (slice buffer (field.offset + index * field.kind.size) field.kind.size) =
      decodeKind field.kind
        (slice other (field.offset + index * field.kind.size) field.kind.size) := by
  obtain ⟨name, kind, count, offset⟩ := field
  simp only [FieldShape.kind, FieldShape.offset, FieldShape.count] at small ⊢
  by_cases several : count > 1
  · simp only [decodeField, if_pos several] at same
    exact List.map_inj_left.mp (Value.array.inj same) index (List.mem_range.mpr small)
  · obtain rfl : index = 0 := by omega
    simp only [decodeField, if_neg several] at same
    rwa [Nat.zero_mul, Nat.add_zero]

namespace StructShape

variable {fields : List FieldShape} {buffer other : List UInt8}

/-- What is read of some fields has their form if what is read of each has. -/
theorem fieldsHold_decode (hold : ∀ field ∈ fields, field.Holds (decodeField field buffer)) :
    FieldsHold fields (decodeFields fields buffer) := by
  induction fields with
  | nil => rfl
  | cons field rest ih =>
      rw [List.forall_mem_cons] at hold
      exact ⟨_, _, rfl, hold.1, ih hold.2⟩

/-- Where all fields read alike, each of them does. -/
theorem field_of_decode_eq (same : decodeFields fields buffer = decodeFields fields other) :
    ∀ field ∈ fields, decodeField field buffer = decodeField field other := by
  induction fields with
  | nil => exact fun _ member => nomatch member
  | cons field rest ih =>
      obtain ⟨first, others⟩ := List.cons.inj same
      exact List.forall_mem_cons.mpr ⟨(Prod.mk.inj first).2, ih others⟩

end StructShape

namespace FieldKind

variable {kind : FieldKind} {buffer other : List UInt8} {leaf : ScalarKind} {start : Nat}

/-- The floats in a scalar are numbers exactly if it is read as one. -/
theorem numbers_scalar_iff {kind : ScalarKind} :
    (FieldKind.scalar kind).Numbers buffer ↔ (decodeScalar kind buffer).isNan = false := by
  have whole : decodeScalar kind (slice buffer 0 kind.size) = decodeScalar kind buffer := by
    rw [slice, List.drop_zero, decodeScalar_take]
  rw [← whole]
  refine ⟨fun numbers => numbers kind 0 (.scalar kind), ?_⟩
  rintro number _ _ ⟨⟩
  exact number

/-- A record holds numbers if each element of its fields does. -/
theorem numbers_struct_iff {shape : StructShape}
    (wellFormed : (FieldKind.struct shape).WellFormed) :
    (FieldKind.struct shape).Numbers buffer ↔
      ∀ field ∈ shape.fields, ∀ index < field.count, field.kind.Numbers
        (slice buffer (field.offset + index * field.kind.size) field.kind.size) := by
  constructor
  · intro numbers field member index small leaf start found
    rw [slice_slice ((wellFormed.field member).leaf_inside found)]
    exact numbers leaf _ (.field member small found)
  · rintro elements _ _ (_ | ⟨member, small, found⟩)
    rw [← slice_slice ((wellFormed.field member).leaf_inside found)]
    exact elements _ member _ small _ _ found

/-- What is read from a buffer of numbers has the form of the kind. -/
theorem WellFormed.holds_decode (wellFormed : kind.WellFormed) (numbers : kind.Numbers buffer) :
    kind.Holds (decodeKind kind buffer) := by
  suffices every : ∀ buffer, kind.Numbers buffer → kind.Holds (decodeKind kind buffer) from
    every buffer numbers
  refine wellFormed.induct ?scalar ?struct
  case scalar =>
    intro kind buffer numbers
    exact ScalarKind.holds_scalarOf (numbers_scalar_iff.mp numbers)
  case struct =>
    intro shape wellFormed ih buffer numbers
    have filled := wellFormed.orderly.filled
    have hold : ∀ field ∈ shape.fields, field.Holds (decodeField field buffer) :=
      fun field member => FieldShape.holds_decode (filled field member) fun index small =>
        ih field member _ ((numbers_struct_iff wellFormed).mp numbers field member index small)
    obtain ⟨name, fields, size, align⟩ := shape
    exact ⟨_, rfl, StructShape.fieldsHold_decode hold⟩

/-- The octets of a leaf are told by what is read. -/
theorem WellFormed.slice_eq_of_decode_eq (wellFormed : kind.WellFormed)
    (length : buffer.length = kind.size) (otherLength : other.length = kind.size)
    (same : decodeKind kind buffer = decodeKind kind other) (found : kind.Leaf leaf start) :
    slice buffer start leaf.size = slice other start leaf.size := by
  induction found generalizing buffer other with
  | scalar kind => rw [ScalarKind.eq_of_decodeScalar_eq length otherLength same]
  | @field shape field index start kind member small found ih =>
      have innerFormed := wellFormed.field member
      have inside : field.offset + field.count * field.kind.size ≤ shape.size :=
        wellFormed.orderly.inside field member
      have row := Nat.mul_le_mul_right field.kind.size (Nat.succ_le_of_lt small)
      rw [Nat.succ_mul] at row
      change buffer.length = shape.size at length
      change other.length = shape.size at otherLength
      -- Equal records have equal elements, and the leaf is one of the element that holds it.
      have element : decodeKind field.kind
            (slice buffer (field.offset + index * field.kind.size) field.kind.size) =
          decodeKind field.kind
            (slice other (field.offset + index * field.kind.size) field.kind.size) := by
        refine FieldShape.element_of_decode_eq ?_ small
        obtain ⟨name, fields, size, align⟩ := shape
        exact StructShape.field_of_decode_eq (Value.struct.inj same) field member
      have leaves := ih innerFormed (length_slice (by omega)) (length_slice (by omega)) element
      rwa [slice_slice (innerFormed.leaf_inside found), slice_slice (innerFormed.leaf_inside found)]
        at leaves

/-- Octets of a leaf are told by its slice. -/
theorem getElem?_eq_of_leaves {place : Nat} (covered : kind.Covers place)
    (leaves : ∀ leaf start, kind.Leaf leaf start →
      slice buffer start leaf.size = slice other start leaf.size) :
    buffer[place]? = other[place]? := by
  obtain ⟨leaf, start, found, lower, upper⟩ := covered
  obtain ⟨within, rfl⟩ := Nat.exists_eq_add_of_le lower
  have same := congrArg (fun octets => octets[within]?) (leaves leaf start found)
  simpa only [getElem?_slice, if_pos (by omega : within < leaf.size)] using same

/-- What is read from a buffer of numbers is written as the same octets of leaves. -/
theorem WellFormed.rewrites (wellFormed : kind.WellFormed) (length : buffer.length = kind.size)
    (numbers : kind.Numbers buffer) (otherLength : other.length = kind.size) :
    ∃ octets, encodeKind kind (decodeKind kind buffer) other = .ok octets ∧
      ∀ place, kind.Covers place → octets[place]? = buffer[place]? := by
  obtain ⟨accepts, same⟩ := wellFormed.faithful _ (wellFormed.holds_decode numbers)
  obtain ⟨octets, written, confined, canonical⟩ :=
    (wellFormed.lossless _ other otherLength).succeeds accepts
  refine ⟨octets, written, fun place covered => getElem?_eq_of_leaves covered fun leaf start => ?_⟩
  exact wellFormed.slice_eq_of_decode_eq (confined.length.trans otherLength) length
    (same _ canonical)

end FieldKind

/-! ## Shapes -/

/-- An octet of a leaf. -/
def Shape.Covers (shape : Shape) (place : Nat) : Prop :=
  ∃ leaf start, shape.Leaf leaf start ∧ start ≤ place ∧ place < start + leaf.size

/-- A buffer whose floats are numbers. -/
def Shape.Numbers (shape : Shape) (buffer : List UInt8) : Prop :=
  ∀ leaf start, shape.Leaf leaf start →
    (decodeScalar leaf (slice buffer start leaf.size)).isNan = false

/-- Writing into a fresh buffer decides whether a value fits. -/
theorem Shape.WellFormed.decides {shape : Shape} (wellFormed : shape.WellFormed) (value : Value) :
    Decides (shape.Accepts value) (encodeFresh shape value) fun octets =>
      Confined shape.Covers (List.replicate shape.size 0) octets ∧
        shape.Canonical value (decode shape octets) := by
  cases shape with
  | void =>
      cases value with
      | unit => exact ⟨fun _ => ⟨[], rfl, .refl _ _, rfl⟩, fun rejects => absurd rfl rejects⟩
      | _ => exact .refused (fun accepts => nomatch accepts) _ _
  | scalar kind => exact lossless_scalar kind value _ List.length_replicate
  | struct shape =>
      have wellFormed : (FieldKind.struct shape).WellFormed := wellFormed
      exact wellFormed.lossless value _ List.length_replicate

/-- Writing back what was read gives every covered octet as it was. -/
theorem Shape.WellFormed.rewrites {shape : Shape} (wellFormed : shape.WellFormed)
    {buffer : List UInt8} (length : buffer.length = shape.size) (numbers : shape.Numbers buffer) :
    ∃ octets, encodeFresh shape (decode shape buffer) = .ok octets ∧
      ∀ place, shape.Covers place → octets[place]? = buffer[place]? := by
  cases shape with
  | void => exact ⟨[], rfl, fun place ⟨_, _, nothing, _⟩ => nothing.elim⟩
  | scalar kind =>
      have wellFormed : (FieldKind.scalar kind).WellFormed := trivial
      exact wellFormed.rewrites length numbers List.length_replicate
  | struct shape =>
      have wellFormed : (FieldKind.struct shape).WellFormed := wellFormed
      exact wellFormed.rewrites length numbers List.length_replicate

/-- A well-formed shape loses nothing: a value is written exactly if it fits, never past the end of
the buffer, and is then read back in the shape's own form, with zeros between the leaves; what is
read from a buffer whose floats are numbers is written as the same octets of every leaf. -/
theorem encodeFresh_lossless (shape : Shape) (wellFormed : shape.WellFormed) :
    (∀ value, encodeFresh shape value ≠ .error .overrun ∧
      ((∃ octets, encodeFresh shape value = .ok octets) ↔ shape.Accepts value) ∧
      ∀ octets, encodeFresh shape value = .ok octets →
        octets.length = shape.size ∧ shape.Canonical value (decode shape octets) ∧
        ∀ place < shape.size, ¬shape.Covers place → octets[place]? = some 0) ∧
    ∀ buffer, buffer.length = shape.size → shape.Numbers buffer →
      ∃ octets, encodeFresh shape (decode shape buffer) = .ok octets ∧
        ∀ place, shape.Covers place → octets[place]? = buffer[place]? := by
  refine ⟨fun value => ?_, fun buffer length numbers => wellFormed.rewrites length numbers⟩
  have decides := wellFormed.decides value
  refine ⟨decides.ne_overrun, decides.isOk_iff, fun octets written => ?_⟩
  obtain ⟨confined, canonical⟩ := decides.good_of_ok written
  refine ⟨confined.length.trans List.length_replicate, canonical, fun place inside outside => ?_⟩
  rw [confined.others place outside, List.getElem?_replicate, if_pos inside]

/-- A record with a gap. -/
def pointShape : StructShape :=
  .mk "point" [.mk "x" (.scalar .i8) 1 0, .mk "y" (.scalar .f32) 1 4] 8 4

/-- A record whose last field is declared first. -/
def pointsShape : StructShape :=
  .mk "points" [.mk "tag" (.scalar .u8) 1 16, .mk "items" (.struct pointShape) 2 0] 20 4

/-- A point is well formed. -/
theorem wellFormed_pointShape : (FieldKind.struct pointShape).WellFormed := by
  refine FieldKind.wellFormed_struct ⟨by decide, by decide, by decide, ?_⟩
    (List.forall_mem_cons.mpr ⟨trivial, List.forall_mem_singleton.mpr trivial⟩)
  refine List.pairwise_pair.mpr fun place both => ?_
  have lower : 4 ≤ place := both.2.1
  have upper : place < 1 := both.1.2
  omega

/-- So is a row of points. -/
theorem wellFormed_pointsShape : (FieldKind.struct pointsShape).WellFormed := by
  refine FieldKind.wellFormed_struct ⟨by decide, by decide, by decide, ?_⟩
    (List.forall_mem_cons.mpr ⟨trivial, List.forall_mem_singleton.mpr wellFormed_pointShape⟩)
  refine List.pairwise_pair.mpr fun place both => ?_
  have lower : 16 ≤ place := both.1.1
  have upper : place < 16 := both.2.2
  omega

/-- Points with entries in another order and one more, and with numbers of other kinds. -/
def loosePoints : Value :=
  .struct [("items", .array [.struct [("y", .f64 0x3FF0000000000000), ("x", .i32 (-1))],
    .struct [("z", .unit), ("x", .bool true), ("y", .f32 0x40000000)]]), ("tag", .u64 7)]

/-- The same points in octets. -/
def writtenPoints : List UInt8 :=
  [255, 0, 0, 0, 0, 0, 128, 63, 1, 0, 0, 0, 0, 0, 0, 64, 7, 0, 0, 0]

/-- The same octets of leaves, with others in the gaps. -/
def paddedPoints : List UInt8 :=
  [255, 1, 2, 3, 0, 0, 128, 63, 1, 4, 5, 6, 0, 0, 0, 64, 7, 8, 9, 10]

/-- The floats in the padded points are numbers. -/
theorem numbers_paddedPoints : (FieldKind.struct pointsShape).Numbers paddedPoints := by
  refine (FieldKind.numbers_struct_iff wellFormed_pointsShape).mpr ?_
  refine List.forall_mem_cons.mpr ⟨fun _ _ => FieldKind.numbers_scalar_iff.mpr rfl,
    List.forall_mem_singleton.mpr fun index small => ?_⟩
  refine (FieldKind.numbers_struct_iff wellFormed_pointShape).mpr ?_
  simp only [pointShape, StructShape.fields, List.forall_mem_cons, FieldShape.kind,
    FieldKind.numbers_scalar_iff]
  change index < 2 at small
  refine ⟨?_, ?_, List.forall_mem_nil _⟩ <;> revert index <;> decide

/-- Loose values of points are written in their canonical form, and padded points are written
back. -/
theorem encodeFresh_lossless_points :
    (Shape.struct pointsShape).WellFormed ∧ (Shape.struct pointsShape).Accepts loosePoints ∧
      (Shape.struct pointsShape).Canonical loosePoints
        (decode (.struct pointsShape) writtenPoints) ∧
      ∃ octets, encodeFresh (.struct pointsShape) (decode (.struct pointsShape) paddedPoints) =
          .ok octets ∧
        ∀ place, (Shape.struct pointsShape).Covers place →
          octets[place]? = paddedPoints[place]? := by
  obtain ⟨write, reread⟩ := encodeFresh_lossless (.struct pointsShape) wellFormed_pointsShape
  obtain ⟨-, accepted, read⟩ := write loosePoints
  have written : encodeFresh (.struct pointsShape) loosePoints = .ok writtenPoints := by
    decide +kernel
  refine ⟨wellFormed_pointsShape, accepted.mp ⟨_, written⟩, (read _ written).2.1, ?_⟩
  exact reread paddedPoints rfl numbers_paddedPoints

end TypeBridge
