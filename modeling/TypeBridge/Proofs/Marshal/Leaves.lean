import TypeBridge.Proofs.Marshal.Confusion

/-!
# The octets of a shape

The scalars in a shape, at any depth, are its leaves; the octets that no leaf covers are never
written. Fields may stand in any order as long as no octet belongs to two of them: `Orderly` says so
of one record, and `WellFormed` of all the records in a shape. Since the fields of a record need not
be written from front to back, a step is described by the places that it may change (`Confined`).
-/

namespace TypeBridge

/-! ## Steps that change a buffer in some places -/

section Regions

variable {region wider : Nat → Prop} {buffer before middle after part : List UInt8}
  {offset size place : Nat}

/-- The places of a region, counted from an offset on. -/
def Shifted (offset : Nat) (region : Nat → Prop) (place : Nat) : Prop :=
  ∃ within, region within ∧ place = offset + within

/-- A buffer behind a step that changes nothing but octets of a region. -/
structure Confined (region : Nat → Prop) (before after : List UInt8) : Prop where
  length : after.length = before.length
  others : ∀ place, ¬region place → after[place]? = before[place]?

namespace Confined

/-- A buffer that did not change differs from itself nowhere. -/
theorem refl (region : Nat → Prop) (buffer : List UInt8) : Confined region buffer buffer :=
  ⟨rfl, fun _ _ => rfl⟩

/-- Two changes inside one region make a change inside it. -/
theorem trans (start : Confined region before middle) (last : Confined region middle after) :
    Confined region before after :=
  ⟨last.length.trans start.length, fun place outside =>
    (last.others place outside).trans (start.others place outside)⟩

/-- A change inside a region is one inside every wider region. -/
theorem mono (confined : Confined region before after)
    (inside : ∀ place, region place → wider place) : Confined wider before after :=
  ⟨confined.length, fun place outside =>
    confined.others place fun within => outside (inside place within)⟩

end Confined

/-- An octet of a slice is the octet of the buffer that far behind the slice's start. -/
theorem getElem?_slice (buffer : List UInt8) (offset size place : Nat) :
    (slice buffer offset size)[place]? =
      if place < size then buffer[offset + place]? else none := by
  rw [slice, List.getElem?_take, List.getElem?_drop]

/-- A slice of a slice is a slice of the buffer. -/
theorem slice_slice {inner : Nat} (inside : offset + inner ≤ size) (start : Nat) :
    slice (slice buffer start size) offset inner = slice buffer (start + offset) inner := by
  refine List.ext_getElem? fun place => ?_
  simp only [getElem?_slice]
  by_cases small : place < inner
  · rw [if_pos small, if_pos small, if_pos (by omega), Nat.add_assoc]
  · rw [if_neg small, if_neg small]

/-- A part with no place of the region is read alike before and after. -/
theorem Confined.slice_eq (confined : Confined region before after)
    (apart : ∀ place, offset ≤ place → place < offset + size → ¬region place) :
    slice after offset size = slice before offset size := by
  refine List.ext_getElem? fun place => ?_
  rw [getElem?_slice, getElem?_slice]
  by_cases small : place < size
  · rw [if_pos small, if_pos small, confined.others _ (apart _ (by omega) (by omega))]
  · rw [if_neg small, if_neg small]

/-- A part of a buffer that is written over changes the buffer in its own places. -/
theorem confined_splice (fits : offset + size ≤ buffer.length)
    (confined : Confined region (slice buffer offset size) part) :
    Confined (Shifted offset region) buffer (splice buffer offset part) where
  length := by
    have length := confined.length.trans (length_slice fits)
    simp only [splice, List.length_append, List.length_take, List.length_drop]
    omega
  others := by
    intro place outside
    have length := confined.length.trans (length_slice fits)
    have front : (buffer.take offset).length = offset := by
      rw [List.length_take]
      omega
    rw [splice, List.append_assoc]
    by_cases early : place < offset
    · rw [List.getElem?_append_left (by omega), List.getElem?_take_of_lt early]
    · obtain ⟨within, rfl⟩ := Nat.exists_eq_add_of_le (Nat.le_of_not_lt early)
      rw [List.getElem?_append_right (by omega), front, Nat.add_sub_cancel_left]
      by_cases own : within < part.length
      · have same := confined.others within fun held => outside ⟨within, held, rfl⟩
        rw [List.getElem?_append_left own, same, getElem?_slice, if_pos (by omega)]
      · rw [List.getElem?_append_right (by omega), List.getElem?_drop]
        congr 1
        omega

end Regions

/-! ## Leaves -/

/-- A scalar of a kind that starts at a place of an element. -/
inductive FieldKind.Leaf : FieldKind → ScalarKind → Nat → Prop where
  | scalar (kind : ScalarKind) : Leaf (.scalar kind) kind 0
  | field {shape : StructShape} {field : FieldShape} {index start : Nat} {kind : ScalarKind}
      (member : field ∈ shape.fields) (small : index < field.count)
      (leaf : Leaf field.kind kind start) :
      Leaf (.struct shape) kind (field.offset + index * field.kind.size + start)

/-- An octet of a leaf. -/
def FieldKind.Covers (kind : FieldKind) (place : Nat) : Prop :=
  ∃ leaf start, kind.Leaf leaf start ∧ start ≤ place ∧ place < start + leaf.size

/-- An octet of a leaf in a row of elements. -/
def FieldKind.RowCovers (kind : FieldKind) (offset count place : Nat) : Prop :=
  ∃ index, index < count ∧ Shifted (offset + index * kind.size) kind.Covers place

/-- An octet of a leaf of a field. -/
def FieldShape.Covers (field : FieldShape) (place : Nat) : Prop :=
  field.kind.RowCovers field.offset field.count place

/-- An octet of a field, be it of a leaf or not. -/
def FieldShape.Spans (field : FieldShape) (place : Nat) : Prop :=
  field.offset ≤ place ∧ place < field.offset + field.count * field.kind.size

/-- A scalar of a kind that starts at a place of a value. -/
def Shape.Leaf : Shape → ScalarKind → Nat → Prop
  | .void, _, _ => False
  | .scalar kind, leaf, start => (FieldKind.scalar kind).Leaf leaf start
  | .struct shape, leaf, start => (FieldKind.struct shape).Leaf leaf start

/-! ## Well-formed shapes -/

/-- A record whose fields have names of their own, an element at least, and a part of the record of
their own. -/
structure StructShape.Orderly (shape : StructShape) : Prop where
  names : (shape.fields.map FieldShape.name).Nodup
  filled : ∀ field ∈ shape.fields, 1 ≤ field.count
  inside : ∀ field ∈ shape.fields, field.offset + field.count * field.kind.size ≤ shape.size
  apart : shape.fields.Pairwise fun field other => ∀ place, ¬(field.Spans place ∧ other.Spans place)

/-- A record that is orderly, as is every record in it. -/
def StructShape.WellFormed (shape : StructShape) : Prop :=
  ∀ inner : StructShape, inner.Within shape → inner.Orderly

/-- An element whose records are orderly. -/
def FieldKind.WellFormed : FieldKind → Prop
  | .scalar _ => True
  | .struct shape => shape.WellFormed

/-- A shape whose records are orderly. -/
def Shape.WellFormed : Shape → Prop
  | .struct shape => shape.WellFormed
  | _ => True

namespace FieldKind

variable {kind : FieldKind} {place start : Nat} {leaf : ScalarKind}

/-- A structure whose fields stand in order is well formed when each field's kind is. -/
theorem wellFormed_struct {shape : StructShape} (orderly : shape.Orderly)
    (fields : ∀ field ∈ shape.fields, field.kind.WellFormed) :
    (FieldKind.struct shape).WellFormed := by
  intro inner within
  cases within with
  | itself => exact orderly
  | field member holds within =>
      have wellFormed := fields _ member
      rw [holds] at wellFormed
      exact wellFormed inner within

/-- The kind of each field of a well-formed structure is well formed. -/
theorem WellFormed.field {shape : StructShape} (wellFormed : (FieldKind.struct shape).WellFormed)
    {field : FieldShape} (member : field ∈ shape.fields) : field.kind.WellFormed := by
  cases holds : field.kind with
  | scalar kind => trivial
  | struct inner => exact fun _ within => wellFormed _ (.field member holds within)

/-- What holds of every scalar, and of a well-formed record whenever it holds of its fields, holds
of every well-formed element. -/
@[elab_as_elim]
theorem WellFormed.induct {motive : FieldKind → Prop} (scalar : ∀ kind, motive (.scalar kind))
    (struct : ∀ shape : StructShape, (FieldKind.struct shape).WellFormed →
      (∀ field ∈ shape.fields, motive field.kind) → motive (.struct shape))
    (wellFormed : kind.WellFormed) : motive kind := by
  cases kind with
  | scalar kind => exact scalar kind
  | struct shape =>
      induction shape using StructShape.induct with
      | step shape ih =>
          refine struct shape wellFormed fun field member => ?_
          have inside := wellFormed.field member
          cases holds : field.kind with
          | scalar kind => exact scalar kind
          | struct inner => exact ih field member inner holds (holds ▸ inside)

/-- The fields of a well-formed structure stand in order. -/
theorem WellFormed.orderly {shape : StructShape}
    (wellFormed : (FieldKind.struct shape).WellFormed) : shape.Orderly :=
  wellFormed shape .itself

/-- A leaf ends in its element. -/
theorem WellFormed.leaf_inside (wellFormed : kind.WellFormed) (found : kind.Leaf leaf start) :
    start + leaf.size ≤ kind.size := by
  suffices every : ∀ leaf start, kind.Leaf leaf start → start + leaf.size ≤ kind.size from
    every leaf start found
  refine wellFormed.induct ?scalar ?struct
  case scalar =>
    rintro kind _ _ ⟨⟩
    exact Nat.le_of_eq (Nat.zero_add _)
  case struct =>
    intro shape wellFormed ih leaf start found
    cases found with
    | @field _ field index start _ member small found =>
        have inner := ih field member leaf start found
        have row := Nat.mul_le_mul_right field.kind.size (Nat.succ_le_of_lt small)
        have inside : _ ≤ (FieldKind.struct shape).size := wellFormed.orderly.inside field member
        rw [Nat.succ_mul] at row
        omega

/-- What a well-formed kind covers lies within its size. -/
theorem WellFormed.covers_lt (wellFormed : kind.WellFormed) (covered : kind.Covers place) :
    place < kind.size := by
  obtain ⟨leaf, start, found, -, upper⟩ := covered
  exact Nat.lt_of_lt_of_le upper (wellFormed.leaf_inside found)

/-- The leaves of a row are those of its first element and those of the row behind it. -/
theorem rowCovers_succ {offset count : Nat} : kind.RowCovers offset (count + 1) place ↔
    Shifted offset kind.Covers place ∨ kind.RowCovers (offset + kind.size) count place := by
  constructor
  · rintro ⟨index, small, covered⟩
    cases index with
    | zero => exact .inl (by simpa using covered)
    | succ index =>
        refine .inr ⟨index, Nat.lt_of_succ_lt_succ small, ?_⟩
        rwa [Nat.succ_mul, Nat.add_comm (index * kind.size), ← Nat.add_assoc] at covered
  · rintro (covered | ⟨index, small, covered⟩)
    · exact ⟨0, Nat.succ_pos _, by simpa using covered⟩
    · refine ⟨index + 1, Nat.succ_lt_succ small, ?_⟩
      rwa [Nat.succ_mul, Nat.add_comm (index * kind.size), ← Nat.add_assoc]

end FieldKind

/-- The leaves of a field lie in its part of the record. -/
theorem FieldShape.Covers.spans {field : FieldShape} {place : Nat}
    (wellFormed : field.kind.WellFormed) (covered : field.Covers place) : field.Spans place := by
  obtain ⟨index, small, within, inner, rfl⟩ := covered
  have lt := wellFormed.covers_lt inner
  have row := Nat.mul_le_mul_right field.kind.size (Nat.succ_le_of_lt small)
  rw [Nat.succ_mul] at row
  exact ⟨by omega, by omega⟩

/-- The leaves of a record are those of its fields. -/
theorem StructShape.covers_iff {shape : StructShape} {place : Nat} :
    (FieldKind.struct shape).Covers place ↔ ∃ field ∈ shape.fields, field.Covers place := by
  constructor
  · rintro ⟨leaf, start, found, lower, upper⟩
    cases found with
    | @field _ field index start _ member small found =>
        refine ⟨field, member, index, small, place - (field.offset + index * field.kind.size), ?_,
          by omega⟩
        exact ⟨leaf, start, found, by omega, by omega⟩
  · rintro ⟨field, member, index, small, within, ⟨leaf, start, found, lower, upper⟩, rfl⟩
    exact ⟨leaf, _, .field member small found, by omega, by omega⟩

end TypeBridge
