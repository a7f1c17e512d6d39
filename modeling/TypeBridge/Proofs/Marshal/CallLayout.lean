import Mathlib.Data.List.Forall2
import TypeBridge.Marshal.CallType
import TypeBridge.Proofs.Record.ExactLayout

/-!
# The layout of the calling convention

The calling convention is told of the elements of a record and of nothing else, and works out a
layout by itself. `StructShape.Conforms` says of a shape that it finds the elements where the shape
has them; `conforms_of_placed` says that this is so when the fields of the shape were placed by
`Exact.placeFrom`.
-/

namespace TypeBridge

namespace CallType

variable {element : CallType} {cursor : Nat} {rest : List CallType}

/-- An element that ends at a multiple of its alignment, so that a row of them has no gaps. -/
structure Even (element : CallType) : Prop where
  positive : 0 < element.align
  multiple : element.align ∣ element.size

/-- What is aligned already is not moved. -/
theorem alignUp_alignUp (positive : 0 < element.align) (cursor : Nat) :
    alignUp (alignUp cursor element.align) element.align = alignUp cursor element.align :=
  Exact.roundUp_of_dvd positive (Exact.dvd_roundUp _ _)

/-- A row of an element, from a place where it can stand. -/
theorem offsetsFrom_replicate (even : element.Even) (aligned : element.align ∣ cursor)
    (count : Nat) : offsetsFrom cursor (List.replicate count element ++ rest) =
      (List.range count).map (fun index => cursor + index * element.size) ++
        offsetsFrom (cursor + count * element.size) rest := by
  induction count generalizing cursor with
  | zero => simp
  | succ count ih =>
      have start : alignUp cursor element.align = cursor :=
        Exact.roundUp_of_dvd even.positive aligned
      rw [List.replicate_succ, List.cons_append, offsetsFrom, start,
        ih (Nat.dvd_add aligned even.multiple), List.range_succ_eq_map, List.map_cons, List.map_map,
        List.cons_append]
      congr 1
      · omega
      · congr 1
        · refine List.map_congr_left fun index _ => ?_
          simp only [Function.comp_apply, Nat.succ_mul]
          omega
        · rw [Nat.succ_mul]
          congr 1
          omega

/-- A row of an element ends as far on as all its elements are large. -/
theorem endFrom_replicate (even : element.Even) (aligned : element.align ∣ cursor)
    (count : Nat) : endFrom cursor (List.replicate count element ++ rest) =
      endFrom (cursor + count * element.size) rest := by
  induction count generalizing cursor with
  | zero => simp
  | succ count ih =>
      have start : alignUp cursor element.align = cursor :=
        Exact.roundUp_of_dvd even.positive aligned
      rw [List.replicate_succ, List.cons_append, endFrom, start,
        ih (Nat.dvd_add aligned even.multiple), Nat.succ_mul]
      congr 1
      omega

/-- A row that is not empty starts at the next place where its element can stand. -/
theorem offsetsFrom_row (even : element.Even) {count : Nat} (filled : 0 < count) :
    offsetsFrom cursor (List.replicate count element ++ rest) =
      (List.range count).map (fun index => alignUp cursor element.align + index * element.size) ++
        offsetsFrom (alignUp cursor element.align + count * element.size) rest := by
  have aligned : element.align ∣ alignUp cursor element.align := Exact.dvd_roundUp _ _
  rw [← offsetsFrom_replicate even aligned]
  obtain ⟨count, rfl⟩ := Nat.exists_eq_succ_of_ne_zero (Nat.pos_iff_ne_zero.mp filled)
  simp only [List.replicate_succ, List.cons_append, offsetsFrom, alignUp_alignUp even.positive]

/-- A row that is not empty ends behind its elements, from the next place where they can stand. -/
theorem endFrom_row (even : element.Even) {count : Nat} (filled : 0 < count) :
    endFrom cursor (List.replicate count element ++ rest) =
      endFrom (alignUp cursor element.align + count * element.size) rest := by
  have aligned : element.align ∣ alignUp cursor element.align := Exact.dvd_roundUp _ _
  rw [← endFrom_replicate even aligned]
  obtain ⟨count, rfl⟩ := Nat.exists_eq_succ_of_ne_zero (Nat.pos_iff_ne_zero.mp filled)
  simp only [List.replicate_succ, List.cons_append, endFrom, alignUp_alignUp even.positive]

/-- A row is as strict as its element. -/
theorem strictest_row {count : Nat} (filled : 0 < count) :
    strictest (List.replicate count element ++ rest) = max element.align (strictest rest) := by
  induction count with
  | zero => cases filled
  | succ count ih =>
      rw [List.replicate_succ, List.cons_append, strictest]
      cases count with
      | zero => simp
      | succ count =>
          rw [ih (Nat.succ_pos _)]
          omega

/-- No elements are less strict than octets. -/
theorem one_le_strictest (elements : List CallType) : 1 ≤ strictest elements := by
  induction elements with
  | nil => exact Nat.le_refl _
  | cons element rest ih => exact Nat.le_trans ih (Nat.le_max_right _ _)

end CallType

/-! ## Shapes -/

namespace StructShape

/-- Where the elements of some fields start. -/
def elementOffsets (fields : List FieldShape) : List Nat :=
  fields.flatMap fun field =>
    (List.range field.count).map fun index => field.offset + index * field.kind.size

/-- The calling convention lays a record out as its shape has it. -/
structure Conforms (shape : StructShape) : Prop where
  offsets : shape.callType.offsets = elementOffsets shape.fields
  size : shape.callType.size = shape.size
  align : shape.callType.align = shape.align

/-- A record that stands somewhere in another one, at any depth, or is that other one. -/
inductive Within (inner : StructShape) : StructShape → Prop where
  | itself : Within inner inner
  | field {outer middle : StructShape} {field : FieldShape} (member : field ∈ outer.fields)
      (holds : field.kind = .struct middle) (within : Within inner middle) : Within inner outer

end StructShape

/-- A field of a shape that has the size, alignment and count of a member to be placed, and is no
other to the calling convention. -/
structure FieldShape.Matches (cap : Nat) (field : FieldShape) (member : MemberLayout) : Prop where
  count : field.count = member.count
  filled : 0 < field.count
  size : field.kind.size = member.size
  callSize : field.kind.callType.size = member.size
  callAlign : field.kind.callType.align = member.cappedAlign cap
  multiple : member.cappedAlign cap ∣ member.size

/-- A field that agrees with its member stands in rows without gaps. -/
theorem FieldShape.Matches.even {cap : Nat} (positive : 0 < cap) {field : FieldShape}
    {member : MemberLayout} (agrees : field.Matches cap member) : field.kind.callType.Even where
  positive := agrees.callAlign ▸ member.cappedAlign_pos positive
  multiple := by rw [agrees.callAlign, agrees.callSize]; exact agrees.multiple

/-- Fields placed one after the other stand where the calling convention finds their elements. -/
theorem placed_elements {cap : Nat} (positive : 0 < cap) {fields : List FieldShape}
    {members : List MemberLayout} (agree : List.Forall₂ (FieldShape.Matches cap) fields members)
    (cursor : Nat) {greatest : Nat} (greatestPositive : 0 < greatest)
    (offsets : fields.map FieldShape.offset = (Exact.placeFrom cap cursor greatest members).offsets) :
    CallType.offsetsFrom cursor (StructShape.callElements fields) =
        StructShape.elementOffsets fields ∧
      (Exact.placeFrom cap cursor greatest members).align =
        max greatest (CallType.strictest (StructShape.callElements fields)) ∧
      (Exact.placeFrom cap cursor greatest members).size =
        CallType.alignUp (CallType.endFrom cursor (StructShape.callElements fields))
          (Exact.placeFrom cap cursor greatest members).align := by
  induction agree generalizing cursor greatest with
  | nil =>
      refine ⟨rfl, ?_, rfl⟩
      rw [Exact.placeFrom, StructShape.callElements, CallType.strictest]
      exact (Nat.max_eq_left greatestPositive).symm
  | @cons field member fields members agrees _ ih =>
      obtain ⟨name, kind, count, offset⟩ := field
      have even : kind.callType.Even := agrees.even positive
      have filled : 0 < count := agrees.filled
      have countEq : count = member.count := agrees.count
      have sizeEq : kind.size = member.size := agrees.size
      have callSize : kind.callType.size = member.size := agrees.callSize
      have callAlign : kind.callType.align = member.cappedAlign cap := agrees.callAlign
      rw [Exact.placeFrom, List.map_cons] at offsets
      obtain ⟨start, offsets⟩ := List.cons.inj offsets
      obtain ⟨later, laterAlign, laterSize⟩ := ih _
        (Nat.lt_of_lt_of_le greatestPositive (Nat.le_max_left _ (member.cappedAlign cap))) offsets
      have start : offset = CallType.alignUp cursor kind.callType.align := by
        rw [callAlign]
        exact start
      have cursorEq : Exact.roundUp cursor (member.cappedAlign cap) + member.size * member.count =
          CallType.alignUp cursor kind.callType.align + count * kind.callType.size := by
        rw [callAlign, callSize, countEq, Nat.mul_comm member.size]
        rfl
      have atLeastOne : max count 1 = count := Nat.max_eq_left filled
      rw [cursorEq] at later laterAlign laterSize
      simp only [StructShape.callElements, Exact.placeFrom, atLeastOne, cursorEq]
      refine ⟨?_, ?_, ?_⟩
      · rw [CallType.offsetsFrom_row even filled, later, callSize, ← sizeEq, ← start]
        rfl
      · rw [CallType.strictest_row filled, laterAlign, callAlign, Nat.max_assoc]
      · rw [CallType.endFrom_row even filled, laterSize]

/-- A record whose fields were placed one after the other is laid out as its shape has it. -/
theorem conforms_of_placed {cap : Nat} (positive : 0 < cap) {shape : StructShape}
    {members : List MemberLayout}
    (agree : List.Forall₂ (FieldShape.Matches cap) shape.fields members)
    (placed : Exact.placeFrom cap 0 1 members =
      ⟨shape.fields.map FieldShape.offset, shape.size, shape.align⟩) : shape.Conforms := by
  obtain ⟨name, fields, size, align⟩ := shape
  obtain ⟨offsets, aligns, sizes⟩ := placed_elements positive agree 0 Nat.one_pos (by rw [placed])
  rw [placed] at aligns sizes
  have strict := Nat.max_eq_right (CallType.one_le_strictest (StructShape.callElements fields))
  have alignEq : align = CallType.strictest (StructShape.callElements fields) := aligns.trans strict
  refine ⟨offsets, ?_, alignEq.symm⟩
  rw [StructShape.callType, CallType.size, ← alignEq]
  exact sizes.symm

end TypeBridge
