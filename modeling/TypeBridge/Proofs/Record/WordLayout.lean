import TypeBridge.Proofs.Ensures
import TypeBridge.Record.Layout

/-!
# Layouts as words hold them

`Wrapped.computeLayout` works out the layout of a record without ever stopping: every number is what
a word holds of it. A program that goes on at overflow comes to that layout (`computeLayout_wraps`),
and one that stops there comes to no other (`eq_wrapped_of_computeLayout`).
-/

namespace TypeBridge

/-! ## Operations on words -/

namespace Overflow

variable {overflow : Overflow} {operation : WordOperation} {n word : Nat}

/-- A result that a word holds is the outcome of an operation in every build. -/
theorem word_of_lt (overflow : Overflow) (operation : WordOperation)
    (small : n < 0x10000000000000000) : overflow.word operation n = .ok n := by
  cases overflow with
  | caught => exact if_pos small
  | wraps => exact congrArg Except.ok (Nat.mod_eq_of_lt small)

/-- An operation comes to what a word holds of its result, if it comes to anything. -/
theorem eq_wrapWord_of_word (answers : overflow.word operation n = .ok word) :
    word = wrapWord n := by
  cases overflow with
  | caught =>
      rw [Overflow.word] at answers
      split at answers
      · rename_i small
        cases answers
        exact (Nat.mod_eq_of_lt small).symm
      · cases answers
  | wraps =>
      cases answers
      rfl

/-- Where overflow is caught, an operation answers if and only if a word holds its result. -/
theorem word_caught_eq_ok_iff : caught.word operation n = .ok word ↔
    n < 0x10000000000000000 ∧ word = n := by
  rw [Overflow.word]
  split
  · rename_i small
    rw [Except.ok.injEq, eq_comm]
    exact (and_iff_right small).symm
  · rename_i large
    exact ⟨nofun, fun fits => absurd fits.1 large⟩

end Overflow

/-! ## Layouts -/

namespace Wrapped

/-- The next multiple of an alignment, as a word holds it. -/
def roundUp (value align : Nat) : Nat :=
  wrapWord ((value / align + if value % align = 0 then 0 else 1) * align)

/-- Place members from an offset on, with the greatest alignment so far. -/
def placeFrom (cap offset align : Nat) : List MemberLayout → Layout
  | [] => ⟨[], roundUp offset align, align⟩
  | member :: rest =>
    let memberAlign := member.cappedAlign cap
    let start := roundUp offset memberAlign
    let layout := placeFrom cap (wrapWord (start + wrapWord (member.size * member.count)))
      (max align memberAlign) rest
    { layout with offsets := start :: layout.offsets }

/-- The layout of a record as words hold it. -/
def computeLayout (members : List MemberLayout) (packing : Packing) : Layout :=
  placeFrom packing.cap 0 1 members

end Wrapped

section Members

variable {overflow : Overflow} {cap offset align : Nat} {members : List MemberLayout}
  {packing : Packing} {layout : Layout}

/-- A program that goes on at overflow places members as words hold their offsets. -/
theorem placeFrom_wraps (cap offset align : Nat) (members : List MemberLayout) :
    placeFrom .wraps cap offset align members =
      .ok (Wrapped.placeFrom cap offset align members) := by
  induction members generalizing offset align with
  | nil => rfl
  | cons member rest ih =>
      have behind := ih (wrapWord (Wrapped.roundUp offset (member.cappedAlign cap) +
        wrapWord (member.size * member.count))) (max align (member.cappedAlign cap))
      exact congrArg (Except.map fun layout : Layout => { layout with
        offsets := Wrapped.roundUp offset (member.cappedAlign cap) :: layout.offsets }) behind

/-- Members are placed as words hold their offsets, or not at all. -/
theorem eq_wrapped_of_placeFrom
    (placed : placeFrom overflow cap offset align members = .ok layout) :
    layout = Wrapped.placeFrom cap offset align members := by
  induction members generalizing offset align layout with
  | nil =>
      obtain ⟨size, rounded, same⟩ := exists_of_bind_ok placed
      cases same
      rw [Overflow.eq_wrapWord_of_word rounded]
      rfl
  | cons member rest ih =>
      obtain ⟨start, rounded, placed⟩ := exists_of_bind_ok placed
      obtain ⟨bytes, product, placed⟩ := exists_of_bind_ok placed
      obtain ⟨stop, sum, placed⟩ := exists_of_bind_ok placed
      obtain ⟨behind, later, same⟩ := exists_of_bind_ok placed
      cases same
      cases Overflow.eq_wrapWord_of_word rounded
      cases Overflow.eq_wrapWord_of_word product
      cases Overflow.eq_wrapWord_of_word sum
      rw [ih later]
      rfl

/-- A program that goes on at overflow lays a record out as words hold it. -/
theorem computeLayout_wraps (members : List MemberLayout) (packing : Packing) :
    computeLayout .wraps members packing = .ok (Wrapped.computeLayout members packing) :=
  placeFrom_wraps _ _ _ _

/-- A record is laid out as words hold it, or not at all. -/
theorem eq_wrapped_of_computeLayout (laid : computeLayout overflow members packing = .ok layout) :
    layout = Wrapped.computeLayout members packing :=
  eq_wrapped_of_placeFrom laid

end Members

end TypeBridge
