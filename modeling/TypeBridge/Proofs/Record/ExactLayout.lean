import Mathlib.Tactic.SplitIfs
import TypeBridge.Proofs.Record.Soundness

/-!
# Layouts that fit into words

A layout is worked out on 64-bit words. `Exact.placeFrom` does the same on unbounded numbers, and
`placeFrom_eq_exact` says that the two agree in every build whenever the exact size is a word. Where
overflow is caught a layout is worked out in no other case (`computeLayout_caught_eq_ok_iff`).
`exactLayout` is the layout of a structure worked out without words all the way down.
-/

namespace TypeBridge

namespace Exact

variable {value align cap offset : Nat}

/-- A value is rounded up to whole alignments, one more if some of the value is left. -/
theorem roundUp_eq_mul (positive : 0 < align) (value : Nat) :
    roundUp value align = (value / align + if value % align = 0 then 0 else 1) * align := by
  unfold roundUp
  congr 1
  have split := Nat.div_add_mod value align
  have small := Nat.mod_lt value positive
  have arrange : value + align - 1 = (value % align + (align - 1)) + align * (value / align) := by
    omega
  rw [arrange, Nat.add_mul_div_left _ _ positive, Nat.add_comm]
  congr 1
  by_cases exact : value % align = 0
  · rw [if_pos exact, exact, Nat.zero_add, Nat.div_eq_of_lt (by omega)]
  · rw [if_neg exact]
    refine Nat.div_eq_of_lt_le ?_ ?_ <;> omega

/-- Rounding up takes nothing away. -/
theorem le_roundUp (positive : 0 < align) (value : Nat) : value ≤ roundUp value align := by
  rw [roundUp_eq_mul positive]
  have split := Nat.div_add_mod value align
  have small := Nat.mod_lt value positive
  have commuted := Nat.mul_comm align (value / align)
  rw [Nat.add_mul]
  split <;> omega

/-- A rounded value is a multiple of the alignment. -/
theorem dvd_roundUp (value align : Nat) : align ∣ roundUp value align := Nat.dvd_mul_left _ _

/-- A multiple stays as it is. -/
theorem roundUp_of_dvd (positive : 0 < align) (multiple : align ∣ value) :
    roundUp value align = value := by
  rw [roundUp_eq_mul positive, if_pos (Nat.mod_eq_zero_of_dvd multiple), Nat.add_zero,
    Nat.div_mul_cancel multiple]

end Exact

/-- Rounding up on words is exact in every build when the result is a word. -/
theorem roundUp_eq_exact {value align : Nat} (overflow : Overflow) (positive : 0 < align)
    (fits : Exact.roundUp value align < 0x10000000000000000) :
    roundUp overflow value align = .ok (Exact.roundUp value align) := by
  rw [roundUp, ← Exact.roundUp_eq_mul positive, overflow.word_of_lt .multiply fits]

/-- Where overflow is caught, rounding up answers for an exact result that is a word alone. -/
theorem roundUp_caught_eq_ok_iff {value align word : Nat} (positive : 0 < align) :
    roundUp .caught value align = .ok word ↔
      Exact.roundUp value align < 0x10000000000000000 ∧ word = Exact.roundUp value align := by
  rw [roundUp, Overflow.word_caught_eq_ok_iff, ← Exact.roundUp_eq_mul positive]

/-! ## Alignments -/

/-- Every packing allows some alignment. -/
theorem Packing.cap_pos (packing : Packing) : 0 < packing.cap := by
  cases packing with
  | natural => decide
  | packed bytes => simp only [Packing.cap, maxAlign]; omega

/-- No member is aligned to zero. -/
theorem MemberLayout.cappedAlign_pos {cap : Nat} (positive : 0 < cap) (member : MemberLayout) :
    0 < member.cappedAlign cap := by
  simp only [MemberLayout.cappedAlign]
  omega

/-! ## Placing members -/

/-- Every member has an offset. -/
theorem length_offsets_placeFrom (members : List MemberLayout) (cap offset align : Nat) :
    (Wrapped.placeFrom cap offset align members).offsets.length = members.length := by
  induction members generalizing offset align with
  | nil => rfl
  | cons member rest ih => exact congrArg (· + 1) (ih _ _)

namespace Exact

variable {cap offset align : Nat}

/-- The alignment of a structure is no less for having members. -/
theorem align_le_placeFrom (members : List MemberLayout) :
    align ≤ (placeFrom cap offset align members).align := by
  induction members generalizing offset align with
  | nil => exact Nat.le_refl _
  | cons member rest ih => exact Nat.le_trans (Nat.le_max_left _ _) ih

/-- The alignment of a structure does not pass a bound on that of its members. -/
theorem placeFrom_align_le {bound : Nat} (capped : cap ≤ bound) (small : align ≤ bound)
    (members : List MemberLayout) : (placeFrom cap offset align members).align ≤ bound := by
  induction members generalizing offset align with
  | nil => exact small
  | cons member rest ih =>
      exact ih (Nat.max_le.mpr ⟨small, Nat.le_trans (Nat.min_le_right _ _) capped⟩)

/-- A record ends at a multiple of its alignment. -/
theorem align_dvd_size (members : List MemberLayout) :
    (placeFrom cap offset align members).align ∣ (placeFrom cap offset align members).size := by
  induction members generalizing offset align with
  | nil => exact dvd_roundUp _ _
  | cons member rest ih => exact ih

/-- A record does not end before the offset from which its members are placed. -/
theorem offset_le_size (capPositive : 0 < cap) (positive : 0 < align)
    (members : List MemberLayout) (offset : Nat) :
    offset ≤ (placeFrom cap offset align members).size := by
  induction members generalizing offset align with
  | nil => exact le_roundUp positive offset
  | cons member rest ih =>
      have start := le_roundUp (member.cappedAlign_pos capPositive) offset
      have positiveLater := Nat.lt_of_lt_of_le positive
        (Nat.le_max_left align (member.cappedAlign cap))
      have behind := ih positiveLater
        (roundUp offset (member.cappedAlign cap) + member.size * member.count)
      exact Nat.le_trans (Nat.le_trans start (Nat.le_add_right _ _)) behind

/-- No member is larger than the record. -/
theorem member_le_size (capPositive : 0 < cap) (positive : 0 < align)
    {members : List MemberLayout} {member : MemberLayout} (inside : member ∈ members)
    (offset : Nat) : member.size * member.count ≤ (placeFrom cap offset align members).size := by
  induction members generalizing offset align with
  | nil => cases inside
  | cons first rest ih =>
      have positiveLater := Nat.lt_of_lt_of_le positive
        (Nat.le_max_left align (first.cappedAlign cap))
      rcases List.mem_cons.mp inside with rfl | later
      · exact Nat.le_trans (Nat.le_add_left _ _)
          (offset_le_size capPositive positiveLater rest _)
      · exact ih positiveLater later _

end Exact

/-- Members are placed on words as on unbounded numbers, in every build, when the record as a whole
takes a word. -/
theorem placeFrom_eq_exact {cap offset align : Nat} (overflow : Overflow) (capPositive : 0 < cap)
    (positive : 0 < align) (members : List MemberLayout)
    (fits : (Exact.placeFrom cap offset align members).size < 0x10000000000000000) :
    placeFrom overflow cap offset align members =
      .ok (Exact.placeFrom cap offset align members) := by
  induction members generalizing offset align with
  | nil =>
      rw [placeFrom, Exact.placeFrom, roundUp_eq_exact overflow positive fits]
      rfl
  | cons member rest ih =>
      have positiveLater := Nat.lt_of_lt_of_le positive
        (Nat.le_max_left align (member.cappedAlign cap))
      have behind : Exact.roundUp offset (member.cappedAlign cap) + member.size * member.count <
          0x10000000000000000 :=
        Nat.lt_of_le_of_lt (Exact.offset_le_size capPositive positiveLater rest _) fits
      have start : roundUp overflow offset (member.cappedAlign cap) =
          .ok (Exact.roundUp offset (member.cappedAlign cap)) :=
        roundUp_eq_exact overflow (member.cappedAlign_pos capPositive) (by omega)
      have bytes : overflow.word .multiply (member.size * member.count) =
          .ok (member.size * member.count) := overflow.word_of_lt .multiply (by omega)
      have stop := overflow.word_of_lt .add behind
      rw [placeFrom, Exact.placeFrom, start, bytes]
      simp only [bind, Except.bind, stop, ih positiveLater fits]
      rfl

/-- Where overflow is caught, members are placed only when the record as a whole takes a word. -/
theorem fits_of_placeFrom_caught {cap offset align : Nat} (capPositive : 0 < cap)
    (positive : 0 < align) {members : List MemberLayout} {layout : Layout}
    (placed : placeFrom .caught cap offset align members = .ok layout) :
    (Exact.placeFrom cap offset align members).size < 0x10000000000000000 := by
  induction members generalizing offset align layout with
  | nil =>
      obtain ⟨size, rounded, -⟩ := exists_of_bind_ok placed
      exact ((roundUp_caught_eq_ok_iff positive).mp rounded).1
  | cons member rest ih =>
      have positiveLater := Nat.lt_of_lt_of_le positive
        (Nat.le_max_left align (member.cappedAlign cap))
      obtain ⟨start, rounded, placed⟩ := exists_of_bind_ok placed
      obtain ⟨bytes, product, placed⟩ := exists_of_bind_ok placed
      obtain ⟨stop, sum, placed⟩ := exists_of_bind_ok placed
      obtain ⟨behind, later, -⟩ := exists_of_bind_ok placed
      -- So far all numbers are exact, and the rest is placed behind the exact end of the member.
      obtain ⟨-, rfl⟩ :=
        (roundUp_caught_eq_ok_iff (member.cappedAlign_pos capPositive)).mp rounded
      obtain ⟨-, rfl⟩ := Overflow.word_caught_eq_ok_iff.mp product
      obtain ⟨-, rfl⟩ := Overflow.word_caught_eq_ok_iff.mp sum
      exact ih positiveLater later

section Records

variable {members : List MemberLayout} {packing : Packing}

/-- A record that takes a word is laid out as on unbounded numbers, in every build. -/
theorem computeLayout_eq_exact (overflow : Overflow)
    (fits : (Exact.computeLayout members packing).size < 0x10000000000000000) :
    computeLayout overflow members packing = .ok (Exact.computeLayout members packing) :=
  placeFrom_eq_exact overflow packing.cap_pos Nat.one_pos members fits

/-- A layout whose size fits a word is not changed by wrapping. -/
theorem Wrapped.computeLayout_eq_exact
    (fits : (Exact.computeLayout members packing).size < 0x10000000000000000) :
    Wrapped.computeLayout members packing = Exact.computeLayout members packing :=
  (eq_wrapped_of_computeLayout (TypeBridge.computeLayout_eq_exact .wraps fits)).symm

/-- Where overflow is caught, a record is laid out if and only if it takes a word, and exactly. -/
theorem computeLayout_caught_eq_ok_iff {layout : Layout} :
    computeLayout .caught members packing = .ok layout ↔
      (Exact.computeLayout members packing).size < 0x10000000000000000 ∧
        layout = Exact.computeLayout members packing := by
  constructor
  · intro laid
    have fits : (Exact.computeLayout members packing).size < 0x10000000000000000 :=
      fits_of_placeFrom_caught packing.cap_pos Nat.one_pos laid
    rw [computeLayout_eq_exact .caught fits] at laid
    exact ⟨fits, (Except.ok.inj laid).symm⟩
  · rintro ⟨fits, rfl⟩
    exact computeLayout_eq_exact .caught fits

end Records

/-! ## Structures -/

namespace Catalogue

variable {catalogue : Catalogue} {id : Nat}

/-- The layout that a structure calls for on unbounded numbers. -/
def exactLayout (catalogue : Catalogue) (id : Nat) : Layout :=
  Exact.computeLayout
    ((catalogue.entry id).fields.map (memberLayoutWith fun child =>
      if child < id then catalogue.exactLayout child else ⟨[], 0, 1⟩))
    (catalogue.entry id).packing
termination_by id

/-- A structure whose bytes can be counted with a word. -/
def Fits (catalogue : Catalogue) (id : Nat) : Prop :=
  (catalogue.exactLayout id).size < 0x10000000000000000

instance : Decidable (catalogue.Fits id) := inferInstanceAs (Decidable (_ < _))

/-- Fields lie alike whenever the structures that they hold do. -/
theorem memberLayoutWith_congr {layoutOf layoutOf' : Nat → Layout} {fields : List ResolvedField}
    (same : ∀ field ∈ fields, ∀ child, field.type = .record child →
      layoutOf child = layoutOf' child) :
    fields.map (memberLayoutWith layoutOf) = fields.map (memberLayoutWith layoutOf') := by
  refine List.map_congr_left fun field member => ?_
  have sameChild := same field member
  obtain ⟨name, type, count⟩ := field
  cases type with
  | scalar => rfl
  | record child => simp only [memberLayoutWith, sameChild child rfl]
  | pointer => rfl

/-- A structure that is held stands before its holder. -/
theorem SoundEntry.child_lt {entry : RecordEntry} (sound : catalogue.SoundEntry id entry)
    {field : ResolvedField} (member : field ∈ entry.fields) (child : Nat)
    (holds : field.type = .record child) : child < id :=
  sound.children field member child (by rw [ResolvedField.child?, holds])

/-- In a sound catalogue an exact layout rests on those of the structures held. -/
theorem Sound.exactLayout_eq (sound : catalogue.Sound) (known : id < catalogue.size) :
    catalogue.exactLayout id = Exact.computeLayout
      ((catalogue.entry id).fields.map (memberLayoutWith catalogue.exactLayout))
      (catalogue.entry id).packing := by
  rw [exactLayout]
  congr 1
  exact memberLayoutWith_congr fun field member child holds =>
    if_pos ((sound.entry id known).child_lt member _ holds)

/-- A structure that is held fits when its holder does. -/
theorem Sound.fits_child (sound : catalogue.Sound) (known : id < catalogue.size)
    (fits : catalogue.Fits id) {field : ResolvedField}
    (member : field ∈ (catalogue.entry id).fields) (child : Nat)
    (holds : field.type = .record child) : catalogue.Fits child := by
  have layout : memberLayoutWith catalogue.exactLayout field =
      ⟨(catalogue.exactLayout child).size, (catalogue.exactLayout child).align, field.count⟩ := by
    rw [memberLayoutWith, holds]
  have part := Exact.member_le_size (Packing.cap_pos (catalogue.entry id).packing) Nat.one_pos
    (List.mem_map_of_mem (f := memberLayoutWith catalogue.exactLayout) member) 0
  rw [layout] at part
  have once := Nat.le_mul_of_pos_right (catalogue.exactLayout child).size
    ((sound.entry id known).counts field member)
  rw [Fits, sound.exactLayout_eq known] at fits
  exact Nat.lt_of_le_of_lt (Nat.le_trans once part) fits

/-- The layout of a structure that fits is exact. -/
theorem Sound.layout_eq_exact (sound : catalogue.Sound) (known : id < catalogue.size)
    (fits : catalogue.Fits id) : catalogue.layout id = catalogue.exactLayout id := by
  induction id using Nat.strongRecOn with
  | ind id ih =>
      have entry := sound.entry id known
      have members : (catalogue.entry id).fields.map catalogue.memberLayout =
          (catalogue.entry id).fields.map (memberLayoutWith catalogue.exactLayout) :=
        memberLayoutWith_congr fun field member child holds =>
          have smaller := entry.child_lt member _ holds
          ih child smaller (Nat.lt_trans smaller known) (sound.fits_child known fits member _ holds)
      rw [Fits, sound.exactLayout_eq known] at fits
      rw [sound.exactLayout_eq known, layout, entry.layout, members]
      exact Wrapped.computeLayout_eq_exact fits

/-- The layout of a structure that fits is that of its members on unbounded numbers. -/
theorem Sound.layout_eq_members (sound : catalogue.Sound) (known : id < catalogue.size)
    (fits : catalogue.Fits id) : catalogue.layout id = Exact.computeLayout
      ((catalogue.entry id).fields.map catalogue.memberLayout) (catalogue.entry id).packing := by
  rw [sound.layout_eq_exact known fits, sound.exactLayout_eq known]
  congr 1
  refine memberLayoutWith_congr fun field member child holds => ?_
  have smaller := (sound.entry id known).child_lt member _ holds
  exact (sound.layout_eq_exact (Nat.lt_trans smaller known)
    (sound.fits_child known fits member _ holds)).symm

/-- Every structure has an alignment, and ends at a multiple of it. -/
theorem Sound.exactLayout_aligned (sound : catalogue.Sound) (known : id < catalogue.size) :
    0 < (catalogue.exactLayout id).align ∧ (catalogue.exactLayout id).align ≤ maxAlign ∧
      (catalogue.exactLayout id).align ∣ (catalogue.exactLayout id).size := by
  rw [sound.exactLayout_eq known]
  refine ⟨Exact.align_le_placeFrom _, Exact.placeFrom_align_le ?_ (by decide) _,
    Exact.align_dvd_size _⟩
  cases (catalogue.entry id).packing with
  | natural => exact Nat.le_refl _
  | packed bytes => exact Nat.min_le_right _ _

/-- Every field of a structure has an offset. -/
theorem Sound.length_offsets (sound : catalogue.Sound) (known : id < catalogue.size) :
    (catalogue.layout id).offsets.length = (catalogue.entry id).fields.length := by
  rw [layout, (sound.entry id known).layout, Wrapped.computeLayout, length_offsets_placeFrom,
    List.length_map]

end Catalogue

end TypeBridge
