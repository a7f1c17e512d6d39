import Mathlib.Algebra.Ring.Nat
import Mathlib.Data.List.Forall2
import Mathlib.Order.Bounds.Basic
import TypeBridge.Proofs.Record.ExactLayout

/-!
# The rule of layouts

A native compiler puts each member of a record at the least multiple of its alignment that is not
below the end of the member before, where a packing caps all alignments; the record is aligned like
its strictest member and ends at the least multiple of that alignment. `FollowsRule` states this
without saying how a layout is worked out. `computeLayout_rule` says that layouts on words follow
the rule, whatever is done at overflow, as long as the record takes a word. Where packings are
compared, the alignments under the tighter one divide those under the other (`Spaced.mono`).
-/

namespace TypeBridge

/-- The alignments that types call for: the powers of two up to sixteen. -/
def IsAlignment (align : Nat) : Prop := ∃ exponent ≤ 4, align = 2 ^ exponent

/-- What a packing leaves of an alignment. -/
def Packing.capped : Packing → Nat → Nat
  | .natural, align => align
  | .packed bytes, align => min align bytes

/-- Members that stand one after the other from a place on, each at the least multiple of its
alignment that is not below that place, up to the place where the last one stops. -/
inductive Spaced (alignOf : MemberLayout → Nat) : Nat → List MemberLayout → List Nat → Nat → Prop
  | nil (place : Nat) : Spaced alignOf place [] [] place
  | cons {place start stop : Nat} {member : MemberLayout} {members : List MemberLayout}
      {starts : List Nat} (least : IsLeast {other | alignOf member ∣ other ∧ place ≤ other} start)
      (rest : Spaced alignOf (start + member.size * member.count) members starts stop) :
      Spaced alignOf place (member :: members) (start :: starts) stop

/-- A layout of some members as the rule wants it, with the alignment of each member given. -/
structure FollowsRule (alignOf : MemberLayout → Nat) (members : List MemberLayout)
    (layout : Layout) : Prop where
  placed : ∃ stop, Spaced alignOf 0 members layout.offsets stop ∧
    IsLeast {size | layout.align ∣ size ∧ stop ≤ size} layout.size
  align_nil : members = [] → layout.align = 1
  align_cons : members ≠ [] → IsGreatest {align | ∃ member ∈ members, alignOf member = align}
    layout.align
  /-- The elements of a member are aligned if a row of them has no gaps. -/
  elements : List.Forall₂ (fun member start => alignOf member ∣ member.size →
    ∀ index, alignOf member ∣ start + index * member.size) members layout.offsets

/-! ## Alignments -/

namespace IsAlignment

variable {align other : Nat}

/-- An alignment is positive. -/
theorem one_le (is : IsAlignment align) : 1 ≤ align := by
  obtain ⟨exponent, -, rfl⟩ := is
  exact Nat.one_le_two_pow

/-- No alignment passes the greatest one. -/
theorem le_maxAlign (is : IsAlignment align) : align ≤ maxAlign := by
  obtain ⟨exponent, small, rfl⟩ := is
  exact Nat.pow_le_pow_right Nat.two_pos small

/-- Of two alignments the smaller divides the greater. -/
theorem dvd_of_le (is : IsAlignment align) (otherIs : IsAlignment other) (le : align ≤ other) :
    align ∣ other := by
  obtain ⟨exponent, -, rfl⟩ := is
  obtain ⟨exponent', -, rfl⟩ := otherIs
  exact Nat.pow_dvd_pow 2 ((Nat.pow_le_pow_iff_right Nat.one_lt_two).mp le)

/-- The lesser of two alignments is one. -/
theorem min (is : IsAlignment align) (otherIs : IsAlignment other) :
    IsAlignment (min align other) := by
  rcases Nat.le_total align other with le | le
  · rwa [Nat.min_eq_left le]
  · rwa [Nat.min_eq_right le]

end IsAlignment

/-- Octets have an alignment. -/
theorem isAlignment_one : IsAlignment 1 := ⟨0, by decide, rfl⟩

namespace Packing

variable {packing : Packing}

/-- The cap of a packing that the native compiler honours is an alignment. -/
theorem isAlignment_cap (valid : packing.isValid) : IsAlignment packing.cap := by
  cases packing with
  | natural => exact ⟨4, Nat.le_refl _, rfl⟩
  | packed bytes =>
      simp only [isValid, honoured, List.contains_eq_mem, List.mem_cons, List.not_mem_nil, or_false,
        decide_eq_true_eq] at valid
      rcases valid with rfl | rfl | rfl | rfl | rfl
      · exact ⟨0, by decide, rfl⟩
      · exact ⟨1, by decide, rfl⟩
      · exact ⟨2, by decide, rfl⟩
      · exact ⟨3, by decide, rfl⟩
      · exact ⟨4, by decide, rfl⟩

/-- An alignment is capped in one step by what a packing leaves of it. -/
theorem cappedAlign_eq (valid : packing.isValid) {member : MemberLayout}
    (is : IsAlignment member.align) : member.cappedAlign packing.cap =
      packing.capped member.align := by
  have positive := is.one_le
  have small := is.le_maxAlign
  have cap := (isAlignment_cap valid).le_maxAlign
  have capPositive := (isAlignment_cap valid).one_le
  cases packing with
  | natural =>
      simp only [MemberLayout.cappedAlign, Packing.cap, capped] at *
      omega
  | packed bytes =>
      simp only [isValid, honoured, List.contains_eq_mem, List.mem_cons, List.not_mem_nil, or_false,
        decide_eq_true_eq] at valid
      simp only [MemberLayout.cappedAlign, Packing.cap, capped, maxAlign] at *
      omega

end Packing

/-- Under a valid packing the alignment of a member is still one. -/
theorem MemberLayout.isAlignment_cappedAlign {packing : Packing} (valid : packing.isValid)
    {member : MemberLayout} (is : IsAlignment member.align) :
    IsAlignment (member.cappedAlign packing.cap) := by
  rw [MemberLayout.cappedAlign, Nat.max_eq_left is.one_le]
  exact is.min (Packing.isAlignment_cap valid)

/-! ## Placing members -/

namespace Exact

variable {align cap : Nat} {members : List MemberLayout}

/-- Rounding up gives the least multiple that is not below a number. -/
theorem isLeast_roundUp (positive : 0 < align) (value : Nat) :
    IsLeast {other | align ∣ other ∧ value ≤ other} (roundUp value align) := by
  refine ⟨⟨dvd_roundUp _ _, le_roundUp positive value⟩, ?_⟩
  rintro other ⟨⟨factor, rfl⟩, below⟩
  rw [roundUp, Nat.mul_comm align factor]
  refine Nat.mul_le_mul_right align (Nat.le_of_lt_succ ((Nat.div_lt_iff_lt_mul positive).mpr ?_))
  rw [Nat.succ_mul, Nat.mul_comm factor align]
  omega

/-- Members are placed at the least multiples, and the record ends at one. -/
theorem exists_spaced (capPositive : 0 < cap) (members : List MemberLayout) (place align : Nat) :
    ∃ stop,
    Spaced (MemberLayout.cappedAlign cap) place members
        (placeFrom cap place align members).offsets stop ∧
      (placeFrom cap place align members).size =
        roundUp stop (placeFrom cap place align members).align := by
  induction members generalizing place align with
  | nil => exact ⟨place, .nil place, rfl⟩
  | cons member rest ih =>
      obtain ⟨stop, spaced, size⟩ := ih
        (roundUp place (member.cappedAlign cap) + member.size * member.count)
        (max align (member.cappedAlign cap))
      exact ⟨stop, .cons (isLeast_roundUp (member.cappedAlign_pos capPositive) place) spaced, size⟩

/-- No member is aligned more strictly than the record. -/
theorem cappedAlign_le_placeFrom {member : MemberLayout} (inside : member ∈ members) (cap : Nat)
    (place align : Nat) :
    member.cappedAlign cap ≤ (placeFrom cap place align members).align := by
  induction members generalizing place align with
  | nil => cases inside
  | cons first rest ih =>
      rcases List.mem_cons.mp inside with rfl | later
      · exact Nat.le_trans (Nat.le_max_right _ _) (align_le_placeFrom rest)
      · exact ih later _ _

/-- A record is aligned like one of its members, unless it starts out more strictly. -/
theorem placeFrom_align_eq (cap place align : Nat) (members : List MemberLayout) :
    (placeFrom cap place align members).align = align ∨
      ∃ member ∈ members, member.cappedAlign cap = (placeFrom cap place align members).align := by
  induction members generalizing place align with
  | nil => exact .inl rfl
  | cons first rest ih =>
      rw [placeFrom]
      rcases ih (roundUp place (first.cappedAlign cap) + first.size * first.count)
        (max align (first.cappedAlign cap)) with same | ⟨member, inside, same⟩
      · rcases Nat.le_total (first.cappedAlign cap) align with le | le
        · exact .inl (same.trans (Nat.max_eq_left le))
        · exact .inr ⟨first, List.mem_cons_self, (same.trans (Nat.max_eq_right le)).symm⟩
      · exact .inr ⟨member, List.mem_cons_of_mem _ inside, same⟩

end Exact

namespace Spaced

variable {alignOf alignOf' : MemberLayout → Nat} {place place' stop stop' : Nat}
  {members : List MemberLayout} {starts starts' : List Nat}

/-- Only the alignments of the members themselves matter. -/
theorem congr (spaced : Spaced alignOf place members starts stop)
    (same : ∀ member ∈ members, alignOf member = alignOf' member) :
    Spaced alignOf' place members starts stop := by
  induction spaced with
  | nil place => exact .nil place
  | cons least _ ih =>
      rw [same _ List.mem_cons_self] at least
      exact .cons least (ih fun member inside => same member (List.mem_cons_of_mem _ inside))

/-- Members stand no later where their alignments divide the others and they start no later. -/
theorem mono (spaced : Spaced alignOf place members starts stop)
    (wider : Spaced alignOf' place' members starts' stop')
    (divides : ∀ member ∈ members, alignOf member ∣ alignOf' member) (le : place ≤ place') :
    List.Forall₂ (· ≤ ·) starts starts' ∧ stop ≤ stop' := by
  induction spaced generalizing place' starts' with
  | nil place =>
      cases wider
      exact ⟨.nil, le⟩
  | @cons place start stop member members starts least _ ih =>
      cases wider with
      | @cons _ start' _ _ _ starts' least' rest' =>
          have early : start ≤ start' := least.2
            ⟨Nat.dvd_trans (divides _ List.mem_cons_self) least'.1.1, Nat.le_trans le least'.1.2⟩
          obtain ⟨others, stops⟩ := ih rest'
            (fun other inside => divides other (List.mem_cons_of_mem _ inside))
            (Nat.add_le_add_right early _)
          exact ⟨.cons early others, stops⟩

/-- In a row without gaps all elements are aligned. -/
theorem elements (spaced : Spaced alignOf place members starts stop) :
    List.Forall₂ (fun member start => alignOf member ∣ member.size →
      ∀ index, alignOf member ∣ start + index * member.size) members starts := by
  induction spaced with
  | nil => exact .nil
  | cons least _ ih =>
      refine .cons (fun multiple index => ?_) ih
      exact Nat.dvd_add least.1.1 (Nat.dvd_mul_left_of_dvd multiple index)

/-- Without alignments there are no gaps. -/
theorem stop_eq_sum (spaced : Spaced alignOf place members starts stop)
    (loose : ∀ member ∈ members, alignOf member = 1) :
    stop = place + (members.map fun member => member.size * member.count).sum := by
  induction spaced with
  | nil => rfl
  | @cons place start stop member members starts least _ ih =>
      have here : start = place := by
        refine Nat.le_antisymm (least.2 ⟨?_, Nat.le_refl _⟩) least.1.2
        rw [loose _ List.mem_cons_self]
        exact Nat.one_dvd _
      rw [ih fun other inside => loose other (List.mem_cons_of_mem _ inside), here, List.map_cons,
        List.sum_cons, Nat.add_assoc]

end Spaced

/-! ## Layouts -/

section Layouts

variable {members : List MemberLayout} {packing tighter : Packing}

/-- The exact layout under a packing follows the rule. -/
theorem Exact.computeLayout_followsRule (valid : packing.isValid)
    (aligns : ∀ member ∈ members, IsAlignment member.align) :
    FollowsRule (fun member => packing.capped member.align) members
      (Exact.computeLayout members packing) := by
  have same : ∀ member ∈ members, member.cappedAlign packing.cap =
      packing.capped member.align := fun member inside =>
    Packing.cappedAlign_eq valid (aligns member inside)
  have positive : 0 < (Exact.computeLayout members packing).align :=
    Nat.lt_of_lt_of_le Nat.one_pos (Exact.align_le_placeFrom members)
  obtain ⟨stop, spaced, size⟩ := Exact.exists_spaced packing.cap_pos members 0 1
  refine ⟨⟨stop, spaced.congr same, ?_⟩, ?_, fun filled => ⟨?_, ?_⟩, (spaced.congr same).elements⟩
  · rw [Exact.computeLayout, size]
    exact Exact.isLeast_roundUp positive stop
  · rintro rfl
    rfl
  · rcases Exact.placeFrom_align_eq packing.cap 0 1 members with
      one | ⟨member, inside, strictest⟩
    · -- Every alignment is at least one, so where the record has one all members have it.
      obtain ⟨member, inside⟩ := List.exists_mem_of_ne_nil members filled
      refine ⟨member, inside, ?_⟩
      have le := Exact.cappedAlign_le_placeFrom inside packing.cap 0 1
      have ge := member.cappedAlign_pos packing.cap_pos
      rw [← same member inside, Exact.computeLayout]
      omega
    · exact ⟨member, inside, (same member inside).symm.trans strictest⟩
  · rintro _ ⟨member, inside, rfl⟩
    rw [← same member inside]
    exact Exact.cappedAlign_le_placeFrom inside _ _ _

/-- The alignment of a record is one that types call for. -/
theorem Exact.isAlignment_computeLayout (valid : packing.isValid)
    (aligns : ∀ member ∈ members, IsAlignment member.align) :
    IsAlignment (Exact.computeLayout members packing).align := by
  rcases Exact.placeFrom_align_eq packing.cap 0 1 members with
    one | ⟨member, inside, strictest⟩
  · rw [Exact.computeLayout, one]
    exact isAlignment_one
  · rw [Exact.computeLayout, ← strictest]
    exact member.isAlignment_cappedAlign valid (aligns member inside)

/-- A record is aligned at most as strictly under a tighter packing. -/
theorem Exact.align_computeLayout_le (le : tighter.cap ≤ packing.cap) :
    (Exact.computeLayout members tighter).align ≤ (Exact.computeLayout members packing).align := by
  rcases Exact.placeFrom_align_eq tighter.cap 0 1 members with
    one | ⟨member, inside, strictest⟩
  · rw [Exact.computeLayout, one]
    exact Exact.align_le_placeFrom members
  · have capped : member.cappedAlign tighter.cap ≤ member.cappedAlign packing.cap := by
      simp only [MemberLayout.cappedAlign]
      omega
    rw [Exact.computeLayout, ← strictest]
    exact Nat.le_trans capped (Exact.cappedAlign_le_placeFrom inside _ _ _)

/-- Nothing stands later, and the record is not larger, under a tighter packing. -/
theorem Exact.computeLayout_mono (valid : packing.isValid) (tighterValid : tighter.isValid)
    (aligns : ∀ member ∈ members, IsAlignment member.align) (le : tighter.cap ≤ packing.cap) :
    List.Forall₂ (· ≤ ·) (Exact.computeLayout members tighter).offsets
        (Exact.computeLayout members packing).offsets ∧
      (Exact.computeLayout members tighter).size ≤ (Exact.computeLayout members packing).size := by
  have divides : ∀ member ∈ members,
      member.cappedAlign tighter.cap ∣ member.cappedAlign packing.cap := fun member inside =>
    (member.isAlignment_cappedAlign tighterValid (aligns member inside)).dvd_of_le
      (member.isAlignment_cappedAlign valid (aligns member inside)) (by
        simp only [MemberLayout.cappedAlign]
        omega)
  obtain ⟨stop, spaced, size⟩ := Exact.exists_spaced tighter.cap_pos members 0 1
  obtain ⟨stop', spaced', size'⟩ := Exact.exists_spaced packing.cap_pos members 0 1
  obtain ⟨offsets, stops⟩ := spaced.mono spaced' divides (Nat.le_refl 0)
  have is := Exact.isAlignment_computeLayout tighterValid aligns
  have is' := Exact.isAlignment_computeLayout valid aligns
  -- The size under the wider packing is a multiple of the smaller alignment, too.
  have aligned := is.dvd_of_le is' (Exact.align_computeLayout_le le)
  refine ⟨offsets, ?_⟩
  rw [Exact.computeLayout, Exact.computeLayout, size, size']
  exact (Exact.isLeast_roundUp is.one_le stop).2
    ⟨Nat.dvd_trans aligned (Exact.dvd_roundUp _ _),
      Nat.le_trans stops (Exact.le_roundUp is'.one_le stop')⟩

/-- A record packed to single bytes is as large as its members together. -/
theorem Exact.size_packed_one (members : List MemberLayout) :
    (Exact.computeLayout members (.packed 1)).size =
      (members.map fun member => member.size * member.count).sum := by
  have loose : ∀ member : MemberLayout, member.cappedAlign (Packing.packed 1).cap = 1 := by
    intro member
    simp only [MemberLayout.cappedAlign, Packing.cap, maxAlign]
    omega
  obtain ⟨stop, spaced, size⟩ :=
    Exact.exists_spaced (Packing.packed 1).cap_pos members 0 1
  have unaligned : (Exact.placeFrom (Packing.packed 1).cap 0 1 members).align = 1 :=
    Nat.le_antisymm (Exact.placeFrom_align_le (by decide) (Nat.le_refl 1) members)
      (Exact.align_le_placeFrom members)
  rw [Exact.computeLayout, size, unaligned, Exact.roundUp_of_dvd Nat.one_pos (Nat.one_dvd stop),
    spaced.stop_eq_sum fun member _ => loose member, Nat.zero_add]

/-- A record that takes a word is laid out whatever is done at overflow, and as the rule of the
native compiler wants it. Packed to single bytes it is as large as its members together; packed to
sixteen it is laid out as if it were not packed; and under a tighter packing it is laid out with
nothing later and not larger. -/
theorem computeLayout_rule (overflow : Overflow) (valid : packing.isValid)
    (aligns : ∀ member ∈ members, IsAlignment member.align)
    (fits : (Exact.computeLayout members packing).size < 0x10000000000000000) :
    ∃ layout, computeLayout overflow members packing = .ok layout ∧
      FollowsRule (fun member => packing.capped member.align) members layout ∧
      (packing = .packed 1 → layout.size =
        (members.map fun member => member.size * member.count).sum) ∧
      (packing = .packed 16 → computeLayout overflow members .natural = .ok layout) ∧
      ∀ tighter : Packing, tighter.isValid → tighter.cap ≤ packing.cap →
        ∃ tight, computeLayout overflow members tighter = .ok tight ∧
          List.Forall₂ (· ≤ ·) tight.offsets layout.offsets ∧ tight.size ≤ layout.size := by
  have laid := computeLayout_eq_exact overflow fits
  refine ⟨Exact.computeLayout members packing, laid,
    Exact.computeLayout_followsRule valid aligns, ?_, ?_, fun tighter tighterValid le => ?_⟩
  · rintro rfl
    exact Exact.size_packed_one members
  · rintro rfl
    exact laid
  · have mono := Exact.computeLayout_mono valid tighterValid aligns le
    exact ⟨Exact.computeLayout members tighter,
      computeLayout_eq_exact overflow (Nat.lt_of_le_of_lt mono.2 fits), mono⟩

/-- A byte, a row of two words and a half word, placed at multiples of four at most. -/
theorem computeLayout_rule_packedFour :
    let members : List MemberLayout := [⟨1, 1, 1⟩, ⟨8, 8, 2⟩, ⟨2, 2, 1⟩]
    let layout : Layout := ⟨[0, 4, 20], 24, 4⟩
    (Exact.computeLayout members (.packed 4)).size < 0x10000000000000000 ∧
      computeLayout .caught members (.packed 4) = .ok layout ∧
      FollowsRule (fun member => (Packing.packed 4).capped member.align) members layout ∧
      ∃ tight, computeLayout .caught members (.packed 1) = .ok tight ∧
        tight.size ≤ layout.size := by
  intro members layout
  have aligns : ∀ member ∈ members, IsAlignment member.align := by
    intro member inside
    simp only [members, List.mem_cons, List.not_mem_nil, or_false] at inside
    rcases inside with rfl | rfl | rfl
    · exact ⟨0, by decide, rfl⟩
    · exact ⟨3, by decide, rfl⟩
    · exact ⟨1, by decide, rfl⟩
  have fits : (Exact.computeLayout members (.packed 4)).size < 0x10000000000000000 := by decide
  have valid : (Packing.packed 4).isValid := by decide
  obtain ⟨worked, laid, rule, -, -, tighter⟩ := computeLayout_rule .caught valid aligns fits
  have same : computeLayout .caught members (.packed 4) = .ok layout := by rfl
  cases same.symm.trans laid
  obtain ⟨tight, laidTight, -, size⟩ := tighter (.packed 1) (by decide) (by decide)
  exact ⟨fits, same, rule, tight, laidTight, size⟩

end Layouts

end TypeBridge
