import TypeBridge.Proofs.Record.LayoutRule

/-!
# Layouts of records that take no word

A program that goes on at overflow wraps what no word holds. Alignments divide the number of words,
so rounding up commutes with wrapping (`roundUp_wrapWord`), and every number of a layout is the
exact one wrapped (`Catalogue.Sound.layout_wrapped`). `placings` lists the numbers that placing the
members of a structure goes through; none of them is wrapped if the record takes a word
(`Exact.placings_wrapped`).
-/

namespace TypeBridge

/-- Where a member starts, how many bytes it takes, and where it stops. -/
structure Placing where
  start : Nat
  bytes : Nat
  stop : Nat
deriving DecidableEq

/-- The numbers that placing members from an offset on goes through, as words hold them. -/
def Wrapped.placings (cap offset : Nat) : List MemberLayout → List Placing
  | [] => []
  | member :: rest =>
    let start := Wrapped.roundUp offset (member.cappedAlign cap)
    let bytes := wrapWord (member.size * member.count)
    let stop := wrapWord (start + bytes)
    ⟨start, bytes, stop⟩ :: Wrapped.placings cap stop rest

/-- The numbers that placing members from an offset on goes through, on unbounded numbers. -/
def Exact.placings (cap offset : Nat) : List MemberLayout → List Placing
  | [] => []
  | member :: rest =>
    let start := Exact.roundUp offset (member.cappedAlign cap)
    let bytes := member.size * member.count
    let stop := start + bytes
    ⟨start, bytes, stop⟩ :: Exact.placings cap stop rest

/-- A placing as words hold it. -/
def Placing.wrapped (placing : Placing) : Placing :=
  ⟨wrapWord placing.start, wrapWord placing.bytes, wrapWord placing.stop⟩

/-- A layout as words hold it. -/
def Layout.wrapped (layout : Layout) : Layout :=
  ⟨layout.offsets.map wrapWord, wrapWord layout.size, layout.align⟩

/-- Members of which one has the size of the other as words hold it. -/
structure MemberLayout.Alike (member exact : MemberLayout) : Prop where
  size : wrapWord member.size = wrapWord exact.size
  align : member.align = exact.align
  count : member.count = exact.count

/-! ## Arithmetic on words -/

/-- What a word holds is a word. -/
theorem wrapWord_lt (n : Nat) : wrapWord n < 0x10000000000000000 := Nat.mod_lt n (by decide)

/-- A word holds itself. -/
theorem wrapWord_wrapWord (n : Nat) : wrapWord (wrapWord n) = wrapWord n := Nat.mod_mod n _

/-- A word holds of a sum what it holds of the sum of what words hold of its parts. -/
theorem wrapWord_add (n m : Nat) : wrapWord (wrapWord n + wrapWord m) = wrapWord (n + m) :=
  (Nat.add_mod n m _).symm

/-- Alike members take alike bytes. -/
theorem MemberLayout.Alike.bytes {member exact : MemberLayout} (alike : member.Alike exact) :
    wrapWord (member.size * member.count) = wrapWord (exact.size * exact.count) := by
  rw [wrapWord, wrapWord, alike.count, Nat.mul_mod member.size, Nat.mul_mod exact.size]
  congr 2
  exact alike.size

/-- Alike members are aligned alike. -/
theorem MemberLayout.Alike.cappedAlign {member exact : MemberLayout} (alike : member.Alike exact)
    (cap : Nat) : member.cappedAlign cap = exact.cappedAlign cap := by
  rw [MemberLayout.cappedAlign, MemberLayout.cappedAlign, alike.align]

/-- An alignment divides the number of words. -/
theorem IsAlignment.dvd_word {align : Nat} (is : IsAlignment align) :
    align ∣ 0x10000000000000000 := by
  obtain ⟨exponent, small, rfl⟩ := is
  exact Nat.pow_dvd_pow 2 (Nat.le_trans small (by decide : 4 ≤ 64))

/-- What is rounded up in steps of an alignment can be moved by such steps before or after. -/
theorem Exact.roundUp_add {align more : Nat} (positive : 0 < align) (divides : align ∣ more)
    (value : Nat) : roundUp (value + more) align = roundUp value align + more := by
  obtain ⟨steps, rfl⟩ := divides
  have arrange : value + align * steps + align - 1 = value + align - 1 + align * steps := by omega
  rw [roundUp, roundUp, arrange, Nat.add_mul_div_left _ _ positive, Nat.add_mul,
    Nat.mul_comm steps align]

/-- Rounding up a word is rounding up what it holds, wrapped. -/
theorem roundUp_wrapWord {align : Nat} (is : IsAlignment align) (value : Nat) :
    Wrapped.roundUp (wrapWord value) align = wrapWord (Exact.roundUp value align) := by
  have lost : align ∣ 0x10000000000000000 * (value / 0x10000000000000000) :=
    Nat.dvd_mul_right_of_dvd is.dvd_word _
  have raised := Exact.roundUp_add is.one_le lost (wrapWord value)
  rw [wrapWord, Nat.mod_add_div] at raised
  rw [raised, Wrapped.roundUp, ← Exact.roundUp_eq_mul is.one_le, wrapWord, wrapWord, wrapWord,
    Nat.add_mul_mod_self_left]

/-! ## Placing members -/

section Members

variable {cap : Nat} {members exact : List MemberLayout}

/-- The offsets of a layout are where its members start. -/
theorem offsets_placeFrom (cap offset align : Nat) (members : List MemberLayout) :
    (Wrapped.placeFrom cap offset align members).offsets =
      (Wrapped.placings cap offset members).map Placing.start := by
  induction members generalizing offset align with
  | nil => rfl
  | cons member rest ih => exact congrArg _ (ih _ _)

/-- Members that are alike are placed at the wrapped offsets, and go through wrapped numbers. -/
theorem placings_wrapped (alike : List.Forall₂ MemberLayout.Alike members exact)
    (aligns : ∀ member ∈ exact, IsAlignment (member.cappedAlign cap)) (offset : Nat) :
    Wrapped.placings cap (wrapWord offset) members =
      (Exact.placings cap offset exact).map Placing.wrapped := by
  induction alike generalizing offset with
  | nil => rfl
  | @cons member counterpart members exact first _ ih =>
      have start := roundUp_wrapWord (aligns counterpart List.mem_cons_self) offset
      simp only [Wrapped.placings, Exact.placings, List.map_cons, Placing.wrapped,
        first.cappedAlign, start, first.bytes, wrapWord_add]
      rw [ih fun other inside => aligns other (List.mem_cons_of_mem _ inside)]

/-- Members that are alike are laid out as words hold the exact layout. -/
theorem placeFrom_wrapped (alike : List.Forall₂ MemberLayout.Alike members exact)
    (aligns : ∀ member ∈ exact, IsAlignment (member.cappedAlign cap)) {align : Nat}
    (is : IsAlignment align) (offset : Nat) :
    Wrapped.placeFrom cap (wrapWord offset) align members =
      (Exact.placeFrom cap offset align exact).wrapped := by
  induction alike generalizing offset align with
  | nil =>
      rw [Wrapped.placeFrom, Exact.placeFrom, roundUp_wrapWord is]
      rfl
  | @cons member counterpart members exact first _ ih =>
      have here := aligns counterpart List.mem_cons_self
      have greater : IsAlignment (max align (counterpart.cappedAlign cap)) := by
        rcases Nat.le_total align (counterpart.cappedAlign cap) with le | le
        · rwa [Nat.max_eq_right le]
        · rwa [Nat.max_eq_left le]
      simp only [Wrapped.placeFrom, Exact.placeFrom, Layout.wrapped, List.map_cons,
        first.cappedAlign, roundUp_wrapWord here offset, first.bytes, wrapWord_add]
      rw [ih (fun other inside => aligns other (List.mem_cons_of_mem _ inside)) greater]
      rfl

/-- No number that placing members goes through is greater than the size of the record. -/
theorem Exact.placing_le_size (capPositive : 0 < cap) {align : Nat} (positive : 0 < align)
    (members : List MemberLayout) (offset : Nat) :
    ∀ placing ∈ Exact.placings cap offset members,
      placing.start ≤ placing.stop ∧ placing.bytes ≤ placing.stop ∧
        placing.stop ≤ (Exact.placeFrom cap offset align members).size := by
  induction members generalizing offset align with
  | nil => simp [Exact.placings]
  | cons member rest ih =>
      have positiveLater := Nat.lt_of_lt_of_le positive
        (Nat.le_max_left align (member.cappedAlign cap))
      intro placing inside
      rcases List.mem_cons.mp inside with rfl | later
      · exact ⟨Nat.le_add_right _ _, Nat.le_add_left _ _,
          Exact.offset_le_size capPositive positiveLater rest _⟩
      · exact ih positiveLater _ placing later

/-- Nothing is wrapped when the record takes a word. -/
theorem Exact.placings_wrapped (capPositive : 0 < cap) {align offset : Nat} (positive : 0 < align)
    (fits : (Exact.placeFrom cap offset align members).size < 0x10000000000000000) :
    (Exact.placings cap offset members).map Placing.wrapped =
      Exact.placings cap offset members := by
  refine (List.map_congr_left fun placing inside => ?_).trans (List.map_id _)
  obtain ⟨start, bytes, stop⟩ := Exact.placing_le_size capPositive positive members offset
    placing inside
  simp only [Placing.wrapped, wrapWord, id]
  rw [Nat.mod_eq_of_lt (by omega), Nat.mod_eq_of_lt (by omega), Nat.mod_eq_of_lt (by omega)]

end Members

/-! ## Structures -/

namespace Catalogue

variable {catalogue : Catalogue} {id : Nat}

/-- The numbers that placing the members of a structure goes through, as words hold them and with
the sizes that the catalogue has. -/
def placings (catalogue : Catalogue) (id : Nat) : List Placing :=
  Wrapped.placings (catalogue.entry id).packing.cap 0
    ((catalogue.entry id).fields.map catalogue.memberLayout)

/-- The numbers that placing the members of a structure goes through on unbounded numbers. -/
def exactPlacings (catalogue : Catalogue) (id : Nat) : List Placing :=
  Exact.placings (catalogue.entry id).packing.cap 0
    ((catalogue.entry id).fields.map (memberLayoutWith catalogue.exactLayout))

/-- The fields of a structure lie in the catalogue as on unbounded numbers, as words hold it, if the
structures that they hold do. -/
theorem alike_memberLayout {field : ResolvedField}
    (children : ∀ child, field.type = .record child →
      catalogue.layout child = (catalogue.exactLayout child).wrapped) :
    (catalogue.memberLayout field).Alike (memberLayoutWith catalogue.exactLayout field) := by
  obtain ⟨name, type, count⟩ := field
  cases type with
  | scalar => exact ⟨rfl, rfl, rfl⟩
  | pointer => exact ⟨rfl, rfl, rfl⟩
  | record child =>
      rw [memberLayout, memberLayoutWith, memberLayoutWith]
      dsimp only
      rw [children child rfl]
      exact ⟨wrapWord_wrapWord _, rfl, rfl⟩

/-- The alignment of a scalar is one that types call for. -/
theorem isAlignment_scalarAlign (size : Nat) : IsAlignment (scalarAlign size) := by
  unfold scalarAlign
  repeat' split
  · exact ⟨0, by decide, rfl⟩
  · exact ⟨4, by decide, rfl⟩
  · exact ⟨3, by decide, rfl⟩
  · exact ⟨2, by decide, rfl⟩
  · exact ⟨1, by decide, rfl⟩
  · exact ⟨0, by decide, rfl⟩

/-- The alignment of every structure is one that types call for. -/
theorem Sound.isAlignment_member (sound : catalogue.Sound) (known : id < catalogue.size) :
    ∀ field ∈ (catalogue.entry id).fields,
      IsAlignment (memberLayoutWith catalogue.exactLayout field).align := by
  induction id using Nat.strongRecOn with
  | ind id ih =>
      intro field member
      have earlier := (sound.entry id known).child_lt member
      obtain ⟨name, type, count⟩ := field
      cases type with
      | scalar scalar => exact isAlignment_scalarAlign scalar.size
      | pointer => exact isAlignment_scalarAlign TypeInfo.wordSize
      | record child =>
          have childKnown := Nat.lt_trans (earlier child rfl) known
          change IsAlignment (catalogue.exactLayout child).align
          rw [sound.exactLayout_eq childKnown]
          refine Exact.isAlignment_computeLayout (sound.entry child childKnown).packing ?_
          rw [List.forall_mem_map]
          exact ih child (earlier child rfl) childKnown

/-- Every member of a structure is aligned as types call for, whatever its packing leaves of it. -/
theorem Sound.isAlignment_capped (sound : catalogue.Sound) (known : id < catalogue.size) :
    ∀ member ∈ (catalogue.entry id).fields.map (memberLayoutWith catalogue.exactLayout),
      IsAlignment (member.cappedAlign (catalogue.entry id).packing.cap) := by
  rw [List.forall_mem_map]
  exact fun field member => MemberLayout.isAlignment_cappedAlign (sound.entry id known).packing
    (sound.isAlignment_member known field member)

/-- Every number of a layout is the exact one as a word holds it, and so is every number that
placing the members goes through. -/
theorem Sound.layout_wrapped (sound : catalogue.Sound) (known : id < catalogue.size) :
    catalogue.layout id = (catalogue.exactLayout id).wrapped ∧
      catalogue.placings id = (catalogue.exactPlacings id).map Placing.wrapped := by
  induction id using Nat.strongRecOn with
  | ind id ih =>
      have entry := sound.entry id known
      have aligns := sound.isAlignment_capped known
      -- A structure holds earlier ones alone, and of these the layouts are the wrapped ones.
      have alike : List.Forall₂ MemberLayout.Alike
          ((catalogue.entry id).fields.map catalogue.memberLayout)
          ((catalogue.entry id).fields.map (memberLayoutWith catalogue.exactLayout)) := by
        rw [List.forall₂_map_left_iff, List.forall₂_map_right_iff, List.forall₂_same]
        intro field member
        refine alike_memberLayout fun child holds => ?_
        have earlier := entry.child_lt member child holds
        exact (ih child earlier (Nat.lt_trans earlier known)).1
      refine ⟨?_, placings_wrapped alike aligns 0⟩
      rw [sound.exactLayout_eq known, layout, entry.layout]
      exact placeFrom_wrapped alike aligns isAlignment_one 0

/-- The offsets of a structure are where placing its members starts them. -/
theorem Sound.offsets_layout (sound : catalogue.Sound) (known : id < catalogue.size) :
    (catalogue.layout id).offsets = (catalogue.placings id).map Placing.start := by
  rw [layout, (sound.entry id known).layout]
  exact offsets_placeFrom _ _ _ _

end Catalogue

end TypeBridge
