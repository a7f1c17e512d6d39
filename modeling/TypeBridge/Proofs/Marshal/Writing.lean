import TypeBridge.Proofs.Marshal.Accepting
import TypeBridge.Proofs.Marshal.Leaves

/-!
# Values written in their leaves

Writing a value decides whether it fits: a value that does is written in the places of the leaves
and read back in the form of the shape, any other one is refused as a mismatch. `Decides` says so of
one step and `Decides.andThen` of two; `WellFormed.lossless` says so of every well-formed element.
-/

namespace TypeBridge

/-- A step that succeeds, with a good buffer, for what it accepts; anything else is a mismatch. -/
structure Decides (accepts : Prop) (result : Except MarshalFault (List UInt8))
    (good : List UInt8 → Prop) : Prop where
  succeeds : accepts → ∃ octets, result = .ok octets ∧ good octets
  refuses : ¬accepts → ∃ expected found, result = .error (.mismatch expected found)

namespace Decides

variable {accepts later : Prop} {result : Except MarshalFault (List UInt8)}
  {next : List UInt8 → Except MarshalFault (List UInt8)} {good done : List UInt8 → Prop}

/-- A mismatch decides a condition that does not hold. -/
theorem refused (rejects : ¬accepts) (expected found : String) :
    Decides accepts (.error (.mismatch expected found)) good :=
  ⟨fun fits => absurd fits rejects, fun _ => ⟨expected, found, rfl⟩⟩

/-- What follows a good buffer decides the rest. -/
theorem andThen (first : Decides accepts result good)
    (second : ∀ middle, good middle → Decides later (next middle) done) :
    Decides (accepts ∧ later) (result.bind next) done where
  succeeds := by
    rintro ⟨fits, others⟩
    obtain ⟨middle, rfl, sound⟩ := first.succeeds fits
    exact (second middle sound).succeeds others
  refuses := by
    intro rejects
    by_cases fits : accepts
    · obtain ⟨middle, rfl, sound⟩ := first.succeeds fits
      exact (second middle sound).refuses fun others => rejects ⟨fits, others⟩
    · obtain ⟨expected, found, rfl⟩ := first.refuses fits
      exact ⟨expected, found, rfl⟩

/-- A result that decides a condition decides every equivalent one. -/
theorem of_iff (decides : Decides accepts result good) (same : later ↔ accepts) :
    Decides later result good :=
  ⟨fun fits => decides.succeeds (same.mp fits), fun rejects =>
    decides.refuses fun fits => rejects (same.mpr fits)⟩

/-- What is promised of the octets may be weakened. -/
theorem mono (decides : Decides accepts result good)
    (weaker : ∀ octets, good octets → done octets) : Decides accepts result done where
  succeeds := by
    intro fits
    obtain ⟨octets, written, sound⟩ := decides.succeeds fits
    exact ⟨octets, written, weaker octets sound⟩
  refuses := decides.refuses

/-- A deciding result succeeds exactly where the condition holds. -/
theorem isOk_iff (decides : Decides accepts result good) :
    (∃ octets, result = .ok octets) ↔ accepts := by
  constructor
  · rintro ⟨octets, rfl⟩
    by_contra rejects
    obtain ⟨expected, found, refused⟩ := decides.refuses rejects
    cases refused
  · intro fits
    obtain ⟨octets, written, -⟩ := decides.succeeds fits
    exact ⟨octets, written⟩

/-- A deciding result never overruns its buffer. -/
theorem ne_overrun (decides : Decides accepts result good) : result ≠ .error .overrun := by
  rintro rfl
  by_cases fits : accepts
  · obtain ⟨octets, written, -⟩ := decides.succeeds fits
    cases written
  · obtain ⟨expected, found, refused⟩ := decides.refuses fits
    cases refused

/-- A deciding result that succeeds gives what it promises. -/
theorem good_of_ok {octets : List UInt8} (decides : Decides accepts result good)
    (written : result = .ok octets) : good octets := by
  obtain ⟨other, same, sound⟩ := decides.succeeds (decides.isOk_iff.mp ⟨octets, written⟩)
  rw [written] at same
  rwa [Except.ok.inj same]

end Decides

/-! ## Elements -/

/-- Elements of a kind are written in their leaves, and read in the form of the kind. -/
def FieldKind.Lossless (kind : FieldKind) : Prop :=
  ∀ value buffer, buffer.length = kind.size →
    Decides (kind.Accepts value) (encodeKind kind value buffer) fun octets =>
      Confined kind.Covers buffer octets ∧ kind.Canonical value (decodeKind kind octets)

/-- Scalars are written without loss. -/
theorem lossless_scalar (kind : ScalarKind) : (FieldKind.scalar kind).Lossless := by
  intro value buffer length
  refine ⟨fun accepts => ?_, fun rejects => ?_⟩
  · obtain ⟨octets, written, fits, canonical⟩ := ScalarKind.Accepts.rewritten accepts
    have filled : buffer.length = octets.length := length.trans fits.symm
    have all : splice buffer 0 octets = octets := by
      simp [splice, ← filled]
    refine ⟨octets, ?_, ⟨filled.symm, fun place outside => ?_⟩, ?_⟩
    · simp [encodeKind, written, all]
    · have past : octets.length ≤ place := by
        by_contra inside
        exact outside ⟨kind, 0, .scalar kind, Nat.zero_le _, by omega⟩
      rw [List.getElem?_eq_none past, List.getElem?_eq_none (filled ▸ past)]
    · rw [decodeKind, decodeScalar, ← fits, List.take_length]
      exact canonical
  · obtain ⟨expected, found, refused⟩ := ScalarKind.encodeScalar_refuses rejects
    exact ⟨expected, found, by rw [encodeKind, refused]⟩

/-- Items are written from the first on, each within the stride that follows the one before. -/
theorem encodeItems_cons {write : Value → List UInt8 → Except MarshalFault (List UInt8)}
    {stride offset : Nat} {buffer : List UInt8} (item : Value) (rest : List Value) :
    encodeItems stride write offset (item :: rest) buffer =
      (encodeWithin offset stride (write item) buffer).bind
        (encodeItems stride write (offset + stride) rest) := by
  rw [encodeItems]
  cases encodeWithin offset stride (write item) buffer <;> rfl

namespace FieldKind.Lossless

variable {kind : FieldKind} {buffer : List UInt8} {offset : Nat}

/-- An element is written in its part of a buffer and read from there. -/
theorem within (lossless : kind.Lossless) (value : Value)
    (fits : offset + kind.size ≤ buffer.length) :
    Decides (kind.Accepts value) (encodeWithin offset kind.size (encodeKind kind value) buffer)
      fun after => Confined (Shifted offset kind.Covers) buffer after ∧
        kind.Canonical value (decodeKind kind (slice after offset kind.size)) := by
  have decides := lossless value _ (length_slice fits)
  refine ⟨fun accepts => ?_, fun rejects => ?_⟩
  · obtain ⟨octets, written, confined, canonical⟩ := decides.succeeds accepts
    have length := confined.length.trans (length_slice fits)
    refine ⟨splice buffer offset octets, ?_, confined_splice fits confined, ?_⟩
    · rw [encodeWithin, if_pos fits, written]
      rfl
    · rwa [← length, slice_splice (by omega)]
  · obtain ⟨expected, found, refused⟩ := decides.refuses rejects
    exact ⟨expected, found, by rw [encodeWithin, if_pos fits, refused]; rfl⟩

/-- The elements of an array are written in a row and read from there. -/
theorem items (lossless : kind.Lossless) {items : List Value}
    (fits : offset + items.length * kind.size ≤ buffer.length) :
    Decides (∀ item ∈ items, kind.Accepts item)
      (encodeItems kind.size (encodeKind kind) offset items buffer) fun after =>
        Confined (kind.RowCovers offset items.length) buffer after ∧
          List.Forall₂ (fun item result => kind.Canonical item result) items
            ((List.range items.length).map fun index =>
              decodeKind kind (slice after (offset + index * kind.size) kind.size)) := by
  induction items generalizing offset buffer with
  | nil =>
      exact ⟨fun _ => ⟨buffer, rfl, .refl _ _, .nil⟩,
        fun rejects => absurd (fun _ member => nomatch member) rejects⟩
  | cons item rest ih =>
      rw [List.length_cons, Nat.succ_mul] at fits
      have first := lossless.within item (by omega : offset + kind.size ≤ buffer.length)
      rw [encodeItems_cons, List.forall_mem_cons]
      refine first.andThen fun middle ⟨confined, canonical⟩ => ?_
      have room : offset + kind.size + rest.length * kind.size ≤ middle.length := by
        rw [confined.length]
        omega
      refine (ih room).mono fun after ⟨others, read⟩ => ⟨?_, ?_⟩
      · exact (confined.mono fun _ own => FieldKind.rowCovers_succ.mpr (.inl own)).trans
          (others.mono fun _ behind => FieldKind.rowCovers_succ.mpr (.inr behind))
      · -- The other elements are behind this one, which stays as it was written.
        have kept : slice after offset kind.size = slice middle offset kind.size := by
          refine others.slice_eq fun place _ upper => ?_
          rintro ⟨index, -, within, -, rfl⟩
          omega
        rw [List.length_cons, List.range_succ_eq_map, List.map_cons, List.map_map]
        refine .cons ?_ ?_
        · rwa [Nat.zero_mul, Nat.add_zero, kept]
        · have next : (fun index => decodeKind kind
              (slice after (offset + kind.size + index * kind.size) kind.size)) =
              (fun index => decodeKind kind (slice after (offset + index * kind.size) kind.size)) ∘
                Nat.succ := by
            funext index
            rw [Function.comp_apply, Nat.succ_mul, Nat.add_comm (index * kind.size), Nat.add_assoc]
          rwa [← next]

/-- A field is written in its leaves and read from there. -/
theorem field {field : FieldShape} (lossless : field.kind.Lossless) (value : Value)
    (filled : 1 ≤ field.count)
    (fits : field.offset + field.count * field.kind.size ≤ buffer.length) :
    Decides (field.Accepts value) (encodeField field value buffer) fun after =>
      Confined field.Covers buffer after ∧ field.Canonical value (decodeField field after) := by
  obtain ⟨name, kind, count, offset⟩ := field
  simp only [FieldShape.kind, FieldShape.offset, FieldShape.count] at lossless filled fits
  by_cases several : count > 1
  · simp only [FieldShape.Accepts, encodeField, FieldShape.Canonical, decodeField, if_pos several]
    cases value with
    | array items =>
        by_cases length : items.length = count
        · subst length
          simp only [if_true]
          refine ((lossless.items fits).of_iff ?_).mono fun after both => ?_
          · simp
          · exact ⟨both.1, _, _, rfl, rfl, both.2⟩
        · simp only [if_neg length]
          refine .refused ?_ _ _
          rintro ⟨_, ⟨⟩, same, -⟩
          exact length same
    | _ =>
        refine .refused ?_ _ _
        rintro ⟨_, ⟨⟩, -⟩
  · obtain rfl : count = 1 := by omega
    simp only [FieldShape.Accepts, encodeField, FieldShape.Canonical, decodeField, if_neg several]
    rw [Nat.one_mul] at fits
    refine (lossless.within value fits).mono fun after both =>
      ⟨both.1.mono fun place own => ?_, both.2⟩
    exact ⟨0, Nat.one_pos, by simpa [FieldShape.offset, FieldShape.kind] using own⟩

end FieldKind.Lossless

/-! ## Records -/

/-- A field is read alike from buffers that differ outside its part. -/
theorem Confined.decodeField_eq {region : Nat → Prop} {before after : List UInt8}
    {field : FieldShape} (confined : Confined region before after) (filled : 1 ≤ field.count)
    (apart : ∀ place, field.Spans place → ¬region place) :
    decodeField field after = decodeField field before := by
  obtain ⟨name, kind, count, offset⟩ := field
  simp only [FieldShape.Spans, FieldShape.kind, FieldShape.offset, FieldShape.count] at filled apart
  have part : ∀ index, index < count →
      slice after (offset + index * kind.size) kind.size =
        slice before (offset + index * kind.size) kind.size := by
    intro index small
    have ends := Nat.mul_le_mul_right kind.size (Nat.succ_le_of_lt small)
    rw [Nat.succ_mul] at ends
    exact confined.slice_eq fun place lower upper => apart place ⟨by omega, by omega⟩
  by_cases several : count > 1
  · simp only [decodeField, if_pos several]
    congr 1
    refine List.map_congr_left fun index member => ?_
    rw [part index (List.mem_range.mp member)]
  · have first := part 0 filled
    rw [Nat.zero_mul, Nat.add_zero] at first
    rw [decodeField, decodeField, if_neg several, if_neg several, first]

namespace StructShape

variable {fields : List FieldShape} {value : Value} {buffer : List UInt8}

/-- A field whose value is found is written before the rest. -/
theorem encodeFields_found (owner : String) {field : FieldShape} {rest : List FieldShape}
    {item : Value} (found : value.field? field.name = some item) :
    encodeFields owner (field :: rest) value buffer =
      (encodeField field item buffer).bind (encodeFields owner rest value) := by
  simp only [encodeFields, found]
  cases encodeField field item buffer <;> rfl

/-- The fields of a record are written in their leaves and read from there, in whatever order they
stand. -/
theorem lossless_fields (owner : String) (value : Value) {size : Nat}
    (lossless : ∀ field ∈ fields, field.kind.Lossless)
    (wellFormed : ∀ field ∈ fields, field.kind.WellFormed)
    (filled : ∀ field ∈ fields, 1 ≤ field.count)
    (inside : ∀ field ∈ fields, field.offset + field.count * field.kind.size ≤ size)
    (apart : fields.Pairwise fun field other => ∀ place, ¬(field.Spans place ∧ other.Spans place))
    (length : buffer.length = size) :
    Decides (FieldsAccept fields value) (encodeFields owner fields value buffer) fun after =>
      Confined (fun place => ∃ field ∈ fields, field.Covers place) buffer after ∧
        FieldsCanonical fields value (decodeFields fields after) := by
  induction fields generalizing buffer with
  | nil => exact ⟨fun _ => ⟨buffer, rfl, .refl _ _, rfl⟩, fun rejects => absurd trivial rejects⟩
  | cons field rest ih =>
      rw [List.forall_mem_cons] at lossless wellFormed filled inside
      rw [List.pairwise_cons] at apart
      cases found : value.field? field.name with
      | none =>
          simp only [encodeFields, found]
          refine .refused ?_ _ _
          rintro ⟨⟨item, other, -⟩, -⟩
          rw [found] at other
          cases other
      | some item =>
          have first := lossless.1.field item filled.1
            (by rw [length]; exact inside.1)
          have same : FieldsAccept (field :: rest) value ↔
              field.Accepts item ∧ FieldsAccept rest value := by
            simp [FieldsAccept, found]
          rw [encodeFields_found owner found, same]
          refine first.andThen ?_
          rintro middle ⟨confined, canonical⟩
          have others := ih lossless.2 wellFormed.2 filled.2 inside.2 apart.2
            (confined.length.trans length)
          refine others.mono ?_
          rintro after ⟨later, read⟩
          refine ⟨?_, ?_⟩
          · refine (confined.mono fun _ own => ⟨field, List.mem_cons_self, own⟩).trans
              (later.mono ?_)
            rintro place ⟨other, member, own⟩
            exact ⟨other, List.mem_cons_of_mem _ member, own⟩
          · -- No octet of this field belongs to another, so it stays as it was written.
            have kept : decodeField field after = decodeField field middle := by
              refine later.decodeField_eq filled.1 ?_
              rintro place own ⟨other, member, covered⟩
              exact apart.1 other member place ⟨own, covered.spans (wellFormed.2 other member)⟩
            refine ⟨item, _, _, rfl, found, ?_, read⟩
            rwa [kept]

end StructShape

/-- Elements of a well-formed kind are written in their leaves and read from there. -/
theorem FieldKind.WellFormed.lossless {kind : FieldKind} (wellFormed : kind.WellFormed) :
    kind.Lossless := by
  refine wellFormed.induct lossless_scalar fun shape wellFormed ih => ?_
  intro value buffer length
  obtain ⟨name, fields, size, align⟩ := shape
  cases value with
  | struct entries =>
      obtain ⟨names, filled, inside, apart⟩ := wellFormed.orderly
      have decides := StructShape.lossless_fields name (.struct entries) ih
        (fun field member => wellFormed.field member) filled inside apart length
      have same : (FieldKind.struct (.mk name fields size align)).Accepts (.struct entries) ↔
          StructShape.FieldsAccept fields (.struct entries) :=
        ⟨fun fits => fits.2, fun fits => ⟨⟨entries, rfl⟩, fits⟩⟩
      refine (decides.of_iff same).mono fun after ⟨confined, canonical⟩ => ⟨?_, _, rfl, canonical⟩
      exact confined.mono fun place => StructShape.covers_iff.mpr
  | _ =>
      refine .refused ?_ _ _
      rintro ⟨⟨_, ⟨⟩⟩, -⟩

end TypeBridge
