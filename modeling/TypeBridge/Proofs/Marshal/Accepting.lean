import Mathlib.Data.List.Forall2
import TypeBridge.Proofs.Marshal.Held

/-!
# Values that a shape accepts

A value need not have the form that a shape gives it: any integer in the range of an integer kind
will do, any float for a float kind, and a record may have its entries in any order and others
besides. `Accepts` says which values fit a shape. `Canonical` relates such a value to the one of the
shape's own form: the same numbers in scalars of the kinds of the fields, and one entry for each
field in order. A float that is rounded, or is no number, is the same number in no scalar of the
kind, so nothing is said of it but the kind.
-/

namespace TypeBridge

/-- The values that fit a scalar. -/
def ScalarKind.Accepts (kind : ScalarKind) (value : Value) : Prop :=
  match kind.range? with
  | some (low, high) => ∃ n, value.integer? = some n ∧ low ≤ n ∧ n < high
  | none => ∃ bits, value.float? = some bits

/-- A scalar of a kind that is the same number as a value, if the kind has that number. -/
structure ScalarKind.Canonical (kind : ScalarKind) (value result : Value) : Prop where
  own : result.kindName = kind.label
  integer : result.integer? = value.integer?
  float : ∀ number, kind.Holds number → number.float? = value.float? →
    result.float? = value.float?

mutual

/-- The values that fit an element of a field. -/
def FieldKind.Accepts : FieldKind → Value → Prop
  | .scalar kind, value => kind.Accepts value
  | .struct shape, value => shape.Accepts value

/-- The values that fit a field: an array of its length if it has several elements. -/
def FieldShape.Accepts : FieldShape → Value → Prop
  | .mk _ kind count _, value =>
    if count > 1 then
      ∃ items, value = .array items ∧ items.length = count ∧ ∀ item ∈ items, kind.Accepts item
    else kind.Accepts value

/-- The values whose first entry under the name of each field fits the field. -/
def StructShape.FieldsAccept : List FieldShape → Value → Prop
  | [], _ => True
  | field :: rest, value =>
    (∃ item, value.field? field.name = some item ∧ field.Accepts item) ∧
      StructShape.FieldsAccept rest value

/-- The values that fit a record. -/
def StructShape.Accepts : StructShape → Value → Prop
  | .mk _ fields _ _, value =>
    (∃ entries, value = .struct entries) ∧ StructShape.FieldsAccept fields value

end

mutual

/-- The form of an element of a field. -/
def FieldKind.Canonical : FieldKind → Value → Value → Prop
  | .scalar kind, value, result => kind.Canonical value result
  | .struct shape, value, result => shape.Canonical value result

/-- The form of a field: that of each of its elements if it has several. -/
def FieldShape.Canonical : FieldShape → Value → Value → Prop
  | .mk _ kind count _, value, result =>
    if count > 1 then
      ∃ items results, value = .array items ∧ result = .array results ∧
        List.Forall₂ (fun item result => kind.Canonical item result) items results
    else kind.Canonical value result

/-- The entries of some fields in order, each with the form of the first entry of its name. -/
def StructShape.FieldsCanonical : List FieldShape → Value → List (String × Value) → Prop
  | [], _, results => results = []
  | field :: rest, value, results =>
    ∃ item result more, results = (field.name, result) :: more ∧
      value.field? field.name = some item ∧ field.Canonical item result ∧
      StructShape.FieldsCanonical rest value more

/-- The form of a record. -/
def StructShape.Canonical : StructShape → Value → Value → Prop
  | .mk _ fields _ _, value, result =>
    ∃ results, result = .struct results ∧ StructShape.FieldsCanonical fields value results

end

/-- The values that fit a parameter or a result. -/
def Shape.Accepts : Shape → Value → Prop
  | .void, value => value = .unit
  | .scalar kind, value => kind.Accepts value
  | .struct shape, value => shape.Accepts value

/-- The form of a parameter or a result. -/
def Shape.Canonical : Shape → Value → Value → Prop
  | .void, _, result => result = .unit
  | .scalar kind, value, result => kind.Canonical value result
  | .struct shape, value, result => shape.Canonical value result

/-! ## Scalars -/

/-- No value is an integer and a float. -/
theorem Value.float?_of_integer? {value : Value} {n : Int} (number : value.integer? = some n) :
    value.float? = none := by
  cases value <;> first | rfl | cases number

theorem Value.integer?_of_float? {value : Value} {bits : UInt64}
    (number : value.float? = some bits) : value.integer? = none := by
  cases value <;> first | rfl | cases number

namespace ScalarKind

variable {kind : ScalarKind} {value result : Value}

/-- A word stands for an integer in its range if it is the least remainder. -/
theorem toInt_ofNat_emod {width : Nat} {n : Int} (lower : -(Nat.pow 2 width : Nat) ≤ 2 * n)
    (upper : 2 * n < (Nat.pow 2 width : Nat)) :
    (BitVec.ofNat width (n % (Nat.pow 2 width : Nat)).toNat).toInt = n := by
  have positive : (0 : Int) < (Nat.pow 2 width : Nat) :=
    Int.natCast_pos.mpr (Nat.two_pow_pos width)
  rw [Nat.pow_eq] at *
  rw [BitVec.toInt_ofNat', Int.toNat_of_nonneg (Int.emod_nonneg n (by omega)), Int.emod_bmod]
  exact Int.bmod_eq_of_le_mul_two (by omega) (by omega)

/-- An integer in the range of a kind is the one that its least remainder stands for. -/
theorem integer?_scalarOf {low high n : Int} (range : kind.range? = some (low, high))
    (lower : low ≤ n) (upper : n < high) :
    (scalarOf kind (n % (Nat.pow 256 kind.size : Nat)).toNat).integer? = some n := by
  cases kind with
  | f32 | f64 => cases range
  | i8 | i16 | i32 | i64 =>
      obtain ⟨rfl, rfl⟩ := Prod.mk.inj (Option.some.inj range)
      refine congrArg some (toInt_ofNat_emod ?_ ?_) <;> simp only [Nat.pow_eq] <;> omega
  | u8 | u16 | u32 | u64 | pointer =>
      obtain ⟨rfl, rfl⟩ := Prod.mk.inj (Option.some.inj range)
      refine congrArg some ?_
      simp only [Nat.pow_eq, size, TypeInfo.wordSize, UInt8.toNat_ofNat', UInt16.toNat_ofNat',
        UInt32.toNat_ofNat', UInt64.toNat_ofNat']
      omega

theorem kindName_scalarOf (kind : ScalarKind) (n : Nat) :
    (scalarOf kind n).kindName = kind.label := by
  cases kind <;> rfl

/-- A scalar is written as octets of its size, and its kind reads them as the number it is. -/
def Rewritten (kind : ScalarKind) (value : Value) : Prop :=
  ∃ octets, encodeScalar kind value = .ok octets ∧ octets.length = kind.size ∧
    kind.Canonical value (scalarOf kind (ofLittleEndian octets))

theorem rewritten_integer {low high n : Int} (range : kind.range? = some (low, high))
    (number : value.integer? = some n) (lower : low ≤ n) (upper : n < high) :
    kind.Rewritten value := by
  have same := integer?_scalarOf range lower upper
  refine ⟨twosComplement kind.size n, ?_, length_littleEndian _ _, kindName_scalarOf _ _, ?_, ?_⟩
  · simp [encodeScalar, range, encodeInteger, number, lower, upper]
  · rw [ofLittleEndian_twosComplement, same, number]
  · intro scalar holds alike
    rw [ofLittleEndian_twosComplement, Value.float?_of_integer? same,
      Value.float?_of_integer? number]

theorem rewritten_float {bits : Nat} {wide : UInt64} (range : kind.range? = none)
    (float : value.float? = some wide)
    (own : (if kind = .f32 then (Binary.narrow wide).toNat else wide.toNat) = bits)
    (small : bits < Nat.pow 256 kind.size) (apart : (scalarOf kind bits).integer? = none)
    (same : ∀ number, kind.Holds number → number.float? = some wide →
      (scalarOf kind bits).float? = some wide) : kind.Rewritten value := by
  have read : ofLittleEndian (littleEndian kind.size bits) = bits := by
    rw [ofLittleEndian_littleEndian, Nat.mod_eq_of_lt small]
  refine ⟨littleEndian kind.size bits, ?_, length_littleEndian _ _, kindName_scalarOf _ _, ?_, ?_⟩
  · simp only [encodeScalar, range, float, own]
  · rw [read, apart, Value.integer?_of_float? float]
  · rw [read, float]
    exact same

/-- A value that fits a scalar is written and read as the same number. -/
theorem Accepts.rewritten (accepts : kind.Accepts value) : kind.Rewritten value := by
  cases kind with
  | f32 =>
      obtain ⟨wide, float⟩ := accepts
      refine rewritten_float rfl float (if_pos rfl) (Binary.narrow wide).toNat_lt rfl ?_
      rintro _ ⟨⟩ alike
      rename_i bits number
      -- The float is the number in 64 bits, so narrowing gives that number back.
      obtain rfl : Binary.widen bits = wide := Option.some.inj alike
      rw [scalarOf, UInt32.ofNat_toNat, Value.float?, Binary.narrow_widen number]
  | f64 =>
      obtain ⟨wide, float⟩ := accepts
      refine rewritten_float rfl float (if_neg (by decide)) wide.toNat_lt rfl fun _ _ _ => ?_
      rw [scalarOf, UInt64.ofNat_toNat, Value.float?]
  | _ =>
      obtain ⟨n, number, lower, upper⟩ := accepts
      exact rewritten_integer rfl number lower upper

/-- A value that does not fit a scalar is refused. -/
theorem encodeScalar_refuses (refuses : ¬kind.Accepts value) :
    ∃ expected found, encodeScalar kind value = .error (.mismatch expected found) := by
  unfold Accepts at refuses
  unfold encodeScalar
  cases range : kind.range? with
  | none =>
      simp only [range] at refuses ⊢
      cases float : value.float? with
      | none => exact ⟨_, _, rfl⟩
      | some bits => exact absurd ⟨bits, float⟩ refuses
  | some bounds =>
      obtain ⟨low, high⟩ := bounds
      simp only [range] at refuses ⊢
      unfold encodeInteger
      cases number : value.integer? with
      | none => exact ⟨_, _, rfl⟩
      | some n =>
          have outside : ¬(low ≤ n ∧ n < high) := fun inside => refuses ⟨n, number, inside⟩
          exact ⟨_, _, if_neg outside⟩

theorem Holds.accepts (holds : kind.Holds value) : kind.Accepts value := by
  by_contra refuses
  obtain ⟨octets, written, -, -⟩ := holds.written
  obtain ⟨expected, found, refused⟩ := encodeScalar_refuses refuses
  rw [written] at refused
  cases refused

/-- A scalar of a kind has the form of the kind already. -/
theorem Canonical.eq_of_holds (same : kind.Canonical value result) (holds : kind.Holds value) :
    result = value := by
  obtain ⟨own, integer, float⟩ := same
  have alike := float value holds rfl
  -- Only the scalars of one kind share its name, and those are told by their number.
  cases holds <;> cases result <;> first
    | (simp [Value.kindName, label] at own; done)
    | exact congrArg _ (Binary.eq_of_widen_eq ‹_› (Option.some.inj alike))
    | simpa [Value.integer?, Value.float?, Int.natCast_inj, Int8.toInt_inj, Int16.toInt_inj,
        Int32.toInt_inj, Int64.toInt_inj, UInt8.toNat_inj, UInt16.toNat_inj, UInt32.toNat_inj,
        UInt64.toNat_inj] using And.intro integer alike

end ScalarKind

end TypeBridge
