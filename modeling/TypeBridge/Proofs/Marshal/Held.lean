import TypeBridge.Marshal.Encoding
import TypeBridge.Proofs.Marshal.Floats

/-!
# Values that a shape holds

`Holds` says that a value has the form that decoding gives: scalars are of their own kind and floats
are numbers, an array has the elements of its field, and a record has one entry for each field in
order. `ScalarKind.Holds.written` says that every scalar that a kind holds is read from the octets
that it is written as.
-/

namespace TypeBridge

/-- The scalars of a kind; a float is a number. -/
inductive ScalarKind.Holds : ScalarKind → Value → Prop
  | i8 (value : Int8) : Holds .i8 (.i8 value)
  | u8 (value : UInt8) : Holds .u8 (.u8 value)
  | i16 (value : Int16) : Holds .i16 (.i16 value)
  | u16 (value : UInt16) : Holds .u16 (.u16 value)
  | i32 (value : Int32) : Holds .i32 (.i32 value)
  | u32 (value : UInt32) : Holds .u32 (.u32 value)
  | i64 (value : Int64) : Holds .i64 (.i64 value)
  | u64 (value : UInt64) : Holds .u64 (.u64 value)
  | f32 (bits : UInt32) (number : Binary.isNan32 bits = false) : Holds .f32 (.f32 bits)
  | f64 (bits : UInt64) (number : Binary.isNan64 bits = false) : Holds .f64 (.f64 bits)
  | pointer (address : UInt64) : Holds .pointer (.pointer address)

mutual

/-- The elements of a field. -/
def FieldKind.Holds : FieldKind → Value → Prop
  | .scalar kind, value => kind.Holds value
  | .struct shape, value => shape.Holds value

/-- The values of a field: an array if it has several elements. -/
def FieldShape.Holds : FieldShape → Value → Prop
  | .mk _ kind count _, value =>
    if count > 1 then
      ∃ items, value = .array items ∧ items.length = count ∧ ∀ item ∈ items, kind.Holds item
    else kind.Holds value

/-- The entries of some fields, one for each in order and under its name. -/
def StructShape.FieldsHold : List FieldShape → List (String × Value) → Prop
  | [], entries => entries = []
  | field :: rest, entries =>
    ∃ value more, entries = (field.name, value) :: more ∧ field.Holds value ∧
      StructShape.FieldsHold rest more

/-- The values of a record. -/
def StructShape.Holds : StructShape → Value → Prop
  | .mk _ fields _ _, value =>
    ∃ entries, value = .struct entries ∧ StructShape.FieldsHold fields entries

end

/-! ## Scalars in octets -/

/-- The octets of an integer are read as its least remainder. -/
theorem ofLittleEndian_twosComplement (count : Nat) (n : Int) :
    ofLittleEndian (twosComplement count n) = (n % (Nat.pow 256 count : Nat)).toNat := by
  have positive : 0 < Nat.pow 256 count := Nat.pow_pos (by decide)
  have small : (n % (Nat.pow 256 count : Nat)).toNat < Nat.pow 256 count := by
    have below := Int.emod_lt_of_pos n (Int.natCast_pos.mpr positive)
    omega
  rw [twosComplement, ofLittleEndian_littleEndian, Nat.mod_eq_of_lt small]

/-- A word is given back by the least remainder of the integer that it stands for. -/
theorem ofNat_toInt_emod {width : Nat} (word : BitVec width) :
    BitVec.ofNat width (word.toInt % (Nat.pow 2 width : Nat)).toNat = word := by
  apply BitVec.eq_of_toNat_eq
  rw [Nat.pow_eq, BitVec.toInt_eq_toNat_bmod, Int.bmod_emod, BitVec.toNat_ofNat, ← Int.natCast_emod,
    Int.toNat_natCast, Nat.mod_mod, Nat.mod_eq_of_lt word.isLt]

namespace ScalarKind

variable {kind : ScalarKind} {value : Value}

/-- A scalar that is written as octets of its size, from which it is read again. -/
def Written (kind : ScalarKind) (value : Value) : Prop :=
  ∃ octets, encodeScalar kind value = .ok octets ∧ octets.length = kind.size ∧
    scalarOf kind (ofLittleEndian octets) = value

/-- An integer in the range of its kind is written, and read again if its least remainder stands for
it. -/
theorem written_integer {low high n : Int} (range : kind.range? = some (low, high))
    (number : value.integer? = some n) (lower : low ≤ n) (upper : n < high)
    (same : scalarOf kind (n % (Nat.pow 256 kind.size : Nat)).toNat = value) :
    kind.Written value := by
  refine ⟨twosComplement kind.size n, ?_, length_littleEndian _ _, ?_⟩
  · simp [encodeScalar, range, encodeInteger, number, lower, upper]
  · rw [ofLittleEndian_twosComplement, same]

/-- The same for a number that is never negative. -/
theorem written_natural {high n : Nat} (range : kind.range? = some (0, (high : Int)))
    (all : high = Nat.pow 256 kind.size) (number : value.integer? = some (n : Int))
    (upper : n < high) (same : scalarOf kind n = value) : kind.Written value := by
  refine written_integer range number (Int.natCast_nonneg n) (Int.ofNat_lt.mpr upper) ?_
  rw [← all, ← Int.natCast_emod, Int.toNat_natCast, Nat.mod_eq_of_lt upper, same]

/-- A float is written as its bits in its own width. -/
theorem written_bits {bits : Nat} {wide : UInt64} (range : kind.range? = none)
    (float : value.float? = some wide)
    (own : (if kind = .f32 then (Binary.narrow wide).toNat else wide.toNat) = bits)
    (small : bits < Nat.pow 256 kind.size) (same : scalarOf kind bits = value) :
    kind.Written value := by
  refine ⟨littleEndian kind.size bits, ?_, length_littleEndian _ _, ?_⟩
  · simp only [encodeScalar, range, float, own]
  · rw [ofLittleEndian_littleEndian, Nat.mod_eq_of_lt small, same]

/-- Every scalar that a kind holds is read from the octets that it is written as. -/
theorem Holds.written (holds : kind.Holds value) : kind.Written value := by
  cases holds with
  | i8 value =>
      refine written_integer rfl rfl value.le_toInt value.toInt_lt (congrArg Value.i8 ?_)
      exact Int8.toBitVec_inj.mp (ofNat_toInt_emod value.toBitVec)
  | i16 value =>
      refine written_integer rfl rfl value.le_toInt value.toInt_lt (congrArg Value.i16 ?_)
      exact Int16.toBitVec_inj.mp (ofNat_toInt_emod value.toBitVec)
  | i32 value =>
      refine written_integer rfl rfl value.le_toInt value.toInt_lt (congrArg Value.i32 ?_)
      exact Int32.toBitVec_inj.mp (ofNat_toInt_emod value.toBitVec)
  | i64 value =>
      refine written_integer rfl rfl value.le_toInt value.toInt_lt (congrArg Value.i64 ?_)
      exact Int64.toBitVec_inj.mp (ofNat_toInt_emod value.toBitVec)
  | u8 value =>
      exact written_natural rfl rfl rfl value.toNat_lt (congrArg Value.u8 value.ofNat_toNat)
  | u16 value =>
      exact written_natural rfl rfl rfl value.toNat_lt (congrArg Value.u16 value.ofNat_toNat)
  | u32 value =>
      exact written_natural rfl rfl rfl value.toNat_lt (congrArg Value.u32 value.ofNat_toNat)
  | u64 value =>
      exact written_natural rfl rfl rfl value.toNat_lt (congrArg Value.u64 value.ofNat_toNat)
  | pointer address =>
      exact written_natural rfl rfl rfl address.toNat_lt
        (congrArg Value.pointer address.ofNat_toNat)
  | f32 bits number =>
      refine written_bits rfl rfl ?_ bits.toNat_lt (congrArg Value.f32 bits.ofNat_toNat)
      rw [if_pos rfl, Binary.narrow_widen number]
  | f64 bits number =>
      exact written_bits rfl rfl (if_neg (by decide)) bits.toNat_lt
        (congrArg Value.f64 bits.ofNat_toNat)

end ScalarKind

end TypeBridge
