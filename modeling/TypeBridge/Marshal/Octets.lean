/-!
# Numbers as octets

`littleEndian` writes a number in a fixed count of octets, the least significant first, and drops
what does not fit; `ofLittleEndian` reads one. `splice` overwrites a part of a buffer.
-/

namespace TypeBridge

/-- A number in `count` octets, the least significant first. -/
def littleEndian : Nat → Nat → List UInt8
  | 0, _ => []
  | count + 1, n => UInt8.ofNat n :: littleEndian count (n / 256)

/-- The number that some octets write, the least significant first. -/
def ofLittleEndian : List UInt8 → Nat
  | [] => 0
  | octet :: rest => octet.toNat + 256 * ofLittleEndian rest

/-- The octets are as many as asked for. -/
@[simp] theorem length_littleEndian (count n : Nat) : (littleEndian count n).length = count := by
  induction count generalizing n with
  | zero => rfl
  | succ count ih => simp [littleEndian, ih]

/-- Reading what was written gives the number again, as far as it fits. -/
theorem ofLittleEndian_littleEndian (count n : Nat) :
    ofLittleEndian (littleEndian count n) = n % Nat.pow 256 count := by
  induction count generalizing n with
  | zero => exact (Nat.mod_one n).symm
  | succ count ih =>
    have grow : Nat.pow 256 (count + 1) = 256 * Nat.pow 256 count := Nat.mul_comm _ _
    rw [littleEndian, ofLittleEndian, ih, UInt8.toNat_ofNat', grow, Nat.mod_mul]

/-- The octets of a number that may be negative, in two's complement. -/
def twosComplement (count : Nat) (n : Int) : List UInt8 :=
  littleEndian count (n % (Nat.pow 256 count : Nat)).toNat

/-- The part of a buffer from an offset on. -/
def slice (buffer : List UInt8) (offset size : Nat) : List UInt8 := (buffer.drop offset).take size

/-- A buffer with a part written over it from an offset on. -/
def splice (buffer : List UInt8) (offset : Nat) (part : List UInt8) : List UInt8 :=
  buffer.take offset ++ part ++ buffer.drop (offset + part.length)

end TypeBridge
