/-!
# Binary floats

Floats are kept as their bits. `widen` turns 32 bits into the 64 bits of the same number; `narrow`
turns 64 bits into the 32 bits of the nearest number, of two equally near ones the one with an even
last bit.
-/

namespace TypeBridge.Binary

/-- A quotient rounded to the nearest number, a tie to the even one. -/
def divideNearest (n d : Nat) : Nat :=
  let quotient := n / d
  let rest := n % d
  if 2 * rest > d ∨ (2 * rest = d ∧ quotient % 2 = 1) then quotient + 1 else quotient

/-- A power of two. -/
def twoTo (n : Nat) : Nat := Nat.pow 2 n

/-- The sign, exponent and fraction fields of 32 bits. -/
def fields32 (bits : UInt32) : Nat × Nat × Nat :=
  (bits.toNat / twoTo 31, bits.toNat / twoTo 23 % twoTo 8, bits.toNat % twoTo 23)

/-- The sign, exponent and fraction fields of 64 bits. -/
def fields64 (bits : UInt64) : Nat × Nat × Nat :=
  (bits.toNat / twoTo 63, bits.toNat / twoTo 52 % twoTo 11, bits.toNat % twoTo 52)

/-- Whether 32 bits are no number. -/
def isNan32 (bits : UInt32) : Bool :=
  let (_, exponent, fraction) := fields32 bits
  exponent = 255 && fraction != 0

/-- Whether 64 bits are no number. -/
def isNan64 (bits : UInt64) : Bool :=
  let (_, exponent, fraction) := fields64 bits
  exponent = 2047 && fraction != 0

/-- The magnitude of a number of 32 bits as the lower 63 of 64 bits. Numbers that are subnormal in
32 bits are normal in 64. -/
def widenMagnitude (exponent fraction : Nat) : Nat :=
  if exponent = 255 then
    let quiet := if fraction = 0 ∨ fraction ≥ twoTo 22 then 0 else twoTo 51
    2047 * twoTo 52 + fraction * twoTo 29 + quiet
  else if exponent = 0 then
    if fraction = 0 then 0
    else
      let top := fraction.log2
      (top + 874) * twoTo 52 + (fraction - twoTo top) * twoTo (52 - top)
  else (exponent + 896) * twoTo 52 + fraction * twoTo 29

/-- The same number in 64 bits. -/
def widen (bits : UInt32) : UInt64 :=
  let (sign, exponent, fraction) := fields32 bits
  UInt64.ofNat (sign * twoTo 63 + widenMagnitude exponent fraction)

/-- The magnitude of a number of 64 bits rounded to the lower 31 of 32 bits. Rounding up past the
greatest finite number reaches infinity, whose bits come next. -/
def narrowMagnitude (exponent fraction : Nat) : Nat :=
  if exponent = 2047 then
    if fraction = 0 then 255 * twoTo 23
    else 255 * twoTo 23 + twoTo 22 + fraction / twoTo 29 % twoTo 22
  else
    let significand := if exponent = 0 then fraction else twoTo 52 + fraction
    let dropped := max 29 (926 - max exponent 1)
    let rounded := divideNearest significand (twoTo dropped)
    min (255 * twoTo 23) ((max exponent 897 - 897) * twoTo 23 + rounded)

/-- The nearest number in 32 bits. -/
def narrow (bits : UInt64) : UInt32 :=
  let (sign, exponent, fraction) := fields64 bits
  UInt32.ofNat (sign * twoTo 31 + narrowMagnitude exponent fraction)

end TypeBridge.Binary
