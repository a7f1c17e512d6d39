import TypeBridge.Marshal.Binary

/-!
# Floats in 64 bits and back

A number of 32 bits has its exact like in 64 bits, so `narrow` gives it back (`narrow_widen`). The
magnitudes are treated apart from the sign: infinity, zero, subnormal and normal numbers each have a
lemma of their own. Bits that are no number may come back as others, but never as a number
(`isNan32_narrow_widen`).
-/

namespace TypeBridge.Binary

variable {exponent fraction : Nat}

theorem twoTo_pos (n : Nat) : 0 < twoTo n := Nat.two_pow_pos n

theorem twoTo_add (n m : Nat) : twoTo (n + m) = twoTo n * twoTo m := Nat.pow_add 2 n m

theorem twoTo_mul_twoTo_sub {n m : Nat} (le : n ≤ m) : twoTo n * twoTo (m - n) = twoTo m := by
  rw [← twoTo_add, Nat.add_sub_cancel' le]

/-- What is left of a number without its highest bit is smaller than that bit. -/
theorem sub_twoTo_log2_lt (n : Nat) : n - twoTo n.log2 < twoTo n.log2 := by
  have upper : n < twoTo (n.log2 + 1) := Nat.lt_log2_self
  rw [twoTo_add] at upper
  change n < twoTo n.log2 * 2 at upper
  have positive := twoTo_pos n.log2
  omega

/-- An exact quotient is not rounded. -/
theorem divideNearest_mul {divisor : Nat} (positive : 0 < divisor) (quotient : Nat) :
    divideNearest (quotient * divisor) divisor = quotient := by
  have exact : quotient * divisor / divisor = quotient := Nat.mul_div_cancel _ positive
  have even : quotient * divisor % divisor = 0 := Nat.mul_mod_left _ _
  unfold divideNearest
  simp only [exact, even, Nat.mul_zero]
  rw [if_neg (by omega)]

/-! ## Magnitudes -/

/-- A magnitude of 64 bits narrowed to the lower 31 of 32 bits. -/
def narrowed (magnitude : Nat) : Nat :=
  narrowMagnitude (magnitude / twoTo 52) (magnitude % twoTo 52)

/-- The fields of a magnitude are read back. -/
theorem narrowed_fields (small : fraction < twoTo 52) :
    narrowed (exponent * twoTo 52 + fraction) = narrowMagnitude exponent fraction := by
  rw [narrowed, Nat.mul_comm, Nat.mul_add_div (twoTo_pos 52), Nat.mul_add_mod,
    Nat.div_eq_of_lt small, Nat.mod_eq_of_lt small, Nat.add_zero]

theorem narrowed_infinity : narrowed (widenMagnitude 255 0) = 255 * twoTo 23 := by
  decide

theorem narrowed_zero : narrowed (widenMagnitude 0 0) = 0 := by
  have nothing : divideNearest 0 (twoTo 925) = 0 := by
    simpa using divideNearest_mul (twoTo_pos 925) 0
  have widened : widenMagnitude 0 0 = 0 * twoTo 52 + 0 := by decide
  rw [widened, narrowed_fields (twoTo_pos 52), narrowMagnitude, if_neg (by omega)]
  simp [nothing]

/-- A normal number keeps its significand, with zeros behind it. -/
theorem narrowed_normal (positive : 0 < exponent) (finite : exponent < 255)
    (small : fraction < twoTo 23) :
    narrowed (widenMagnitude exponent fraction) = exponent * twoTo 23 + fraction := by
  have widened : widenMagnitude exponent fraction =
      (exponent + 896) * twoTo 52 + fraction * twoTo 29 := by
    rw [widenMagnitude, if_neg (by omega), if_neg (by omega)]
  have padded : twoTo 52 + fraction * twoTo 29 = (twoTo 23 + fraction) * twoTo 29 := by
    rw [Nat.add_mul, ← twoTo_add]
  have dropped : max 29 (926 - max (exponent + 896) 1) = 29 := by omega
  have fits : fraction * twoTo 29 < twoTo 52 := by
    rw [twoTo_add 23 29]
    exact Nat.mul_lt_mul_of_pos_right small (twoTo_pos 29)
  rw [widened, narrowed_fields fits, narrowMagnitude, if_neg (by omega)]
  simp only [dropped]
  rw [if_neg (by omega), padded, divideNearest_mul (twoTo_pos 29)]
  simp only [twoTo, Nat.pow_eq] at small ⊢
  omega

/-- A subnormal number is normal in 64 bits, where its highest bit is the hidden one. -/
theorem narrowed_subnormal (some : fraction ≠ 0) (small : fraction < twoTo 23) :
    narrowed (widenMagnitude 0 fraction) = fraction := by
  obtain ⟨top, same⟩ : ∃ top, top = fraction.log2 := ⟨_, rfl⟩
  have lower : twoTo top ≤ fraction := same ▸ Nat.log2_self_le some
  have early : top < 23 := same ▸ (Nat.log2_lt some).mpr small
  have hidden : twoTo top * twoTo (52 - top) = twoTo 52 := twoTo_mul_twoTo_sub (by omega)
  have widened : widenMagnitude 0 fraction =
      (top + 874) * twoTo 52 + (fraction - twoTo top) * twoTo (52 - top) := by
    rw [widenMagnitude, if_neg (by omega), if_pos rfl, if_neg some, ← same]
  have padded : twoTo 52 + (fraction - twoTo top) * twoTo (52 - top) =
      fraction * twoTo (52 - top) := by
    rw [← hidden, ← Nat.add_mul, Nat.add_sub_cancel' lower]
  have fits : (fraction - twoTo top) * twoTo (52 - top) < twoTo 52 := by
    rw [← hidden]
    exact Nat.mul_lt_mul_of_pos_right (same ▸ sub_twoTo_log2_lt fraction) (twoTo_pos _)
  -- As many bits are dropped as were put behind the number, so nothing is rounded.
  have dropped : max 29 (926 - max (top + 874) 1) = 52 - top := by omega
  rw [widened, narrowed_fields fits, narrowMagnitude, if_neg (by omega)]
  simp only [dropped]
  rw [if_neg (by omega), padded, divideNearest_mul (twoTo_pos _)]
  have least : max (top + 874) 897 - 897 = 0 := by omega
  rw [least, Nat.zero_mul, Nat.zero_add]
  exact Nat.min_eq_right (Nat.le_trans (Nat.le_of_lt small) (Nat.le_mul_of_pos_left _ (by decide)))

/-- Widening keeps the magnitude of every number. -/
theorem narrowed_widenMagnitude (bounded : exponent < twoTo 8) (small : fraction < twoTo 23)
    (number : exponent = 255 → fraction = 0) :
    narrowed (widenMagnitude exponent fraction) = exponent * twoTo 23 + fraction := by
  simp only [twoTo, Nat.pow_eq] at bounded
  by_cases infinite : exponent = 255
  · rw [number infinite, infinite]
    exact narrowed_infinity
  · by_cases zero : exponent = 0
    · rw [zero, Nat.zero_mul, Nat.zero_add]
      by_cases nothing : fraction = 0
      · rw [nothing]
        exact narrowed_zero
      · exact narrowed_subnormal nothing small
    · exact narrowed_normal (by omega) (by omega) small

/-- The magnitude of a number leaves the bit of the sign free. -/
theorem widenMagnitude_lt (bounded : exponent < twoTo 8) (small : fraction < twoTo 23)
    (number : exponent = 255 → fraction = 0) : widenMagnitude exponent fraction < twoTo 63 := by
  have field : ∀ high low, high < twoTo 11 → low < twoTo 52 →
      high * twoTo 52 + low < twoTo 63 := by
    intro high low highSmall lowSmall
    simp only [twoTo, Nat.pow_eq] at highSmall lowSmall ⊢
    omega
  unfold widenMagnitude
  split
  · rename_i infinite
    rw [number infinite]
    decide
  · split
    · split
      · exact twoTo_pos 63
      · rename_i some
        have top : fraction.log2 < 23 := (Nat.log2_lt some).mpr small
        refine field _ _ (by simp only [twoTo, Nat.pow_eq]; omega) ?_
        rw [← twoTo_mul_twoTo_sub (Nat.le_trans (Nat.le_of_lt top) (by decide : 23 ≤ 52))]
        exact Nat.mul_lt_mul_of_pos_right (sub_twoTo_log2_lt fraction) (twoTo_pos _)
    · refine field _ _ ?_ ?_
      · simp only [twoTo, Nat.pow_eq] at bounded ⊢
        omega
      · simp only [twoTo, Nat.pow_eq] at small ⊢
        omega

/-! ## Bits -/

/-- The fields of 64 bits that were put together from a sign and a magnitude. -/
theorem fields64_ofNat {sign magnitude : Nat} (bit : sign < 2) (free : magnitude < twoTo 63) :
    fields64 (UInt64.ofNat (sign * twoTo 63 + magnitude)) =
      (sign, magnitude / twoTo 52, magnitude % twoTo 52) := by
  simp only [twoTo, Nat.pow_eq] at free
  have word : (UInt64.ofNat (sign * twoTo 63 + magnitude)).toNat =
      sign * twoTo 63 + magnitude := by
    rw [UInt64.toNat_ofNat', twoTo, Nat.pow_eq, Nat.mod_eq_of_lt (by omega)]
  unfold fields64
  rw [word]
  simp only [twoTo, Nat.pow_eq, Prod.mk.injEq]
  omega

/-- A number of 32 bits comes back from 64 bits. -/
theorem narrow_widen {bits : UInt32} (number : isNan32 bits = false) :
    narrow (widen bits) = bits := by
  have bounded : bits.toNat / twoTo 23 % twoTo 8 < twoTo 8 := Nat.mod_lt _ (twoTo_pos 8)
  have small : bits.toNat % twoTo 23 < twoTo 23 := Nat.mod_lt _ (twoTo_pos 23)
  have finite : bits.toNat / twoTo 23 % twoTo 8 = 255 → bits.toNat % twoTo 23 = 0 := by
    intro infinite
    simpa [isNan32, fields32, infinite] using number
  have word : bits.toNat < 2 ^ 32 := bits.toNat_lt
  have bit : bits.toNat / twoTo 31 < 2 := by
    rw [twoTo, Nat.pow_eq]
    omega
  have kept := narrowed_widenMagnitude bounded small finite
  have again : bits.toNat / twoTo 31 * twoTo 31 +
      (bits.toNat / twoTo 23 % twoTo 8 * twoTo 23 + bits.toNat % twoTo 23) = bits.toNat := by
    simp only [twoTo, Nat.pow_eq]
    omega
  rw [narrowed] at kept
  unfold narrow widen
  simp only [fields32, fields64_ofNat bit (widenMagnitude_lt bounded small finite), kept, again]
  exact UInt32.ofNat_toNat

/-! ## Bits that are no number -/

/-- Bits that are no number have a fraction in 64 bits too. -/
theorem exists_widenMagnitude_nan (filled : fraction ≠ 0) (small : fraction < twoTo 23) :
    ∃ rest, widenMagnitude 255 fraction = 2047 * twoTo 52 + rest ∧ 0 < rest ∧ rest < twoTo 52 := by
  refine ⟨_, by rw [widenMagnitude, if_pos rfl, Nat.add_assoc], ?_⟩
  by_cases quiet : fraction = 0 ∨ fraction ≥ twoTo 22
  · rw [if_pos quiet]
    simp only [twoTo, Nat.pow_eq] at small ⊢
    omega
  · rw [if_neg quiet]
    simp only [twoTo, Nat.pow_eq] at quiet ⊢
    omega

/-- Bits that are no number come back as such. -/
theorem isNan32_narrow_widen {bits : UInt32} (nan : isNan32 bits = true) :
    isNan32 (narrow (widen bits)) = true := by
  obtain ⟨infinite, filled⟩ :
      bits.toNat / twoTo 23 % twoTo 8 = 255 ∧ bits.toNat % twoTo 23 ≠ 0 := by
    obtain ⟨infinite, filled⟩ := Bool.and_eq_true_iff.mp nan
    exact ⟨of_decide_eq_true infinite, bne_iff_ne.mp filled⟩
  have word : bits.toNat < 2 ^ 32 := bits.toNat_lt
  have bit : bits.toNat / twoTo 31 < 2 := by
    rw [twoTo, Nat.pow_eq]
    omega
  obtain ⟨rest, widened, positive, small⟩ :=
    exists_widenMagnitude_nan filled (Nat.mod_lt _ (twoTo_pos 23))
  have fields : 2047 * twoTo 52 + rest < twoTo 63 ∧ (2047 * twoTo 52 + rest) / twoTo 52 = 2047 ∧
      (2047 * twoTo 52 + rest) % twoTo 52 = rest := by
    simp only [twoTo, Nat.pow_eq] at small ⊢
    omega
  obtain ⟨free, high, low⟩ := fields
  unfold narrow widen
  simp only [fields32, infinite, widened, fields64_ofNat bit free, high, low]
  rw [narrowMagnitude, if_pos rfl, if_neg (by omega)]
  simp only [isNan32, fields32, UInt32.toNat_ofNat', twoTo, Nat.pow_eq, Bool.and_eq_true,
    decide_eq_true_eq, bne_iff_ne] at bit ⊢
  omega

/-- A number of 32 bits is told by its like in 64 bits. -/
theorem eq_of_widen_eq {bits other : UInt32} (number : isNan32 bits = false)
    (same : widen other = widen bits) : other = bits := by
  cases otherNumber : isNan32 other with
  | false => rw [← narrow_widen otherNumber, same, narrow_widen number]
  | true =>
      have nan := isNan32_narrow_widen otherNumber
      rw [same, narrow_widen number, number] at nan
      cases nan

end TypeBridge.Binary
