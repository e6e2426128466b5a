import AdaptiveArith.Combine
import AdaptiveArith.Proofs.Rounding

/-!
# Division of decimals

A decimal stands for a rational number (`Decimal.toRat`). The quotient of two decimals is
wanted at the larger of their scales, and between the quotient of their digits and what is
wanted lies a power of ten, whose exponent follows from the scales (`Decimal.alignment`). It
multiplies the digits of the dividend or, if the exponent is negative, those of the divisor.
Both ways the rounded quotient of the digits is the exact quotient, rounded once
(`Decimal.nearestEven_quotientBy`).

A division computes the exponent in words of 64 bits (`Decimal.shift`) and fails if its size
is above `Decimal.maxPower`:

* `Decimal.divide_nearestEven`: as long as the exponent is not too large, the division gives
  the nearest decimal of the larger scale, and the even one of two equally near;
* `Decimal.alignsExactly_iff`: the division uses the exponent that the scales ask for, or
  names it if it is too large, exactly if the size of the exponent fits into a word;
* `Decimal.not_alignsExactly_wrapped`: if it does not fit, the word may stand for a small
  exponent, and the division gives a quotient that has nothing to do with its operands.
-/

namespace AdaptiveArith

namespace Decimal

/-- The rational number that a decimal stands for. -/
def toRat (d : Decimal) : ℚ := d.unscaled * 10 ^ (-d.scale.toInt)

variable (l r : Decimal)

/-! ### Aligned operands -/

/-- The power of ten between the quotient of the digits and the quotient of the decimals,
    at the larger of the two scales. -/
def alignment : ℤ := max l.scale.toInt r.scale.toInt - l.scale.toInt + r.scale.toInt

/-- The quotient of the digits at the larger scale, rounded after a multiplication by a power
    of ten. -/
def quotientBy (exponent : ℤ) : Decimal where
  unscaled :=
    if 0 ≤ exponent then roundQuotient (l.unscaled * 10 ^ exponent.toNat) r.unscaled
    else roundQuotient l.unscaled (r.unscaled * 10 ^ (-exponent).toNat)
  scale := max l.scale r.scale

variable {l r : Decimal}

/-- Words are compared as the integers that they stand for. -/
theorem toInt_max (a b : Int64) : (max a b).toInt = max a.toInt b.toInt := by
  change (if a ≤ b then b else a).toInt = _
  rw [max_def]
  simp only [Int64.le_iff_toInt_le]
  split <;> rfl

theorem toRat_div_toRat (l r : Decimal) :
    l.toRat / r.toRat * 10 ^ (max l.scale r.scale).toInt =
      (l.unscaled / r.unscaled : ℚ) * 10 ^ l.alignment r := by
  have hten : (10 : ℚ) ≠ 0 := by norm_num
  rw [toRat, toRat, alignment, toInt_max, mul_div_mul_comm, ← zpow_sub₀ hten, mul_assoc,
    ← zpow_add₀ hten]
  congr 2
  ring

/-- Whichever of the operands is multiplied, the digits are those of the exact quotient,
    rounded once. -/
theorem nearestEven_quotientBy (l : Decimal) (hr : r.unscaled ≠ 0) (exponent : ℤ) :
    NearestEven ((l.unscaled / r.unscaled : ℚ) * 10 ^ exponent)
      (l.quotientBy r exponent).unscaled := by
  rw [quotientBy]
  split
  next hnonneg =>
    have h := nearestEven_roundQuotient (l.unscaled * 10 ^ exponent.toNat) hr
    obtain ⟨n, rfl⟩ := Int.eq_ofNat_of_zero_le hnonneg
    rw [zpow_natCast, div_mul_eq_mul_div]
    exact_mod_cast h
  next hneg =>
    have hden : r.unscaled * 10 ^ (-exponent).toNat ≠ 0 := mul_ne_zero hr (by positivity)
    have h := nearestEven_roundQuotient l.unscaled hden
    obtain ⟨n, hn⟩ := Int.eq_ofNat_of_zero_le (by omega : 0 ≤ -exponent)
    obtain rfl : exponent = -n := by omega
    rw [zpow_neg, zpow_natCast, ← div_eq_mul_inv, div_div]
    simpa using h

/-! ### The exponent as a word -/

/-- The exponent that a division computes, in words of 64 bits. -/
def shift (l r : Decimal) : Int64 := max l.scale r.scale - l.scale + r.scale

/-- If the exponent fits into a word, so does the difference on the way to it. -/
theorem toInt_max_sub_of_lt (h : |l.alignment r| < 2 ^ 63) :
    (max l.scale r.scale - l.scale).toInt = max l.scale.toInt r.scale.toInt - l.scale.toInt := by
  have hlow := l.scale.le_toInt
  rw [alignment, abs_lt] at h
  rw [Int64.toInt_sub, toInt_max]
  exact Int.bmod_eq_of_le_mul_two (by norm_num; omega) (by norm_num; omega)

/-- No step of the computation overflows, as long as the exponent fits into a word. -/
theorem toInt_shift_of_lt (h : |l.alignment r| < 2 ^ 63) :
    (l.shift r).toInt = l.alignment r := by
  rw [shift, Int64.toInt_add, toInt_max_sub_of_lt h, ← alignment]
  rw [abs_lt] at h
  exact Int.bmod_eq_of_le_mul_two (by norm_num; omega) (by norm_num; omega)

/-- Only the least word has no opposite. -/
theorem toInt_neg_cases (w : Int64) :
    (-w).toInt = -w.toInt ∨ w.toInt = -2 ^ 63 ∧ (-w).toInt = -2 ^ 63 := by
  have hlow := w.le_toInt
  have hhigh := w.toInt_lt
  rw [Int64.toInt_neg]
  by_cases hleast : w.toInt = -2 ^ 63
  · rw [hleast]
    exact .inr ⟨rfl, by decide⟩
  · exact .inl (Int.bmod_eq_of_le_mul_two (by norm_num; omega) (by norm_num; omega))

theorem powerOfTen_of_le {w : Int64} (hnonneg : 0 ≤ w.toInt) (hle : w.toInt ≤ maxPower) :
    powerOfTen w = .ok (10 ^ w.toInt.toNat) :=
  if_pos ⟨hnonneg, hle⟩

theorem powerOfTen_of_not_le {w : Int64} (h : ¬(0 ≤ w.toInt ∧ w.toInt ≤ maxPower)) :
    powerOfTen w = .error w :=
  if_neg h

/-- What a division does with the word it has computed as the exponent. -/
theorem divide_eq (l r : Decimal) :
    l.divide r =
      if |(l.shift r).toInt| ≤ maxPower then .ok (l.quotientBy r (l.shift r).toInt)
      else .error (if 0 ≤ (l.shift r).toInt then l.shift r else -l.shift r) := by
  have hdivide : l.divide r =
      if 0 ≤ (l.shift r).toInt then
        (powerOfTen (l.shift r)).map fun p =>
          ⟨roundQuotient (l.unscaled * p) r.unscaled, max l.scale r.scale⟩
      else
        (powerOfTen (-l.shift r)).map fun p =>
          ⟨roundQuotient l.unscaled (r.unscaled * p), max l.scale r.scale⟩ := rfl
  rw [hdivide, quotientBy]
  generalize l.shift r = w
  by_cases hnonneg : 0 ≤ w.toInt
  · rw [abs_of_nonneg hnonneg]
    simp only [if_pos hnonneg]
    split
    next hle => rw [powerOfTen_of_le hnonneg hle]; rfl
    next hlt => rw [powerOfTen_of_not_le fun h => hlt h.2]; rfl
  · rw [abs_of_neg (not_le.1 hnonneg)]
    simp only [if_neg hnonneg]
    have hbound : maxPower < 2 ^ 63 := by decide
    -- The opposite of the least word is not in the range of the exponents either.
    rcases toInt_neg_cases w with hneg | ⟨hleast, hneg⟩
    · split
      next hle => rw [powerOfTen_of_le (by omega) (by omega), hneg]; rfl
      next hlt => rw [powerOfTen_of_not_le (by omega)]; rfl
    · rw [if_neg (by omega), powerOfTen_of_not_le (by omega)]
      rfl

theorem isZero_eq_false_iff : r.isZero = false ↔ r.unscaled ≠ 0 := by
  rw [isZero, beq_eq_false_iff_ne]

theorem onDecimals_div (l : Decimal) (hr : r.unscaled ≠ 0) :
    Operator.div.onDecimals l r =
      (l.divide r).mapError fun exponent => .noDecimal ("10^" ++ toString exponent.toInt) := by
  rw [Operator.onDecimals, isZero_eq_false_iff.2 hr]
  rfl

/-! ### Quotients -/

theorem onDecimals_div_of_le (hr : r.unscaled ≠ 0) (hle : |l.alignment r| ≤ maxPower) :
    Operator.div.onDecimals l r = .ok (l.quotientBy r (l.alignment r)) := by
  have hword := toInt_shift_of_lt (hle.trans_lt (by decide))
  rw [onDecimals_div l hr, divide_eq, hword, if_pos hle]
  rfl

/-- A division rounds the exact quotient once, to the nearest decimal of the larger of the
    two scales and the even one of two equally near, unless the exponent is too large. -/
theorem divide_nearestEven (hr : r.unscaled ≠ 0) (hle : |l.alignment r| ≤ maxPower) :
    ∃ digits : ℤ, Operator.div.onDecimals l r = .ok ⟨digits, max l.scale r.scale⟩ ∧
      ∀ n : ℤ, NearestEven (l.toRat / r.toRat * 10 ^ (max l.scale r.scale).toInt) n ↔
        n = digits := by
  have hnearest := nearestEven_quotientBy l hr (l.alignment r)
  rw [← toRat_div_toRat] at hnearest
  refine ⟨_, onDecimals_div_of_le hr hle, fun n => ⟨?_, ?_⟩⟩
  · exact fun hn => hn.unique hnearest
  · rintro rfl
    exact hnearest

/-- A tie between two negative quotients, and the digits of the divisor are multiplied. -/
theorem divide_nearestEven_negative :
    let l : Decimal := ⟨-50, 0⟩
    let r : Decimal := ⟨2, -1⟩
    r.unscaled ≠ 0 ∧ l.alignment r = -1 ∧ |l.alignment r| ≤ maxPower ∧
      Operator.div.onDecimals l r = .ok ⟨-2, 0⟩ ∧
      ∀ n : ℤ, NearestEven (l.toRat / r.toRat * 10 ^ (max l.scale r.scale).toInt) n ↔
        n = -2 := by
  intro l r
  have hr : r.unscaled ≠ 0 := by decide
  have hle : |l.alignment r| ≤ maxPower := by decide
  have hquotient : Operator.div.onDecimals l r = .ok ⟨-2, 0⟩ := by decide
  obtain ⟨digits, hok, hdigits⟩ := divide_nearestEven hr hle
  obtain rfl : digits = -2 := by
    rw [hquotient] at hok
    exact (congrArg Decimal.unscaled (Except.ok.inj hok)).symm
  exact ⟨hr, by decide, hle, hquotient, hdigits⟩

/-! ### Exponents that are too large -/

/-- The exponent that a division hands back has no sign, as long as it is not the least
    word. -/
theorem toInt_handedBack {w : Int64} (h : |w.toInt| < 2 ^ 63) :
    (if 0 ≤ w.toInt then w else -w).toInt = |w.toInt| := by
  split
  next hnonneg => rw [abs_of_nonneg hnonneg]
  next hneg =>
    rw [abs_of_neg (not_le.1 hneg)] at h ⊢
    rcases toInt_neg_cases w with hopposite | ⟨hleast, _⟩
    · exact hopposite
    · omega

theorem onDecimals_div_of_lt (hr : r.unscaled ≠ 0) (hlt : maxPower < |l.alignment r|)
    (hfits : |l.alignment r| < 2 ^ 63) :
    Operator.div.onDecimals l r = .error (.noDecimal ("10^" ++ toString |l.alignment r|)) := by
  have hword := toInt_shift_of_lt hfits
  have hback := toInt_handedBack (w := l.shift r) (by rwa [hword])
  rw [onDecimals_div l hr, divide_eq, hword, if_neg (not_le.2 hlt)]
  rw [hword] at hback
  rw [← hback]
  rfl

/-- The operands of the division are aligned by the exponent that their scales ask for, or
    the division fails with this exponent, without its sign, if it is too large. -/
structure AlignsExactly (l r : Decimal) : Prop where
  ok : |l.alignment r| ≤ maxPower →
    Operator.div.onDecimals l r = .ok (l.quotientBy r (l.alignment r))
  tooLarge : maxPower < |l.alignment r| →
    Operator.div.onDecimals l r = .error (.noDecimal ("10^" ++ toString |l.alignment r|))

/-- The text of a power of ten tells the exponent. -/
theorem eq_of_powerText {m n : ℤ} (h : "10^" ++ toString m = "10^" ++ toString n) : m = n := by
  rw [Int.toString_eq_repr, Int.toString_eq_repr, String.append_right_inj] at h
  exact Int.repr_inj.1 h

/-- The exponent is the right one exactly if its size fits into a word. -/
theorem alignsExactly_iff (hr : r.unscaled ≠ 0) :
    l.AlignsExactly r ↔ |l.alignment r| < 2 ^ 63 := by
  constructor
  · intro h
    by_contra hfar
    -- The exponent is too large, but the division cannot name it.
    have hbound : maxPower < 2 ^ 63 := by decide
    have herror := h.tooLarge (by omega)
    rw [onDecimals_div l hr, divide_eq] at herror
    split at herror
    next => cases herror
    next =>
      have hexponent := eq_of_powerText (RuntimeError.noDecimal.inj (Except.error.inj herror))
      have hword := Int64.toInt_lt (if 0 ≤ (l.shift r).toInt then l.shift r else -l.shift r)
      omega
  · exact fun h => ⟨onDecimals_div_of_le hr, fun hlt => onDecimals_div_of_lt hr hlt h⟩

/-- A scale of five thousand millions is a power of ten too large. -/
theorem alignsExactly_iff_tooLarge :
    let l : Decimal := ⟨1, 0⟩
    let r : Decimal := ⟨3, 5000000000⟩
    r.unscaled ≠ 0 ∧ l.alignment r = 10000000000 ∧ l.AlignsExactly r ∧
      Operator.div.onDecimals l r = .error (.noDecimal "10^10000000000") := by
  intro l r
  have hr : r.unscaled ≠ 0 := by decide
  have h : l.AlignsExactly r := (alignsExactly_iff hr).2 (by decide)
  exact ⟨hr, by decide, h, (h.tooLarge (by decide)).trans (by decide)⟩

/-- The exponent is `2 ^ 64`, which no decimal can be multiplied by, but the word for it is
    zero: a hundred divided by a tiny number gives that tiny number. -/
theorem not_alignsExactly_wrapped :
    let l : Decimal := ⟨1, -2⟩
    let r : Decimal := ⟨1, 9223372036854775807⟩
    l.alignment r = 2 ^ 64 ∧ Operator.div.onDecimals l r = .ok ⟨1, 9223372036854775807⟩ ∧
      ¬l.AlignsExactly r := by
  intro l r
  have hquotient : Operator.div.onDecimals l r = .ok ⟨1, 9223372036854775807⟩ := by decide
  refine ⟨by decide, hquotient, fun h => ?_⟩
  rw [h.tooLarge (by decide)] at hquotient
  cases hquotient

end Decimal

end AdaptiveArith
