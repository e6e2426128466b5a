import AdaptiveArith.Decimal.Basic
import Mathlib

/-!
# Rounding to the nearest integer

Which integer a rational number is rounded to can be said without computing it: none is
nearer, and if another one is equally near, it is even (`NearestEven`). No number is rounded
to two integers (`NearestEven.unique`).

`Decimal.roundQuotient` computes this integer for a quotient of two integers. It truncates
the quotient first and goes one step away from zero if the remainder asks for it; the
remainder is compared with the divisor by size, and the direction is that of the signs. So
the distance from the quotient is that of the remainder before the step, and what is left to
one after it (`abs_sub_step`). `Decimal.nearestEven_roundQuotient` holds for all signs.
-/

namespace AdaptiveArith

/-- The integer is nearest to the number, and even if another one is equally near. -/
structure NearestEven (x : ℚ) (n : ℤ) : Prop where
  nearest (m : ℤ) : |x - n| ≤ |x - m|
  even_of_tie (m : ℤ) : m ≠ n → |x - m| = |x - n| → Even n

variable {x : ℚ} {m n : ℤ}

/-- A number is not near to two integers. -/
theorem le_abs_sub_add_abs_sub {distance : ℤ} (h : distance ≤ |m - n|) :
    distance ≤ |x - m| + |x - n| := by
  have hcast : (distance : ℚ) ≤ |(m : ℚ) - n| := by exact_mod_cast h
  have htriangle := abs_sub_le (m : ℚ) x n
  rw [abs_sub_comm (m : ℚ) x] at htriangle
  exact hcast.trans htriangle

theorem one_le_abs_sub_add_abs_sub (h : m ≠ n) : 1 ≤ |x - m| + |x - n| := by
  exact_mod_cast le_abs_sub_add_abs_sub (x := x) (Int.one_le_abs (sub_ne_zero.2 h))

namespace NearestEven

/-- An integer within a half of the number is nearest, and at a half it has to be even. -/
theorem of_le_half (hle : |x - n| ≤ 1 / 2) (heven : |x - n| = 1 / 2 → Even n) :
    NearestEven x n where
  nearest m := by
    rcases eq_or_ne m n with rfl | hne
    · exact le_rfl
    · linarith [one_le_abs_sub_add_abs_sub (x := x) hne]
  even_of_tie m hne htie := by
    have hfar := one_le_abs_sub_add_abs_sub (x := x) hne
    exact heven (by linarith)

/-- No number is rounded to two integers. -/
theorem unique (hm : NearestEven x m) (hn : NearestEven x n) : m = n := by
  by_contra hne
  have htie := le_antisymm (hm.nearest n) (hn.nearest m)
  -- Both are equally near, hence even, so that a third integer lies between them.
  obtain ⟨i, hi⟩ := hm.even_of_tie n (Ne.symm hne) htie.symm
  obtain ⟨j, hj⟩ := hn.even_of_tie m hne htie
  have htwo : (2 : ℤ) ≤ |m - n| := by
    rw [le_abs]
    omega
  have hfar : 2 ≤ |x - m| + |x - n| := by exact_mod_cast le_abs_sub_add_abs_sub (x := x) htwo
  have hround := (hn.nearest (round x)).trans (abs_sub_round x)
  linarith

end NearestEven

/-- A step of one in the direction of a fraction leaves what the fraction lacks. -/
theorem abs_sub_step {f s : ℚ} (hs : s = 1 ∧ 0 < f ∨ s = -1 ∧ f < 0) (hf : |f| < 1) :
    |f - s| = 1 - |f| := by
  rcases hs with ⟨rfl, hpos⟩ | ⟨rfl, hneg⟩
  · rw [abs_of_pos hpos] at hf ⊢
    rw [abs_of_neg (by linarith)]
    ring
  · rw [abs_of_neg hneg] at hf ⊢
    rw [abs_of_pos (by linarith)]
    ring

namespace Decimal

variable {num den : ℤ}

/-- A quotient is the truncated one and the fraction that the remainder is of the divisor. -/
theorem div_sub_tdiv (num : ℤ) (hden : den ≠ 0) :
    (num / den : ℚ) - (num.tdiv den : ℤ) = (num.tmod den : ℤ) / den := by
  have hnum : (num : ℚ) = den * (num.tdiv den : ℤ) + (num.tmod den : ℤ) := by
    exact_mod_cast (Int.mul_tdiv_add_tmod num den).symm
  have hden : (den : ℚ) ≠ 0 := by exact_mod_cast hden
  rw [hnum]
  field_simp
  ring

/-- The size of the fraction is that of the remainder in units of the divisor. -/
theorem abs_tmod_div (num den : ℤ) :
    |((num.tmod den : ℤ) / den : ℚ)| = (num.tmod den).natAbs / den.natAbs := by
  rw [abs_div, Nat.cast_natAbs, Nat.cast_natAbs, Int.cast_abs, Int.cast_abs]

theorem abs_tmod_div_lt_one (num : ℤ) (hden : den ≠ 0) :
    |((num.tmod den : ℤ) / den : ℚ)| < 1 := by
  have hpos : 0 < den.natAbs := Int.natAbs_pos.2 hden
  rw [abs_tmod_div, div_lt_one (by exact_mod_cast hpos), Int.natAbs_tmod]
  exact_mod_cast Nat.mod_lt _ hpos

/-- The fraction is positive exactly if the two integers have the same sign. -/
theorem tmod_div_sign (hden : den ≠ 0) (hrem : num.tmod den ≠ 0) :
    num.sign = den.sign ∧ (0 : ℚ) < (num.tmod den : ℤ) / den ∨
      num.sign ≠ den.sign ∧ ((num.tmod den : ℤ) / den : ℚ) < 0 := by
  have hsign : (num.tmod den).sign = num.sign := by
    rw [Int.sign_tmod, if_neg fun hdvd => hrem (Int.tmod_eq_zero_of_dvd hdvd)]
  rw [← hsign]
  rcases hrem.lt_or_gt with hr | hr <;> rcases hden.lt_or_gt with hd | hd
  · refine .inl ⟨by rw [Int.sign_eq_neg_one_of_neg hr, Int.sign_eq_neg_one_of_neg hd], ?_⟩
    exact div_pos_of_neg_of_neg (by exact_mod_cast hr) (by exact_mod_cast hd)
  · refine .inr ⟨by rw [Int.sign_eq_neg_one_of_neg hr, Int.sign_eq_one_of_pos hd]; decide, ?_⟩
    exact div_neg_of_neg_of_pos (by exact_mod_cast hr) (by exact_mod_cast hd)
  · refine .inr ⟨by rw [Int.sign_eq_one_of_pos hr, Int.sign_eq_neg_one_of_neg hd]; decide, ?_⟩
    exact div_neg_of_pos_of_neg (by exact_mod_cast hr) (by exact_mod_cast hd)
  · refine .inl ⟨by rw [Int.sign_eq_one_of_pos hr, Int.sign_eq_one_of_pos hd], ?_⟩
    exact div_pos (by exact_mod_cast hr) (by exact_mod_cast hd)

/-- The truncated quotient is kept if the fraction is less than a half, and moved by one in
    the direction of the fraction if it is more. At a half it is kept if it is even. -/
theorem roundQuotient_cases (num : ℤ) (hden : den ≠ 0) :
    let quotient := num.tdiv den
    let fraction : ℚ := (num.tmod den : ℤ) / den
    (|fraction| ≤ 1 / 2 ∧ (|fraction| = 1 / 2 → Even quotient)) ∧
        roundQuotient num den = quotient ∨
      (1 / 2 ≤ |fraction| ∧ (|fraction| = 1 / 2 → ¬Even quotient)) ∧
        ∃ step : ℤ, (step = 1 ∧ 0 < fraction ∨ step = -1 ∧ fraction < 0) ∧
          roundQuotient num den = quotient + step := by
  intro quotient fraction
  have hpos : (0 : ℚ) < den.natAbs := by exact_mod_cast Int.natAbs_pos.2 hden
  have hsize : |fraction| = (num.tmod den).natAbs / den.natAbs := abs_tmod_div num den
  have hodd : (num.tdiv den).natAbs % 2 = 1 ↔ ¬Even quotient := by
    rw [← Int.natAbs_even, Nat.not_even_iff]
  have hmore : den.natAbs < 2 * (num.tmod den).natAbs ↔ 1 / 2 < |fraction| := by
    rw [hsize, lt_div_iff₀ hpos, ← @Nat.cast_lt ℚ, Nat.cast_mul]
    constructor <;> intro h <;> push_cast at h ⊢ <;> linarith
  have htie : den.natAbs = 2 * (num.tmod den).natAbs ↔ |fraction| = 1 / 2 := by
    rw [hsize, div_eq_iff hpos.ne', ← @Nat.cast_inj ℚ, Nat.cast_mul]
    constructor <;> intro h <;> push_cast at h ⊢ <;> linarith
  -- Only if there is a remainder has the fraction a direction.
  have hstep (hhalf : 1 / 2 ≤ |fraction|) :
      ∃ step : ℤ, (step = 1 ∧ 0 < fraction ∨ step = -1 ∧ fraction < 0) ∧
        (if num.sign = den.sign then quotient + 1 else quotient - 1) = quotient + step := by
    have hrem : num.tmod den ≠ 0 := by
      intro hzero
      norm_num [fraction, hzero] at hhalf
    rcases tmod_div_sign hden hrem with ⟨hsign, hfraction⟩ | ⟨hsign, hfraction⟩
    · exact ⟨1, .inl ⟨rfl, hfraction⟩, if_pos hsign⟩
    · exact ⟨-1, .inr ⟨rfl, hfraction⟩, if_neg hsign⟩
  simp only [roundQuotient, hmore, htie, hodd]
  split
  next hmore => exact .inr ⟨⟨hmore.le, fun htie => absurd htie hmore.ne'⟩, hstep hmore.le⟩
  next hle =>
    split
    next htie => exact .inr ⟨⟨htie.1.ge, fun _ => htie.2⟩, hstep htie.1.ge⟩
    next hkept =>
      exact .inl ⟨⟨not_lt.1 hle, fun htie => not_not.1 fun h => hkept ⟨htie, h⟩⟩, rfl⟩

/-- The rounded quotient is the integer nearest to the quotient, and the even one of two
    equally near. -/
theorem nearestEven_roundQuotient (num : ℤ) (hden : den ≠ 0) :
    NearestEven (num / den) (roundQuotient num den) := by
  have hfraction := div_sub_tdiv num hden
  rcases roundQuotient_cases num hden with
    ⟨⟨hle, heven⟩, hround⟩ | ⟨⟨hge, hodd⟩, step, hstep, hround⟩
  · rw [hround]
    rw [← hfraction] at hle heven
    exact .of_le_half hle heven
  · have hdistance : |(num / den : ℚ) - (roundQuotient num den : ℤ)| =
        1 - |((num.tmod den : ℤ) / den : ℚ)| := by
      rw [← abs_sub_step (s := step) (by exact_mod_cast hstep) (abs_tmod_div_lt_one num hden),
        hround, ← hfraction]
      push_cast
      ring_nf
    refine .of_le_half (by linarith) fun hhalf => ?_
    -- Both neighbours of an odd integer are even.
    have hquotient := hodd (by linarith)
    rw [hround]
    rcases hstep with ⟨rfl, _⟩ | ⟨rfl, _⟩
    · exact Int.even_add_one.2 hquotient
    · exact Int.even_sub_one.2 hquotient

end Decimal

end AdaptiveArith
