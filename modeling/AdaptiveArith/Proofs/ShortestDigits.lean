import AdaptiveArith.Binary.Decimal
import AdaptiveArith.Proofs.Exact

/-!
# The decimal of a float

A finite float becomes the decimal of its shortest digits. The scale of a decimal is a word
of 64 bits, but no format in use comes near to the limits of such a word: a significand and
an exponent with few digits have a short interval of numbers around them with few digits
(`Neighbourhood.digits_shortest?`), so that the numeral found there has a small power
(`BinaryFormat.natAbs_power_shortest_le`). Hence the digits and the scale of the decimal are
those asked for, and it stands for the number of the numeral
(`BinaryFormat.toDecimal?_finite`).

The interval around a number that is not zero leaves zero out, and so do its shortest digits
(`BinaryFormat.coefficient_shortest_eq_zero_iff`).
-/

namespace AdaptiveArith

/-- Reducing a numeral moves its power by no more than the number of its digits. -/
theorem Numeral.natAbs_power_reduced_le {n : Numeral} {digits : ℕ}
    (h : n.coefficient < 10 ^ digits) : n.reduced.power.natAbs ≤ n.power.natAbs + digits := by
  by_cases hzero : n.coefficient = 0
  · rw [reduced_of_zero hzero]
    exact Nat.zero_le _
  · obtain ⟨zeros, hpower, hcoefficient⟩ := reduced_zeros hzero
    have hpos : 0 < n.reduced.coefficient := by
      by_contra hnone
      rw [Nat.eq_zero_of_not_pos hnone, zero_mul] at hcoefficient
      exact hzero hcoefficient
    have hzeros : 10 ^ zeros ≤ n.coefficient := by
      rw [hcoefficient]
      exact Nat.le_mul_of_pos_left _ hpos
    have hlt : zeros < digits := (Nat.pow_lt_pow_iff_right (by norm_num)).1 (hzeros.trans_lt h)
    omega

theorem Numeral.coefficient_reduced_eq_zero_iff {n : Numeral} :
    n.reduced.coefficient = 0 ↔ n.coefficient = 0 := by
  constructor
  · intro h
    by_contra hne
    obtain ⟨zeros, -, hcoefficient⟩ := reduced_zeros hne
    rw [h, zero_mul] at hcoefficient
    exact hne hcoefficient
  · intro h
    rw [reduced_of_zero h]

namespace Neighbourhood

variable {v : Neighbourhood} {n : Numeral} {digits c : ℕ} {power : ℤ}

/-- The number of digits before the point is about that of the numerator, less that of the
    denominator. -/
theorem natAbs_leading_le (hcentre : v.centre < 10 ^ digits)
    (hdenominator : v.denominator < 10 ^ digits) (hdigits : 0 < digits) :
    v.leading.natAbs ≤ digits := by
  have hnum := Nat.toDigits_length 10 v.centre digits hdigits hcentre
  have hden := Nat.toDigits_length 10 v.denominator digits hdigits hdenominator
  have hnumPos := @Nat.length_toDigits_pos 10 v.centre
  have hdenPos := @Nat.length_toDigits_pos 10 v.denominator
  rw [leading]
  dsimp only
  split <;> omega

/-- The point of a grid that is found is next to the number. -/
theorem le_of_onGrid? (h : v.onGrid? power = some c) :
    c ≤ v.centre * 10 ^ (-power).toNat + 1 := by
  have hbelow : (v.scaled v.centre power).1 / (v.scaled v.centre power).2 ≤
      v.centre * 10 ^ (-power).toNat := Nat.div_le_self _ _
  have hnear : c = (v.scaled v.centre power).1 / (v.scaled v.centre power).2 ∨
      c = (v.scaled v.centre power).1 / (v.scaled v.centre power).2 + 1 := by
    simp only [onGrid?, nearest] at h
    grind
  omega

/-- The point of a grid that is found lies in the interval. -/
theorem contains_of_onGrid? (h : v.onGrid? power = some c) : v.contains c power = true := by
  simp only [onGrid?, nearest] at h
  grind

theorem not_contains_zero (hlow : 0 < v.low) : v.contains 0 power = false := by
  have hpos : 0 < v.low * Nat.pow 10 (-power).toNat := Nat.mul_pos hlow (Nat.pow_pos (by norm_num))
  have hends : ¬v.low * Nat.pow 10 (-power).toNat ≤ 0 := not_le.2 hpos
  have hinside : ¬v.low * Nat.pow 10 (-power).toNat < 0 := Nat.not_lt_zero _
  rw [contains, scaled, scaled]
  dsimp only
  rw [zero_mul, decide_eq_false hends, decide_eq_false hinside]
  exact ite_self _

/-- The grids are tried one after the other, and the point is on one of them. -/
theorem of_search? {grids : ℕ} (h : v.search? grids power = some n) :
    power - grids < n.power ∧ n.power ≤ power ∧ v.onGrid? n.power = some n.coefficient := by
  induction grids generalizing power with
  | zero => cases h
  | succ grids ih =>
    rw [search?] at h
    split at h
    next c hfound =>
      obtain rfl := Option.some.inj h
      exact ⟨by push_cast; omega, le_rfl, hfound⟩
    next =>
      obtain ⟨hlow, hhigh, hfound⟩ := ih h
      exact ⟨by push_cast; omega, by omega, hfound⟩

/-- The shortest numeral in an interval with few digits has a small power and few digits. -/
theorem digits_shortest? (hcentre : v.centre < 10 ^ digits)
    (hdenominator : v.denominator < 10 ^ digits) (hdigits : 0 < digits)
    (h : v.shortest? = some n) :
    n.power.natAbs ≤ digits + 17 ∧ n.coefficient < 10 ^ (2 * digits + 18) := by
  have hleading := natAbs_leading_le hcentre hdenominator hdigits
  obtain ⟨hlow, hhigh, hfound⟩ := of_search? h
  rw [maxDigits] at hlow
  have hpower : n.power.natAbs ≤ digits + 17 := by omega
  refine ⟨hpower, ?_⟩
  calc n.coefficient
      ≤ v.centre * 10 ^ (-n.power).toNat + 1 := le_of_onGrid? hfound
    _ ≤ v.centre * 10 ^ (digits + 17) + 10 ^ (digits + 17) := by
        gcongr
        · norm_num
        · omega
        · exact Nat.one_le_pow _ _ (by norm_num)
    _ = (v.centre + 1) * 10 ^ (digits + 17) := by ring
    _ ≤ 10 ^ digits * 10 ^ (digits + 17) := by gcongr; exact hcentre
    _ < 10 ^ (2 * digits + 18) := by
        rw [← pow_add]
        exact Nat.pow_lt_pow_right (by norm_num) (by omega)

end Neighbourhood

namespace BinaryFormat

variable {f : BinaryFormat} {negative : Bool} {m digits : ℕ} {e : ℤ}

/-! ### The power of the shortest numeral -/

theorem pow_le_ten_pow {base exponent : ℕ} (hbase : base ≤ 10) (hexponent : exponent ≤ digits) :
    base ^ exponent ≤ 10 ^ digits :=
  (Nat.pow_le_pow_left hbase _).trans (Nat.pow_le_pow_right (by norm_num) hexponent)

theorem centre_ofFinite_lt (hm : m < 10 ^ digits) (he : e.natAbs ≤ digits) :
    (Neighbourhood.ofFinite f m e).centre < 10 ^ (2 * digits + 1) := by
  have hunit : 2 ^ e.toNat ≤ 10 ^ digits := pow_le_ten_pow (by norm_num) (by omega)
  change 4 * m * 2 ^ e.toNat < _
  calc 4 * m * 2 ^ e.toNat
      ≤ 4 * m * 10 ^ digits := Nat.mul_le_mul_left _ hunit
    _ < 10 * 10 ^ digits * 10 ^ digits := by gcongr; omega
    _ = 10 ^ (2 * digits + 1) := by ring

theorem denominator_ofFinite_lt (he : e.natAbs ≤ digits) :
    (Neighbourhood.ofFinite f m e).denominator < 10 ^ (2 * digits + 1) := by
  have hunit : 2 ^ (-e).toNat ≤ 10 ^ (2 * digits) := pow_le_ten_pow (by norm_num) (by omega)
  change 4 * 2 ^ (-e).toNat < _
  calc 4 * 2 ^ (-e).toNat
      ≤ 4 * 10 ^ (2 * digits) := Nat.mul_le_mul_left _ hunit
    _ < 10 * 10 ^ (2 * digits) := by gcongr; norm_num
    _ = 10 ^ (2 * digits + 1) := by ring

theorem digits_allDigits (hm : m < 10 ^ digits) (he : e.natAbs ≤ digits) :
    (allDigits m e).power.natAbs ≤ digits ∧ (allDigits m e).coefficient < 10 ^ (2 * digits) := by
  have hfactor {base exponent : ℕ} (hbase : base ≤ 10) (hexponent : exponent ≤ digits) :
      m * base ^ exponent < 10 ^ (2 * digits) :=
    calc m * base ^ exponent
        ≤ m * 10 ^ digits := Nat.mul_le_mul_left _ (pow_le_ten_pow hbase hexponent)
      _ < 10 ^ digits * 10 ^ digits := by gcongr
      _ = 10 ^ (2 * digits) := by ring
  rw [allDigits]
  split
  · exact ⟨Nat.zero_le _, hfactor (by norm_num) (by omega)⟩
  · exact ⟨he, hfactor (by norm_num) (by omega)⟩

/-- A number whose significand and exponent have few digits has a shortest numeral with a
    small power. -/
theorem natAbs_power_shortest_le (hm : m < 10 ^ digits) (he : e.natAbs ≤ digits) :
    (f.shortest m e).power.natAbs ≤ 6 * digits + 38 := by
  rw [shortest]
  split
  · exact Nat.zero_le _
  dsimp only
  cases hshortest : (Neighbourhood.ofFinite f m e).shortest? with
  | some n =>
    obtain ⟨hpower, hcoefficient⟩ := Neighbourhood.digits_shortest?
      (centre_ofFinite_lt hm he) (denominator_ofFinite_lt he) (by omega) hshortest
    have hreduced := Numeral.natAbs_power_reduced_le hcoefficient
    rw [Option.getD_some]
    omega
  | none =>
    obtain ⟨hpower, hcoefficient⟩ := digits_allDigits hm he
    have hreduced := Numeral.natAbs_power_reduced_le hcoefficient
    rw [Option.getD_none]
    omega

/-! ### Zero -/

/-- Only zero shows no digit but zero. -/
theorem coefficient_shortest_eq_zero_iff : (f.shortest m e).coefficient = 0 ↔ m = 0 := by
  rw [shortest]
  split
  next h => simp [h]
  next h =>
    dsimp only
    rw [Numeral.coefficient_reduced_eq_zero_iff]
    refine iff_of_false ?_ h
    cases hshortest : (Neighbourhood.ofFinite f m e).shortest? with
    | some n =>
      obtain ⟨-, -, hfound⟩ := Neighbourhood.of_search? hshortest
      have hcontains := Neighbourhood.contains_of_onGrid? hfound
      have hlow : 0 < (Neighbourhood.ofFinite f m e).low := by
        simp only [Neighbourhood.ofFinite]
        refine Nat.mul_pos ?_ (Nat.two_pow_pos _)
        split <;> omega
      intro hzero
      rw [Option.getD_some] at hzero
      rw [hzero, Neighbourhood.not_contains_zero hlow] at hcontains
      cases hcontains
    | none =>
      rw [Option.getD_none, allDigits]
      split
      · exact (Nat.mul_pos (Nat.pos_of_ne_zero h) (Nat.two_pow_pos _)).ne'
      · exact (Nat.mul_pos (Nat.pos_of_ne_zero h) (Nat.pow_pos (by norm_num))).ne'

/-! ### Words of a format -/

/-- A number of digits that suffices for the significands and the exponents of a format. -/
def maxDatumDigits (f : BinaryFormat) : ℕ := f.fractionBits + 2 ^ f.exponentBits + 1

theorem natAbs_exponent_le (hlow : f.minExponent ≤ e)
    (hhigh : e ≤ f.minExponent + 2 ^ f.exponentBits) : e.natAbs ≤ f.maxDatumDigits := by
  have hhalf : (2 : ℤ) ^ (f.exponentBits - 1) ≤ 2 ^ f.exponentBits :=
    pow_le_pow_right₀ (by norm_num) (by omega)
  have hpos : (0 : ℤ) < 2 ^ (f.exponentBits - 1) := by positivity
  have hmin : f.minExponent = 2 - 2 ^ (f.exponentBits - 1) - f.fractionBits := rfl
  have hdigits : (f.maxDatumDigits : ℤ) = f.fractionBits + 2 ^ f.exponentBits + 1 := by
    rw [maxDatumDigits]
    push_cast
    rfl
  omega

/-- The significand and the exponent of a finite number have no more digits than the format
    has room for. -/
theorem digits_datum {word : ℕ} (h : f.datum word = .finite negative m e) :
    m < 10 ^ f.maxDatumDigits ∧ e.natAbs ≤ f.maxDatumDigits := by
  have hfraction := f.fraction_lt word
  have hbiased := f.biasedExponent_lt word
  simp only [datum, Nat.pow_eq] at h hfraction hbiased
  have hroom : 2 * 2 ^ f.fractionBits ≤ 10 ^ f.maxDatumDigits := by
    rw [← pow_succ']
    exact pow_le_ten_pow (by norm_num) (by rw [maxDatumDigits]; omega)
  zify at hbiased
  split_ifs at h <;> obtain ⟨-, rfl, rfl⟩ := BinaryDatum.finite.inj h
  · exact ⟨by omega, natAbs_exponent_le le_rfl (le_add_of_nonneg_right (by positivity))⟩
  · exact ⟨by omega, natAbs_exponent_le (by omega) (by omega)⟩

/-! ### Conversion -/

/-- The decimal of a finite number stands for its shortest numeral, and has the scale asked
    for, as long as these fit into words. -/
theorem toDecimal?_finite (negative : Bool) (h : (f.shortest m e).power.natAbs < 2 ^ 62) :
    ∃ d, f.toDecimal? (.finite negative m e) = some d ∧
      d.scale.toInt = decimalScale (isModerate m e) (f.shortest m e) ∧
      d.toRat = (if negative then -1 else 1) * (f.shortest m e).toRat := by
  generalize hn : f.shortest m e = n at h
  have hscale : -n.power ≤ decimalScale (isModerate m e) n ∧
      decimalScale (isModerate m e) n ≤ 1 + n.power.natAbs := by
    rw [decimalScale, Numeral.leading]
    split <;> omega
  have hword : (Int64.ofInt (decimalScale (isModerate m e) n)).toInt =
      decimalScale (isModerate m e) n := Int64.toInt_ofInt_of_le (by omega) (by omega)
  have hpower : (Int64.ofInt (-n.power)).toInt = -n.power :=
    Int64.toInt_ofInt_of_le (by omega) (by omega)
  rw [toDecimal?, hn]
  refine ⟨_, rfl, hword, ?_⟩
  rw [Decimal.toRat_withScale (by rw [hpower, hword]; exact hscale.1), Decimal.toRat, hpower,
    neg_neg, Numeral.toRat]
  cases negative <;> simp

end BinaryFormat

end AdaptiveArith
