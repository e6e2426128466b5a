import AdaptiveArith.Proofs.Ladder

/-!
# Equal numbers

Decimals are compared by their digits and floats by their words, neither by the numbers that
they stand for. That it comes to the same is due to normal forms. A numeral without zeros at
its end is determined by its number (`Numeral.reduced_eq_iff`), and so two decimals are equal
exactly if they stand for one rational number, at whatever scales (`Decimal.numEq_iff`).

The significand of a float is as long as the format allows, unless its exponent is the least
one (`BinaryFormat.Normal`). This determines both of them, and with the sign the word, except
that a zero has two signs (`BinaryFormat.amount?_inj`). Hence two floats are equal exactly if
both are numbers, and the same one (`Binary32.numEq_iff`, `Binary64.numEq_iff`).
-/

namespace AdaptiveArith

/-- Of two equal multiples of powers, that of the smaller power makes up for the difference of
    the powers. -/
theorem eq_mul_pow_of_mul_zpow_eq (base : ℕ) (hbase : 0 < base) {m n : ℕ} {i j : ℤ}
    (hle : i ≤ j) (h : (m : ℚ) * base ^ i = n * base ^ j) : m = n * base ^ (j - i).toNat := by
  have hne : (base : ℚ) ≠ 0 := by exact_mod_cast hbase.ne'
  obtain ⟨k, hk⟩ := Int.eq_ofNat_of_zero_le (sub_nonneg.2 hle)
  have hj : j = k + i := by omega
  rw [hj, zpow_add₀ hne, zpow_natCast, ← mul_assoc] at h
  rw [hk, Int.toNat_natCast]
  exact_mod_cast mul_right_cancel₀ (zpow_ne_zero i hne) h

/-! ### Numerals -/

namespace Numeral

variable {m n : Numeral}

theorem toRat_eq_zero_iff : n.toRat = 0 ↔ n.coefficient = 0 := by
  rw [toRat, mul_eq_zero_iff_right (by positivity), Nat.cast_eq_zero]

/-- The reduced form of a numeral has no zero at its end. -/
theorem coefficient_reduced_mod (h : n.coefficient ≠ 0) : n.reduced.coefficient % 10 ≠ 0 := by
  fun_induction reduced n with
  | case1 n hzero => exact absurd hzero h
  | case2 n hne hdigit ih => exact ih (by dsimp only; omega)
  | case3 n hne hdigit => exact hdigit

/-- No other numeral of its number has as large a power as one without a zero at its end. -/
theorem eq_of_toRat_eq_of_le (hm : m.coefficient % 10 ≠ 0) (hle : m.power ≤ n.power)
    (h : m.toRat = n.toRat) : m = n := by
  have hcoefficient := eq_mul_pow_of_mul_zpow_eq 10 (by norm_num) hle h
  rcases hle.eq_or_lt with hpower | hlt
  · rw [hpower, sub_self, Int.toNat_zero, pow_zero, mul_one] at hcoefficient
    cases m
    cases n
    exact congrArg₂ mk hcoefficient hpower
  · -- The powers differ, which would be zeros at the end.
    obtain ⟨zeros, hzeros⟩ := Nat.exists_eq_succ_of_ne_zero (n := (n.power - m.power).toNat)
      (by omega)
    rw [hzeros, pow_succ, ← mul_assoc] at hcoefficient
    omega

/-- Numerals have one reduced form exactly if they stand for one number. -/
theorem reduced_eq_iff : m.reduced = n.reduced ↔ m.toRat = n.toRat := by
  constructor
  · intro h
    rw [← toRat_reduced m, h, toRat_reduced]
  · intro h
    by_cases hzero : m.coefficient = 0
    · have hn : n.coefficient = 0 := by
        rw [← toRat_eq_zero_iff, ← h, toRat_eq_zero_iff, hzero]
      rw [reduced_of_zero hzero, reduced_of_zero hn]
    · have hn : n.coefficient ≠ 0 := by
        rwa [Ne, ← toRat_eq_zero_iff, ← h, toRat_eq_zero_iff]
      have hreduced : m.reduced.toRat = n.reduced.toRat := by
        rw [toRat_reduced, h, toRat_reduced]
      rcases le_total m.reduced.power n.reduced.power with hle | hle
      · exact eq_of_toRat_eq_of_le (coefficient_reduced_mod hzero) hle hreduced
      · exact (eq_of_toRat_eq_of_le (coefficient_reduced_mod hn) hle hreduced.symm).symm

end Numeral

/-! ### Decimals -/

namespace Decimal

variable {d r : Decimal}

theorem sign_toRat (d : Decimal) : SignType.sign d.toRat = SignType.sign d.unscaled := by
  have hpower : (0 : ℚ) < 10 ^ (-d.scale.toInt) := by positivity
  rw [toRat, sign_mul, sign_pos hpower, mul_one, sign_intCast]

theorem abs_toRat (d : Decimal) : |d.toRat| = d.magnitude.toRat := by
  have hpower : (0 : ℚ) < 10 ^ (-d.scale.toInt) := by positivity
  rw [toRat, abs_mul, abs_of_pos hpower, Numeral.toRat, magnitude, Nat.cast_natAbs, Int.cast_abs]

/-- Decimals are equal exactly if they stand for one number. -/
theorem numEq_iff : d.numEq r = true ↔ d.toRat = r.toRat := by
  rw [numEq, Bool.and_eq_true, beq_iff_eq, beq_iff_eq, Numeral.reduced_eq_iff]
  constructor
  · rintro ⟨hsign, hsize⟩
    rw [← toRat_magnitude, hsign, hsize, toRat_magnitude]
  · intro h
    refine ⟨?_, ?_⟩
    · rw [Int.sign_eq_sign, Int.sign_eq_sign, ← sign_toRat, h, sign_toRat]
    · rw [← abs_toRat, h, abs_toRat]

/-- Equal decimals of one scale have the same digits. -/
theorem unscaled_eq_of_toRat_eq (hscale : d.scale = r.scale) (h : d.toRat = r.toRat) :
    d.unscaled = r.unscaled := by
  rw [toRat, toRat, hscale] at h
  exact Int.cast_injective (mul_right_cancel₀ (zpow_ne_zero _ (by norm_num)) h)

end Decimal

/-! ### Data of floats -/

namespace BinaryDatum

variable {x : BinaryDatum} {m : ℕ} {e : ℤ} {negative negative' : Bool}

/-- The rational number of a finite datum. -/
def finiteAmount (negative : Bool) (m : ℕ) (e : ℤ) : ℚ :=
  (if negative then -1 else 1) * (m * 2 ^ e)

/-- The number that a datum stands for, a rational number or an infinity with its sign. -/
def amount? : BinaryDatum → Option (ℚ ⊕ Bool)
  | nan => none
  | infinite negative => some (.inr negative)
  | finite negative m e => some (.inl (finiteAmount negative m e))

theorem amount?_eq_none_iff : x.amount? = none ↔ x = nan := by
  cases x <;> simp [amount?]

theorem ne_nan_of_amount? {z : ℚ ⊕ Bool} (h : x.amount? = some z) : x ≠ nan := by
  rw [Ne, ← amount?_eq_none_iff, h]
  exact Option.some_ne_none z

theorem abs_finiteAmount (negative : Bool) (m : ℕ) (e : ℤ) :
    |finiteAmount negative m e| = m * 2 ^ e := by
  have hsize : (0 : ℚ) ≤ m * 2 ^ e := by positivity
  cases negative <;> simp [finiteAmount, abs_of_nonneg hsize]

theorem finiteAmount_neg_iff (hm : m ≠ 0) : finiteAmount negative m e < 0 ↔ negative = true := by
  have hpos : (0 : ℚ) < m * 2 ^ e := by positivity
  cases negative <;> simp [finiteAmount, hpos, hpos.le]

/-- The sign can be told from the number, unless that is zero. -/
theorem eq_of_finiteAmount_eq (hm : m ≠ 0)
    (h : finiteAmount negative m e = finiteAmount negative' m e) : negative = negative' := by
  rw [Bool.eq_iff_iff, ← finiteAmount_neg_iff hm, h, finiteAmount_neg_iff hm]

theorem amount?_of_isZero (h : x.isZero = true) : x.amount? = some (.inl 0) := by
  cases x with
  | nan | infinite => cases h
  | finite negative m e =>
    rw [amount?, finiteAmount, beq_iff_eq.1 h, Nat.cast_zero, zero_mul, mul_zero]

end BinaryDatum

namespace BinaryFormat

variable {f : BinaryFormat} {m m' word word' : ℕ} {e e' : ℤ} {negative : Bool}

/-- The significand and the exponent are those of a word: the significand is not too long, and
    as long as it can be, unless the exponent is the least one. -/
structure Normal (f : BinaryFormat) (m : ℕ) (e : ℤ) : Prop where
  lt : m < 2 * 2 ^ f.fractionBits
  least_le : f.minExponent ≤ e
  full : e = f.minExponent ∨ 2 ^ f.fractionBits ≤ m

theorem normal_datum (h : f.datum word = .finite negative m e) : f.Normal m e := by
  have hfraction := f.fraction_lt word
  simp only [datum, Nat.pow_eq] at h hfraction
  split_ifs at h <;> obtain ⟨-, rfl, rfl⟩ := BinaryDatum.finite.inj h
  · exact ⟨by omega, le_rfl, .inl rfl⟩
  · exact ⟨by omega, by omega, .inr (by omega)⟩

theorem Normal.eq_of_le (h : f.Normal m e) (h' : f.Normal m' e') (hle : e ≤ e')
    (heq : (m : ℚ) * 2 ^ e = m' * 2 ^ e') : m = m' ∧ e = e' := by
  have hm := eq_mul_pow_of_mul_zpow_eq 2 (by norm_num) hle (by exact_mod_cast heq)
  rcases hle.eq_or_lt with rfl | hlt
  · rw [sub_self, Int.toNat_zero, pow_zero, mul_one] at hm
    exact ⟨hm, rfl⟩
  · -- The larger exponent is not the least one, so that its significand is full and the other
    -- one is too long.
    have hleast := h.least_le
    have hfull := h'.full.resolve_left (by omega)
    obtain ⟨k, hk⟩ := Nat.exists_eq_succ_of_ne_zero (n := (e' - e).toNat) (by omega)
    have hlong : 2 * 2 ^ f.fractionBits ≤ m := by
      calc 2 * 2 ^ f.fractionBits ≤ 2 * (m' * 2 ^ k) :=
            Nat.mul_le_mul_left 2 (hfull.trans (Nat.le_mul_of_pos_right _ (Nat.two_pow_pos k)))
        _ = m := by rw [hm, hk, pow_succ]; ring
    exact absurd h.lt hlong.not_gt

/-- The size of a finite number determines its significand and its exponent. -/
theorem Normal.unique (h : f.Normal m e) (h' : f.Normal m' e')
    (heq : (m : ℚ) * 2 ^ e = m' * 2 ^ e') : m = m' ∧ e = e' := by
  rcases le_total e e' with hle | hle
  · exact h.eq_of_le h' hle heq
  · obtain ⟨hm, he⟩ := h'.eq_of_le h hle heq.symm
    exact ⟨hm.symm, he.symm⟩

/-- Data of words that stand for one number are the same, or both are zeros. -/
theorem amount?_inj {z : ℚ ⊕ Bool} (h : (f.datum word).amount? = some z)
    (h' : (f.datum word').amount? = some z) : f.datum word = f.datum word' ∨
      (f.datum word).isZero = true ∧ (f.datum word').isZero = true := by
  cases hx : f.datum word with
  | nan => rw [hx] at h; cases h
  | infinite negative =>
    rw [hx] at h
    obtain rfl := Option.some.inj h
    cases hy : f.datum word' with
    | nan | finite => rw [hy] at h'; cases h'
    | infinite negative' =>
      rw [hy] at h'
      exact .inl (congrArg BinaryDatum.infinite (Sum.inr.inj (Option.some.inj h')).symm)
  | finite negative m e =>
    rw [hx] at h
    obtain rfl := Option.some.inj h
    cases hy : f.datum word' with
    | nan | infinite => rw [hy] at h'; cases h'
    | finite negative' m' e' =>
      rw [hy] at h'
      have heq := Sum.inl.inj (Option.some.inj h')
      have hsize := congrArg abs heq
      rw [BinaryDatum.abs_finiteAmount, BinaryDatum.abs_finiteAmount] at hsize
      obtain ⟨rfl, rfl⟩ := (normal_datum hy).unique (normal_datum hx) hsize
      rcases eq_or_ne m' 0 with hzero | hne
      · exact .inr ⟨beq_iff_eq.2 hzero, beq_iff_eq.2 hzero⟩
      · rw [BinaryDatum.eq_of_finiteAmount_eq hne heq]
        exact .inl rfl

/-- A word is put together from its three fields. -/
theorem word_eq_fields (hword : word < 2 ^ (f.fractionBits + f.exponentBits + 1)) :
    word = f.fraction word + 2 ^ f.fractionBits *
      (f.biasedExponent word + 2 ^ f.exponentBits * (f.isNegative word).toNat) := by
  have hlt : word / 2 ^ f.fractionBits / 2 ^ f.exponentBits < 2 := by
    rw [Nat.div_div_eq_div_mul, ← pow_add]
    exact Nat.div_lt_of_lt_mul (by rwa [← pow_succ])
  have hsign : (f.isNegative word).toNat = word / 2 ^ f.fractionBits / 2 ^ f.exponentBits := by
    rw [isNegative, Nat.pow_eq, pow_add, ← Nat.div_div_eq_div_mul, Nat.mod_eq_of_lt hlt]
    interval_cases word / 2 ^ f.fractionBits / 2 ^ f.exponentBits <;> rfl
  rw [hsign, fraction, biasedExponent, Nat.pow_eq, Nat.pow_eq, Nat.mod_add_div, Nat.mod_add_div]

/-- A datum that is a number determines its word. -/
theorem datum_inj (hword : word < 2 ^ (f.fractionBits + f.exponentBits + 1))
    (hword' : word' < 2 ^ (f.fractionBits + f.exponentBits + 1))
    (hnumber : f.datum word ≠ .nan) (h : f.datum word = f.datum word') : word = word' := by
  have hfraction := f.fraction_lt word
  have hfraction' := f.fraction_lt word'
  have hfields : f.fraction word = f.fraction word' ∧
      f.biasedExponent word = f.biasedExponent word' ∧
      f.isNegative word = f.isNegative word' := by
    -- The exponent field tells the three forms of data apart, and each of them shows its fields.
    simp only [datum, Nat.pow_eq] at h hnumber hfraction hfraction'
    grind
  rw [word_eq_fields hword, word_eq_fields hword', hfields.1, hfields.2.1, hfields.2.2]

/-- Words stand for one number exactly if both are numbers, and the same word or zeros. -/
theorem exists_amount?_iff (hword : word < 2 ^ (f.fractionBits + f.exponentBits + 1))
    (hword' : word' < 2 ^ (f.fractionBits + f.exponentBits + 1)) :
    (∃ z, (f.datum word).amount? = some z ∧ (f.datum word').amount? = some z) ↔
      f.datum word ≠ .nan ∧ f.datum word' ≠ .nan ∧
        (word = word' ∨ (f.datum word).isZero = true ∧ (f.datum word').isZero = true) := by
  constructor
  · rintro ⟨z, h, h'⟩
    have hnumber := BinaryDatum.ne_nan_of_amount? h
    exact ⟨hnumber, BinaryDatum.ne_nan_of_amount? h',
      (amount?_inj h h').imp_left (datum_inj hword hword' hnumber)⟩
  · rintro ⟨hnumber, -, rfl | ⟨hzero, hzero'⟩⟩
    · rw [Ne, ← BinaryDatum.amount?_eq_none_iff] at hnumber
      obtain ⟨z, hz⟩ := Option.ne_none_iff_exists'.1 hnumber
      exact ⟨z, hz, hz⟩
    · exact ⟨_, BinaryDatum.amount?_of_isZero hzero, BinaryDatum.amount?_of_isZero hzero'⟩

end BinaryFormat

/-! ### Floats -/

/-- Floats are equal exactly if they are numbers, and the same one. -/
theorem Binary32.numEq_iff {x y : Binary32} : x.numEq y = true ↔
    ∃ z, x.datum.amount? = some z ∧ y.datum.amount? = some z := by
  have hword (x : Binary32) : x.bits.toNat < 2 ^ 32 := x.bits.toNat_lt
  rw [datum, datum, BinaryFormat.exists_amount?_iff (hword x) (hword y)]
  simp [numEq, isNaN, ← isZero_datum, datum, UInt32.toNat_inj, and_assoc]

/-- Floats are equal exactly if they are numbers, and the same one. -/
theorem Binary64.numEq_iff {x y : Binary64} : x.numEq y = true ↔
    ∃ z, x.datum.amount? = some z ∧ y.datum.amount? = some z := by
  have hword (x : Binary64) : x.bits.toNat < 2 ^ 64 := x.bits.toNat_lt
  rw [datum, datum, BinaryFormat.exists_amount?_iff (hword x) (hword y)]
  simp [numEq, isNaN, ← isZero_datum, datum, UInt64.toNat_inj, and_assoc]

end AdaptiveArith
