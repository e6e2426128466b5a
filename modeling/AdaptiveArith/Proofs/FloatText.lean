import AdaptiveArith.Proofs.DecimalText
import AdaptiveArith.Proofs.DecimalTier

/-!
# The decimal of a float and its texts

A finite float has two texts with its shortest digits: a scientific one, with an exponent, and a
positional one, which is how the float is shown. Both are read as decimals of the number that the
digits stand for (`Numeral.decimal?_scientificText`, `Numeral.decimal?_pointedText`), since the
parts of the texts are all digits of the numeral, with zeros around them in the positional one.

The decimal that a float becomes stands for the same number, and its scale follows these texts
(`Decimal.MatchesTexts`): for moderate sizes it is that of the positional text, and for others
the one that a scientific text with at least one digit after the point would have. It is never
too small for the digits, so that none is lost. `Scalar.toDecimal?_matchesTexts` says so for all
finite floats of both formats.
-/

namespace AdaptiveArith

open DecimalReader

namespace Numeral

variable (n : Numeral) (negative : Bool)

theorem digits_ne_nil : n.digits ≠ [] := Nat.toDigits_ne_nil

theorem ofDigitChars_digits : Nat.ofDigitChars 10 n.digits 0 = n.coefficient :=
  Nat.ofDigitChars_ten_toDigits

/-! ### Scientific texts -/

/-- The parts of the scientific text. -/
def scientificParts : DecimalText where
  negative := negative
  whole := n.digits.take 1
  fraction := n.digits.drop 1
  exponent? := some n.leading
  whole_ne_nil := by
    rw [ne_eq, List.take_eq_nil_iff, not_or]
    exact ⟨one_ne_zero, n.digits_ne_nil⟩
  isDigit := by
    rw [List.take_append_drop]
    exact isDigit_toDigits n.coefficient

theorem text_scientificParts : (n.scientificParts negative).text =
    BinaryFormat.signText negative ++ BinaryFormat.scientificText n := by
  have hmantissa : (n.scientificParts negative).digits = n.mantissa := by
    have hne := n.digits_ne_nil
    change n.digits.take 1 ++ (if n.digits.drop 1 = [] then [] else '.' :: n.digits.drop 1) = _
    rw [mantissa]
    cases hdigits : n.digits with
    | nil => exact absurd hdigits hne
    | cons first rest => cases rest <;> rfl
  rw [DecimalText.text, hmantissa, BinaryFormat.scientificText, List.append_assoc]
  rfl

theorem length_fraction_scientificParts :
    (n.scientificParts negative).fraction.length = n.fractionDigits :=
  List.length_drop

theorem digits_scientificParts : (n.scientificParts negative).whole ++
    (n.scientificParts negative).fraction = n.digits :=
  List.take_append_drop 1 n.digits

/-! ### Positional texts -/

/-- The number of digits after the point in the positional text. -/
def places : ℕ := (max 1 (-n.power)).toNat

/-- The digits of the positional text, with zeros at the end or in front. -/
def positionalDigits : List Char :=
  if 0 ≤ n.power then n.digits ++ List.replicate (n.power.toNat + 1) '0'
  else List.replicate (n.places + 1 - n.digits.length) '0' ++ n.digits

theorem places_lt_length : n.places < n.positionalDigits.length := by
  have hpos : 0 < n.digits.length := List.length_pos_iff.2 n.digits_ne_nil
  rw [positionalDigits, places]
  split <;> rw [List.length_append, List.length_replicate] <;> omega

/-- The parts of the positional text. -/
def positionalParts : DecimalText where
  negative := negative
  whole := n.positionalDigits.take (n.positionalDigits.length - n.places)
  fraction := n.positionalDigits.drop (n.positionalDigits.length - n.places)
  exponent? := none
  whole_ne_nil := by
    have hlt := n.places_lt_length
    rw [← List.length_pos_iff, List.length_take]
    omega
  isDigit := by
    rw [List.take_append_drop]
    have hdigits := isDigit_toDigits n.coefficient
    have hzero (k : ℕ) : ∀ c ∈ List.replicate k '0', c.isDigit = true := by
      rintro c hc
      rw [List.eq_of_mem_replicate hc]
      rfl
    rw [positionalDigits]
    split
    · exact fun c hc => (List.mem_append.1 hc).elim (hdigits c) (hzero _ c)
    · exact fun c hc => (List.mem_append.1 hc).elim (hzero _ c) (hdigits c)

theorem length_fraction_positionalParts :
    (n.positionalParts negative).fraction.length = n.places := by
  have hlt := n.places_lt_length
  rw [positionalParts, List.length_drop]
  omega

theorem digits_positionalParts : (n.positionalParts negative).whole ++
    (n.positionalParts negative).fraction = n.positionalDigits :=
  List.take_append_drop _ n.positionalDigits

theorem text_positionalParts : (n.positionalParts negative).text =
    BinaryFormat.signText negative ++ BinaryFormat.pointedText n := by
  have hfraction : (n.positionalParts negative).fraction ≠ [] := by
    rw [← List.length_pos_iff, length_fraction_positionalParts, places]
    omega
  have hdigits : (n.positionalParts negative).digits = BinaryFormat.pointedText n := by
    rw [DecimalText.digits, if_neg hfraction]
    change n.positionalDigits.take (n.positionalDigits.length - n.places) ++
      '.' :: n.positionalDigits.drop (n.positionalDigits.length - n.places) = _
    rw [BinaryFormat.pointedText, positional, positionalDigits, places]
    split
    next h =>
      have hone : (max 1 (-n.power)).toNat = 1 := by omega
      have hlength (digits : List Char) : (digits ++ ['0']).length - 1 = digits.length := by simp
      rw [hone, List.replicate_succ', ← List.append_assoc, hlength, List.take_left, List.drop_left,
        List.append_assoc]
    next h =>
      have hplaces : (max 1 (-n.power)).toNat = (-n.power).toNat := by omega
      rw [hplaces]
      rfl
  rw [DecimalText.text, hdigits]
  exact List.append_nil _

/-- The digits of the positional text show the number without its point. -/
theorem ofDigitChars_positionalDigits : Nat.ofDigitChars 10 n.positionalDigits 0 =
    n.coefficient * 10 ^ (n.places + n.power).toNat := by
  rw [positionalDigits]
  split
  next h =>
    have hexponent : (n.places + n.power).toNat = n.power.toNat + 1 := by
      rw [places]
      omega
    rw [Nat.ofDigitChars_append, ofDigitChars_digits, Nat.ofDigitChars_replicate_zero, hexponent,
      mul_comm]
  next h =>
    have hexponent : (n.places + n.power).toNat = 0 := by
      rw [places]
      omega
    rw [Nat.ofDigitChars_append, Nat.ofDigitChars_replicate_zero, mul_zero, ofDigitChars_digits,
      hexponent, pow_zero, mul_one]

/-! ### What is read -/

/-- With zeros appended, and a scale that counts them, the digits show the same number. -/
theorem toRat_signed {scale : ℤ} (hscale : 0 ≤ scale + n.power) (hlow : -2 ^ 63 ≤ scale)
    (hhigh : scale < 2 ^ 63) :
    (Decimal.mk (signed negative (n.coefficient * 10 ^ (scale + n.power).toNat))
      (.ofInt scale)).toRat = (if negative then -1 else 1) * n.toRat := by
  obtain ⟨zeros, hzeros⟩ := Int.eq_ofNat_of_zero_le hscale
  have hpower : n.power = zeros + -scale := by omega
  rw [Decimal.toRat, Int64.toInt_ofInt_of_le hlow hhigh, toRat, hzeros, Int.toNat_natCast,
    hpower, zpow_add₀ (by norm_num), zpow_natCast, signed]
  cases negative <;> simp [mul_assoc]

variable {n}

/-- The scientific text is read as the digits and the power of the numeral. -/
theorem decimal?_scientificText (h : n.power.natAbs < 2 ^ 62) :
    decimal? (BinaryFormat.signText negative ++ BinaryFormat.scientificText n) =
      some ⟨signed negative n.coefficient, .ofInt (-n.power)⟩ := by
  have hscale : ((n.scientificParts negative).fraction.length : ℤ) -
      (n.scientificParts negative).exponent?.getD 0 = -n.power := by
    rw [length_fraction_scientificParts]
    exact sub_add_cancel_right _ _
  rw [← text_scientificParts, DecimalText.decimal?_text _ hscale (by omega) (by omega),
    digits_scientificParts, ofDigitChars_digits]
  rfl

theorem length_fraction_scientificText (n : Numeral) (negative : Bool) :
    (fraction (BinaryFormat.signText negative ++ BinaryFormat.scientificText n)).length =
      n.fractionDigits := by
  rw [← text_scientificParts, DecimalText.fraction_text, length_fraction_scientificParts]

theorem exponent?_scientificText (n : Numeral) (negative : Bool) :
    exponent? (BinaryFormat.signText negative ++ BinaryFormat.scientificText n) =
      some n.leading := by
  rw [← text_scientificParts, DecimalText.exponent?_text]
  rfl

/-- The positional text is read as the number of the numeral, with at least one digit after the
    point. -/
theorem decimal?_pointedText (h : n.power.natAbs < 2 ^ 62) :
    ∃ r, decimal? (BinaryFormat.signText negative ++ BinaryFormat.pointedText n) = some r ∧
      r.scale.toInt = max 1 (-n.power) ∧ r.toRat = (if negative then -1 else 1) * n.toRat := by
  have hplaces : (n.places : ℤ) = max 1 (-n.power) := Int.toNat_of_nonneg (by omega)
  have hscale : ((n.positionalParts negative).fraction.length : ℤ) -
      (n.positionalParts negative).exponent?.getD 0 = n.places := by
    rw [length_fraction_positionalParts]
    exact sub_zero _
  rw [← text_positionalParts, DecimalText.decimal?_text _ hscale (by omega) (by omega),
    digits_positionalParts, ofDigitChars_positionalDigits]
  refine ⟨_, rfl, ?_, n.toRat_signed negative (by omega) (by omega) (by omega)⟩
  rw [Int64.toInt_ofInt_of_le (by omega) (by omega), hplaces]

end Numeral

/-! ### Decimals of floats -/

/-- The size of a number is zero, or at least a thousandth and less than ten million. -/
def Moderate (size : ℚ) : Prop := size = 0 ∨ 1 / 1000 ≤ size ∧ size < 10000000

/-- A decimal agrees with two texts of a number of some size. It shows the number of both of them,
    and is that of the scientific text with zeros appended. Its scale follows from the digits after
    the point and the exponent in the scientific text, and for a moderate size it is the scale of
    the positional text. -/
structure Decimal.MatchesTexts (d : Decimal) (size : ℚ) (scientific positional : List Char) :
    Prop where
  readsScientific : ∃ s, decimal? scientific = some s ∧ s.toRat = d.toRat ∧ d = s.withScale d.scale
  scale : ∃ x, exponent? scientific = some x ∧
    (Moderate size → d.scale.toInt = max 1 ((fraction scientific).length - x)) ∧
    (¬Moderate size → d.scale.toInt = max 1 ((fraction scientific).length : ℤ) - x) ∧
    (fraction scientific).length - x ≤ d.scale.toInt
  readsPositional : ∃ r, decimal? positional = some r ∧ r.toRat = d.toRat ∧
    (Moderate size → r.scale = d.scale)

theorem moderate_div {num den : ℕ} (hden : 0 < den) : Moderate (num / den) ↔
    num = 0 ∨ den ≤ 1000 * num ∧ num < 10000000 * den := by
  have hpos : (0 : ℚ) < den := by exact_mod_cast hden
  rw [Moderate, div_le_div_iff₀ (by norm_num) hpos, div_lt_iff₀ hpos, div_eq_zero_iff,
    or_iff_left hpos.ne', one_mul, mul_comm (num : ℚ)]
  norm_cast

namespace BinaryFormat

variable {f : BinaryFormat} {negative : Bool} {m : ℕ} {e : ℤ}

/-- The test for a moderate size compares the two sides of a fraction. -/
theorem isModerate_iff : isModerate m e = true ↔ Moderate (m * 2 ^ e) := by
  have hsize : (m * 2 ^ e : ℚ) = (m * Nat.pow 2 e.toNat : ℕ) / (Nat.pow 2 (-e).toNat : ℕ) := by
    have hexponent : e = e.toNat - (-e).toNat := by omega
    conv_lhs => rw [hexponent, zpow_sub₀ (by norm_num), zpow_natCast, zpow_natCast]
    rw [← mul_div_assoc]
    norm_cast
  have hpos : 0 < Nat.pow 2 (-e).toNat := Nat.two_pow_pos _
  rw [hsize, moderate_div hpos]
  simp only [isModerate, Bool.or_eq_true, Bool.and_eq_true, decide_eq_true_eq, beq_iff_eq]

/-- The decimal of a finite number agrees with its texts, as long as its shortest numeral has a
    small power. -/
theorem exists_matchesTexts (h : (f.shortest m e).power.natAbs < 2 ^ 62) :
    ∃ d, f.toDecimal? (.finite negative m e) = some d ∧
      d.MatchesTexts (m * 2 ^ e) (f.scientific (.finite negative m e)).toList
        (f.display (.finite negative m e)).toList := by
  obtain ⟨d, hd, hscale, hvalue⟩ := f.toDecimal?_finite negative h
  refine ⟨d, hd, ?_⟩
  have happended : d = (Decimal.mk (signed negative (f.shortest m e).coefficient)
      (.ofInt (-(f.shortest m e).power))).withScale d.scale := by
    obtain rfl := Option.some.inj hd
    rfl
  rw [scientific, display, String.toList_ofList, String.toList_ofList]
  generalize f.shortest m e = n at h hscale hvalue happended
  have hnatural : (n.fractionDigits : ℤ) - n.leading = -n.power := sub_add_cancel_right _ _
  have hmoderate (hsize : Moderate (m * 2 ^ e)) : d.scale.toInt = max 1 (-n.power) := by
    rw [hscale, isModerate_iff.2 hsize]
    rfl
  have hother (hsize : ¬Moderate (m * 2 ^ e)) :
      d.scale.toInt = max 1 (n.fractionDigits : ℤ) - n.leading := by
    rw [hscale, Bool.eq_false_iff.2 (isModerate_iff.not.2 hsize)]
    rfl
  refine ⟨?_, ⟨n.leading, n.exponent?_scientificText negative, ?_⟩, ?_⟩
  · have hnumber := n.toRat_signed negative (neg_add_cancel _).ge (by omega) (by omega)
    rw [neg_add_cancel, Int.toNat_zero, pow_zero, mul_one] at hnumber
    exact ⟨_, Numeral.decimal?_scientificText negative h, hnumber.trans hvalue.symm, happended⟩
  · rw [n.length_fraction_scientificText, hnatural]
    refine ⟨hmoderate, hother, ?_⟩
    by_cases hsize : Moderate (m * 2 ^ e)
    · rw [hmoderate hsize]
      exact le_max_right _ _
    · rw [hother hsize]
      omega
  · obtain ⟨r, hr, hrscale, hrvalue⟩ := Numeral.decimal?_pointedText negative h
    refine ⟨r, hr, hrvalue.trans hvalue.symm, fun hsize => ?_⟩
    rw [← Int64.toInt_inj, hrscale, hmoderate hsize]

end BinaryFormat

namespace Scalar

/-- The format of a float, and what its word stands for. -/
def float? : Scalar → Option (BinaryFormat × BinaryDatum)
  | int32 _ | int64 _ => none
  | float32 x => some (.binary32, x.datum)
  | float64 x => some (.binary64, x.datum)

/-- What follows the number in the text of a scalar. -/
def suffix : Scalar → String
  | int32 _ | float64 _ => ""
  | int64 _ => "L"
  | float32 _ => "f"

variable {p : Scalar} {f : BinaryFormat} {negative : Bool} {m : ℕ} {e : ℤ}

/-- The decimal and the text of a finite float are made from its shortest digits, whose power is
    small. -/
theorem of_float? (h : p.float? = some (f, .finite negative m e)) :
    p.toDecimal? = f.toDecimal? (.finite negative m e) ∧
      p.text = f.display (.finite negative m e) ++ p.suffix ∧
      (f.shortest m e).power.natAbs < 2 ^ 62 := by
  cases p with
  | int32 | int64 => cases h
  | float32 x =>
    obtain ⟨rfl, hdatum⟩ := Prod.mk.inj (Option.some.inj h)
    obtain ⟨hm, he⟩ := BinaryFormat.digits_datum hdatum
    rw [toDecimal?, text, hdatum]
    exact ⟨rfl, rfl, (BinaryFormat.natAbs_power_shortest_le hm he).trans_lt (by decide)⟩
  | float64 x =>
    obtain ⟨rfl, hdatum⟩ := Prod.mk.inj (Option.some.inj h)
    obtain ⟨hm, he⟩ := BinaryFormat.digits_datum hdatum
    rw [toDecimal?, text, hdatum]
    exact ⟨rfl, String.append_empty.symm,
      (BinaryFormat.natAbs_power_shortest_le hm he).trans_lt (by decide)⟩

/-- A finite float has a decimal, which agrees with its scientific text and with the text that it
    is shown as. -/
theorem toDecimal?_matchesTexts (h : p.float? = some (f, .finite negative m e)) :
    ∃ d body, p.toDecimal? = some d ∧ p.text = body ++ p.suffix ∧
      d.MatchesTexts (m * 2 ^ e) (f.scientific (.finite negative m e)).toList body.toList := by
  obtain ⟨hdecimal, htext, hpower⟩ := of_float? h
  obtain ⟨d, hd, hmatches⟩ := f.exists_matchesTexts hpower
  exact ⟨d, _, hdecimal.trans hd, htext, hmatches⟩

/-- Ten million is the least size that is too large for a moderate one. Its scientific text has no
    digit after the point, and the decimal has one, as the text that is shown has. -/
theorem toDecimal?_matchesTexts_tenMillion :
    let p : Scalar := .float64 ⟨0xc16312d000000000⟩
    p.float? = some (.binary64, .finite true 5368709120000000 (-29)) ∧
      p.toDecimal? = some ⟨-10, -6⟩ ∧ p.text = "-10000000.0" ∧
      (⟨-10, -6⟩ : Decimal).MatchesTexts ((5368709120000000 : ℕ) * 2 ^ (-29 : ℤ)) "-1e7".toList
        "-10000000.0".toList := by
  intro p
  have hfloat : p.float? = some (.binary64, .finite true 5368709120000000 (-29)) := by
    decide +kernel
  have hdecimal : p.toDecimal? = some ⟨-10, -6⟩ := by decide +kernel
  have htext : p.text = "-10000000.0" ++ p.suffix := by decide +kernel
  have hscientific :
      BinaryFormat.binary64.scientific (.finite true 5368709120000000 (-29)) = "-1e7" := by
    decide +kernel
  obtain ⟨d, body, hd, hbody, hmatches⟩ := toDecimal?_matchesTexts hfloat
  obtain rfl := Option.some.inj (hdecimal.symm.trans hd)
  rw [htext, String.append_left_inj] at hbody
  rw [hscientific, ← hbody] at hmatches
  exact ⟨hfloat, hdecimal, htext, hmatches⟩

end Scalar

end AdaptiveArith
