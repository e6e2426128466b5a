import AdaptiveArith.Proofs.DecimalTier
import AdaptiveArith.Proofs.Machine

/-!
# The ladder of the numbers

Two numbers of different kinds meet on the higher of their tiers, with the decimals above all
scalar kinds (`Number.tier`). What an operator does with them there is `Operator.FollowsLadder`:

* on the tier of the decimals, an operand that is not finite has no decimal, and this is what
  the operator fails with, whatever the other operand is;
* otherwise division by zero is an error on the tiers of the integers and of the decimals
  (`strictTiers`), and not on those of the floats;
* otherwise the result is a number on the tier where the two have met. Only a division of
  decimals may fail nevertheless, where the power of ten that aligns them is too large.

The second test comes after the conversion, so it matters that a number becomes a decimal
zero only if it is a zero itself (`Number.isZero_of_toDecimal?`), and that integers keep being
zero, or not, when they are widened (`ScalarPair.hasZeroDivisor_widen`).
`Environment.combine_followsLadder` says that no operator and no numbers are an exception.
-/

namespace AdaptiveArith

/-! ### Tiers -/

/-- The tier of the decimals, above those of the scalar kinds. -/
def decimalTier : ℕ := 4

/-- The tiers on which nothing is divided by zero. -/
def strictTiers : List ℕ := [ScalarKind.int32.tier, ScalarKind.int64.tier, decimalTier]

/-- The step of the ladder that a number stands on. -/
def Number.tier : Number → ℕ
  | scalar p => p.kind.tier
  | decimal _ => decimalTier

/-- The tier where two numbers meet. -/
def Number.topTier (m n : Number) : ℕ := max m.tier n.tier

theorem ScalarKind.tier_lt_decimalTier (k : ScalarKind) : k.tier < decimalTier := by
  cases k <;> decide

theorem ScalarKind.tier_max (k k' : ScalarKind) : (max k k').tier = max k.tier k'.tier := by
  cases k <;> cases k' <;> rfl

theorem Number.topTier_scalar_lt (p q : Scalar) :
    (Number.scalar p).topTier (.scalar q) < decimalTier :=
  max_lt p.kind.tier_lt_decimalTier q.kind.tier_lt_decimalTier

/-- Only one of two numbers that meet on the tier of the decimals can be a scalar. -/
theorem Number.not_scalars_of_topTier {m n : Number} (h : m.topTier n = decimalTier) (p q : Scalar)
    (hm : m = .scalar p) : n ≠ .scalar q := by
  rintro rfl
  subst hm
  exact (topTier_scalar_lt p q).ne h

/-- Numbers that are not both scalars meet on the tier of the decimals. -/
theorem Number.scalar_or_topTier (m n : Number) :
    (∃ l r, m = .scalar l ∧ n = .scalar r) ∨ m.topTier n = decimalTier := by
  cases m with
  | scalar l =>
    cases n with
    | scalar r => exact .inl ⟨l, r, rfl, rfl⟩
    | decimal => exact .inr (max_eq_right l.kind.tier_lt_decimalTier.le)
  | decimal =>
    cases n with
    | scalar r => exact .inr (max_eq_left r.kind.tier_lt_decimalTier.le)
    | decimal => exact .inr (max_self _)

/-! ### Finite numbers -/

/-- The datum is a number, and no infinity. -/
def BinaryDatum.isFinite : BinaryDatum → Bool
  | nan | infinite _ => false
  | finite .. => true

/-- The scalar is a number, and no infinity. -/
def Scalar.isFinite : Scalar → Bool
  | int32 _ | int64 _ => true
  | float32 x => x.datum.isFinite
  | float64 x => x.datum.isFinite

/-- The number is no infinity, and none of the floats that are no numbers. -/
def Number.isFinite : Number → Bool
  | scalar p => p.isFinite
  | decimal _ => true

theorem BinaryFormat.isSome_toDecimal? (f : BinaryFormat) (x : BinaryDatum) :
    (f.toDecimal? x).isSome = x.isFinite := by
  cases x <;> rfl

/-- The finite numbers are those that have decimals. -/
theorem Number.isSome_toDecimal? (n : Number) : n.toDecimal?.isSome = n.isFinite := by
  cases n with
  | decimal d => rfl
  | scalar p =>
    cases p with
    | int32 | int64 => rfl
    | float32 x | float64 x => exact BinaryFormat.isSome_toDecimal? _ _

/-! ### Zeros -/

/-- The datum is one of the two zeros. -/
def BinaryDatum.isZero : BinaryDatum → Bool
  | nan | infinite _ => false
  | finite _ m _ => m == 0

/-- The scalar is zero, with either sign. -/
def Scalar.isZero : Scalar → Bool
  | int32 n => n == 0
  | int64 n => n == 0
  | float32 x => x.isZero
  | float64 x => x.isZero

/-- The number is zero, with either sign and at any scale. -/
def Number.isZero : Number → Bool
  | scalar p => p.isZero
  | decimal d => d.isZero

/-- The zeros of a format have no bit but the sign. -/
theorem BinaryFormat.isZero_datum (f : BinaryFormat) (hwidth : 0 < f.exponentBits) (word : ℕ) :
    (f.datum word).isZero = (word % 2 ^ (f.fractionBits + f.exponentBits) == 0) := by
  have hbits : word % 2 ^ (f.fractionBits + f.exponentBits) =
      f.fraction word + 2 ^ f.fractionBits * f.biasedExponent word := by
    rw [pow_add, Nat.mod_mul]
    rfl
  have htop : 2 ≤ 2 ^ f.exponentBits := Nat.le_self_pow hwidth.ne' 2
  have hunit := Nat.two_pow_pos f.fractionBits
  rw [hbits, Bool.eq_iff_iff, beq_iff_eq, Nat.add_eq_zero_iff, Nat.mul_eq_zero]
  simp only [datum, Nat.pow_eq]
  split_ifs <;> simp [BinaryDatum.isZero] <;> omega

theorem Binary32.isZero_datum (x : Binary32) : x.datum.isZero = x.isZero := by
  have hmask : (x.bits &&& 0x7fffffff).toNat = x.bits.toNat % 2 ^ 31 := by
    rw [UInt32.toNat_and]
    exact Nat.and_two_pow_sub_one_eq_mod _ 31
  rw [datum, BinaryFormat.isZero_datum _ (by decide), Bool.eq_iff_iff, isZero, beq_iff_eq,
    beq_iff_eq, ← UInt32.toNat_inj, hmask]
  rfl

theorem Binary64.isZero_datum (x : Binary64) : x.datum.isZero = x.isZero := by
  have hmask : (x.bits &&& 0x7fffffffffffffff).toNat = x.bits.toNat % 2 ^ 63 := by
    rw [UInt64.toNat_and]
    exact Nat.and_two_pow_sub_one_eq_mod _ 63
  rw [datum, BinaryFormat.isZero_datum _ (by decide), Bool.eq_iff_iff, isZero, beq_iff_eq,
    beq_iff_eq, ← UInt64.toNat_inj, hmask]
  rfl

/-- Appending zeros makes no decimal zero. -/
theorem Decimal.isZero_withScale (d : Decimal) (scale : Int64) :
    (d.withScale scale).isZero = d.isZero := by
  rw [Bool.eq_iff_iff, isZero_eq_true_iff, isZero_eq_true_iff, withScale, digitsAt]
  split
  next h => simpa [isZero_eq_true_iff] using h
  next h =>
    have hpow : Int.pow 10 (scale.toInt - d.scale.toInt).toNat ≠ 0 :=
      show (10 : ℤ) ^ (scale.toInt - d.scale.toInt).toNat ≠ 0 by positivity
    exact mul_eq_zero_iff_right hpow

theorem BinaryFormat.isZero_of_toDecimal? {f : BinaryFormat} {x : BinaryDatum} {d : Decimal}
    (h : f.toDecimal? x = some d) : d.isZero = x.isZero := by
  cases x with
  | nan => cases h
  | infinite => cases h
  | finite negative m e =>
    obtain rfl := Option.some.inj h
    rw [Decimal.isZero_withScale, Bool.eq_iff_iff, Decimal.isZero_eq_true_iff, BinaryDatum.isZero,
      beq_iff_eq, ← coefficient_shortest_eq_zero_iff (f := f) (m := m) (e := e)]
    cases negative <;> simp

theorem Int32.beq_zero_eq (n : Int32) : (n == 0) = (n.toInt == 0) := by
  rw [Bool.eq_iff_iff, beq_iff_eq, beq_iff_eq, ← Int32.toInt_inj, Int32.toInt_zero]

theorem Int64.beq_zero_eq (n : Int64) : (n == 0) = (n.toInt == 0) := by
  rw [Bool.eq_iff_iff, beq_iff_eq, beq_iff_eq, ← Int64.toInt_inj, Int64.toInt_zero]

/-- A number becomes a decimal zero only if it is a zero itself. -/
theorem Number.isZero_of_toDecimal? {n : Number} {d : Decimal} (h : n.toDecimal? = some d) :
    d.isZero = n.isZero := by
  cases n with
  | decimal =>
    obtain rfl := Option.some.inj h
    rfl
  | scalar p =>
    cases p with
    | int32 n =>
      obtain rfl := Option.some.inj h
      exact (Int32.beq_zero_eq n).symm
    | int64 n =>
      obtain rfl := Option.some.inj h
      exact (Int64.beq_zero_eq n).symm
    | float32 x => exact (BinaryFormat.isZero_of_toDecimal? h).trans x.isZero_datum
    | float64 x => exact (BinaryFormat.isZero_of_toDecimal? h).trans x.isZero_datum

/-- Two scalars are integers with a zero for the divisor after they have been widened exactly if
    they are integers with a zero before. -/
theorem ScalarPair.hasZeroDivisor_widen (l r : Scalar) : (widen l r).hasZeroDivisor = true ↔
    (Number.scalar l).topTier (.scalar r) ∈ strictTiers ∧ r.isZero = true := by
  have hwiden (n : Int32) : n.toInt64 = 0 ↔ n = 0 := by
    rw [← Int64.toInt_inj, ← Int32.toInt_inj, Int32.toInt_toInt64, Int64.toInt_zero,
      Int32.toInt_zero]
  cases l <;> cases r <;>
    simp [widen, hasZeroDivisor, hwiden, Scalar.isZero, Scalar.kind, Number.topTier, Number.tier,
      ScalarKind.tier, strictTiers, decimalTier]

/-! ### What operators do on the ladder -/

namespace Number

variable {m n : Number}

/-- If the two numbers meet on the tier of the decimals, both are finite. -/
def Convertible (m n : Number) : Prop :=
  m.topTier n = decimalTier → m.isFinite = true ∧ n.isFinite = true

/-- Of two numbers that meet on the tier of the decimals, one is a decimal. -/
theorem isFinite_or_of_topTier (h : m.topTier n = decimalTier) :
    m.isFinite = true ∨ n.isFinite = true := by
  cases m with
  | decimal => exact .inl rfl
  | scalar p =>
    cases n with
    | decimal => exact .inr rfl
    | scalar q => exact absurd h (topTier_scalar_lt p q).ne

theorem toDecimal_of_not_isFinite (h : n.isFinite = false) :
    n.toDecimal = .error (.noDecimal n.text) := by
  rw [← n.isSome_toDecimal?, Option.isSome_eq_false_iff, Option.isNone_iff_eq_none] at h
  rw [toDecimal, h]

end Number

namespace Operator

variable {op : Operator} {m n : Number} {a b : Decimal}

/-- The operator divides on a strict tier, and the divisor is zero. -/
def DividesByZero (op : Operator) (m n : Number) : Prop :=
  op.divides = true ∧ m.topTier n ∈ strictTiers ∧ n.isZero = true

/-- The result of an operator on two numbers: an error if one of them has no decimal and meets
    one, otherwise an error if the operator divides by zero on a strict tier, and otherwise a
    number on the tier where the two meet, but for divisions of decimals that a power of ten
    would have to align that is too large. Such a division fails as long as the exponent fits
    into a word. -/
structure FollowsLadder (op : Operator) (m n : Number) (result : Except RuntimeError Value) :
    Prop where
  noDecimal (q : Number) : m.topTier n = decimalTier → q = m ∨ q = n → q.isFinite = false →
    result = .error (.noDecimal q.text)
  divisionByZero : m.Convertible n → op.DividesByZero m n → result = .error .divisionByZero
  otherwise : m.Convertible n → ¬op.DividesByZero m n →
    (∃ v q, result = .ok v ∧ v.number? = some q ∧ q.tier = m.topTier n) ∨
      op = .div ∧ m.topTier n = decimalTier ∧ ∃ (a b : Decimal) (exponent : ℤ),
        m.toDecimal? = some a ∧ n.toDecimal? = some b ∧ Decimal.maxPower < |a.alignment b| ∧
        result = .error (.noDecimal ("10^" ++ toString exponent))
  tooLarge (a b : Decimal) : op = .div → m.topTier n = decimalTier → n.isZero = false →
    m.toDecimal? = some a → n.toDecimal? = some b →
    Decimal.maxPower < |a.alignment b| → |a.alignment b| < 2 ^ 63 →
      result = .error (.noDecimal ("10^" ++ toString |a.alignment b|))

/-! ### Scalars -/

/-- Scalars need no decimals, and fail where integers are divided by zero only. -/
theorem followsLadder_scalars (op : Operator) (l r : Scalar) :
    op.FollowsLadder (.scalar l) (.scalar r) (op.onNumbers (.scalar l) (.scalar r)) where
  noDecimal _ htop := absurd htop (Number.topTier_scalar_lt l r).ne
  divisionByZero _ h := by
    rw [onNumbers, map_eq_error_iff]
    exact onPair_eq_error_iff.2 ⟨h.1, (ScalarPair.hasZeroDivisor_widen l r).2 h.2, rfl⟩
  otherwise _ h := by
    rw [onNumbers]
    cases hpair : op.onPair (.widen l r) with
    | error e =>
      obtain ⟨hop, hzero, -⟩ := onPair_eq_error_iff.1 hpair
      exact absurd ⟨hop, (ScalarPair.hasZeroDivisor_widen l r).1 hzero⟩ h
    | ok p =>
      refine .inl ⟨.scalar p, .scalar p, rfl, rfl, ?_⟩
      rw [Number.tier, kind_of_onPair hpair, ScalarPair.kind_widen, ScalarKind.tier_max]
      rfl
  tooLarge _ _ _ htop := absurd htop (Number.topTier_scalar_lt l r).ne

/-! ### Decimals -/

theorem onDecimals_of_isZero (a : Decimal) (hop : op.divides = true) (hb : b.isZero = true) :
    op.onDecimals a b = .error .divisionByZero := by
  cases op with
  | add | sub | mul => cases hop
  | div | mod => exact if_pos hb

/-- Apart from divisions by zero, an operator fails on decimals only if it divides and the power
    of ten that aligns them is too large. -/
theorem onDecimals_spec (a : Decimal) (h : ¬(op.divides = true ∧ b.isZero = true)) :
    (∃ d, op.onDecimals a b = .ok d) ∨
      op = .div ∧ Decimal.maxPower < |a.alignment b| ∧
        ∃ exponent : ℤ, op.onDecimals a b = .error (.noDecimal ("10^" ++ toString exponent)) := by
  cases op with
  | add | sub | mul => exact .inl ⟨_, rfl⟩
  | mod => exact .inl ⟨_, if_neg fun hb => h ⟨rfl, hb⟩⟩
  | div =>
    have hb : b.unscaled ≠ 0 := by
      rw [← Decimal.isZero_eq_false_iff, ← Bool.not_eq_true]
      exact fun hb => h ⟨rfl, hb⟩
    rcases le_or_gt |a.alignment b| Decimal.maxPower with hle | hlt
    · exact .inl ⟨_, Decimal.onDecimals_div_of_le hb hle⟩
    · -- The exponent may not fit into a word, and the word may stand for a small one.
      rw [Decimal.onDecimals_div a hb]
      cases a.divide b with
      | ok d => exact .inl ⟨d, rfl⟩
      | error exponent => exact .inr ⟨rfl, hlt, exponent.toInt, rfl⟩

/-- Where one of two numbers is a decimal, both have to become decimals, the first one first. -/
theorem onNumbers_of_topTier (op : Operator) (h : m.topTier n = decimalTier) :
    op.onNumbers m n =
      m.toDecimal >>= fun a => n.toDecimal >>= fun b => (op.onDecimals a b).map .decimal := by
  rw [onNumbers]
  · rfl
  · exact Number.not_scalars_of_topTier h

/-- Two numbers that have decimals are combined as these. -/
theorem exists_onNumbers_eq (op : Operator) (htop : m.topTier n = decimalTier)
    (h : m.Convertible n) : ∃ a b, m.toDecimal? = some a ∧ n.toDecimal? = some b ∧
      op.onNumbers m n = (op.onDecimals a b).map .decimal := by
  obtain ⟨hm, hn⟩ := h htop
  rw [← Number.isSome_toDecimal?, Option.isSome_iff_exists] at hm hn
  obtain ⟨a, ha⟩ := hm
  obtain ⟨b, hb⟩ := hn
  exact ⟨a, b, ha, hb, op.onNumbers_of_decimal (Number.not_scalars_of_topTier htop) ha hb⟩

/-- On the tier of the decimals, an operand without a decimal is found before a zero. -/
theorem followsLadder_decimals (op : Operator) (htop : m.topTier n = decimalTier) :
    op.FollowsLadder m n (op.onNumbers m n) where
  noDecimal q _ hq hfinite := by
    rw [onNumbers_of_topTier op htop]
    rcases hq with rfl | rfl
    · rw [Number.toDecimal_of_not_isFinite hfinite]
      rfl
    · have hm : m.isFinite = true :=
        (Number.isFinite_or_of_topTier htop).resolve_right (Bool.eq_false_iff.1 hfinite)
      rw [← m.isSome_toDecimal?, Option.isSome_iff_exists] at hm
      obtain ⟨a, ha⟩ := hm
      rw [Number.toDecimal_of_some ha, Number.toDecimal_of_not_isFinite hfinite]
      rfl
  divisionByZero hconvertible hzero := by
    obtain ⟨a, b, -, hb, hresult⟩ := exists_onNumbers_eq op htop hconvertible
    rw [hresult, map_eq_error_iff]
    exact onDecimals_of_isZero a hzero.1 ((Number.isZero_of_toDecimal? hb).trans hzero.2.2)
  otherwise hconvertible hzero := by
    obtain ⟨a, b, ha, hb, hresult⟩ := exists_onNumbers_eq op htop hconvertible
    have hstrict : m.topTier n ∈ strictTiers := by
      rw [htop]
      decide
    rw [DividesByZero, ← Number.isZero_of_toDecimal? hb] at hzero
    rcases onDecimals_spec a fun h => hzero ⟨h.1, hstrict, h.2⟩ with
      ⟨d, hd⟩ | ⟨hop, hlt, exponent, he⟩
    · rw [hresult, hd]
      exact .inl ⟨.decimal d, .decimal d, rfl, rfl, htop.symm⟩
    · rw [hresult, he]
      exact .inr ⟨hop, htop, a, b, exponent, ha, hb, hlt, rfl⟩
  tooLarge a b hop _ hzero ha hb hlt hfits := by
    rw [← Number.isZero_of_toDecimal? hb, Decimal.isZero_eq_false_iff] at hzero
    rw [op.onNumbers_of_decimal (Number.not_scalars_of_topTier htop) ha hb, hop, map_eq_error_iff]
    exact Decimal.onDecimals_div_of_lt hzero hlt hfits

end Operator

/-! ### Values -/

/-- All operators follow the ladder on all numbers, and ask nobody. -/
theorem Environment.combine_followsLadder (env : Environment) (op : Operator) {l r : Value}
    {m n : Number} (hl : l.number? = some m) (hr : r.number? = some n) :
    ∃ result, env.combine op l r = (result.mapError .runtime, env) ∧
      op.FollowsLadder m n result := by
  refine ⟨op.onNumbers m n, ?_, ?_⟩
  · simp only [combine, Operator.combine?, hl, hr]
  · rcases m.scalar_or_topTier n with ⟨p, q, rfl, rfl⟩ | htop
    · exact op.followsLadder_scalars p q
    · exact op.followsLadder_decimals htop

/-- No number meets a decimal zero, and a decimal the negative zero of a float: the first is an
    error for the number, the second for the zero. An integer is divided by the zero of a float
    like a float, and an exponent that is too large is named. -/
theorem Environment.combine_followsLadder_zeros :
    let env : Environment := {}
    let nan : Value := .scalar (.float32 ⟨0x7fc00000⟩)
    let zero : Value := .scalar (.float64 ⟨0x8000000000000000⟩)
    env.combine .mod nan (.decimal ⟨0, 2⟩) = (.error (.runtime (.noDecimal "nanf")), env) ∧
    env.combine .mod (.decimal ⟨250, 2⟩) zero = (.error (.runtime .divisionByZero), env) ∧
    (∃ v q, env.combine .div (.scalar (.int64 7)) zero = (.ok v, env) ∧ v.number? = some q ∧
      q.tier = ScalarKind.float64.tier) ∧
    env.combine .div (.decimal ⟨1, 0⟩) (.decimal ⟨3, 5000000000⟩) =
      (.error (.runtime (.noDecimal "10^10000000000")), env) := by
  intro env nan zero
  have htext : (Number.scalar (.float32 ⟨0x7fc00000⟩)).text = "nanf" := by decide +kernel
  have hzero : (Number.scalar (.float64 ⟨0x8000000000000000⟩)).isZero = true := by decide
  have halignment : |(⟨1, 0⟩ : Decimal).alignment ⟨3, 5000000000⟩| = 10000000000 := by decide
  refine ⟨?_, ?_, ?_, ?_⟩
  · obtain ⟨result, hcombine, hladder⟩ :=
      combine_followsLadder env .mod (l := nan) (r := .decimal ⟨0, 2⟩) rfl rfl
    rw [hcombine, hladder.noDecimal _ (by decide) (.inl rfl) (by decide +kernel), htext]
    rfl
  · obtain ⟨result, hcombine, hladder⟩ :=
      combine_followsLadder env .mod (l := .decimal ⟨250, 2⟩) (r := zero) rfl rfl
    rw [hcombine, hladder.divisionByZero (fun _ => ⟨rfl, by decide +kernel⟩)
      ⟨rfl, by decide, hzero⟩]
    rfl
  · obtain ⟨result, hcombine, hladder⟩ :=
      combine_followsLadder env .div (l := .scalar (.int64 7)) (r := zero) rfl rfl
    rcases hladder.otherwise (fun h => absurd h (by decide)) (fun h => absurd h.2.1 (by decide))
      with ⟨v, q, rfl, hv, hq⟩ | ⟨-, htop, -⟩
    · exact ⟨v, q, hcombine, hv, hq⟩
    · exact absurd htop (by decide)
  · obtain ⟨result, hcombine, hladder⟩ :=
      combine_followsLadder env .div (l := .decimal ⟨1, 0⟩) (r := .decimal ⟨3, 5000000000⟩) rfl rfl
    rw [hcombine, hladder.tooLarge ⟨1, 0⟩ ⟨3, 5000000000⟩ rfl (by decide) (by decide) rfl rfl
      (by decide) (by decide), halignment]
    rfl

end AdaptiveArith
