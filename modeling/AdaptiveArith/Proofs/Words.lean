import AdaptiveArith.Proofs.Exact
import AdaptiveArith.Proofs.Machine

/-!
# Words

Integers are words of one of two widths (`Width`), read as signed integers (`Width.toInt`). An
operator on words gives the word whose integer is the exact result, wrapped around
(`Operator.exists_onWords_eq`); only a division by zero has no result. This is all that is said
about the two widths one by one, and what follows holds of both.

A word is determined by the remainder of its integer (`Width.toInt_modEq_iff`), so that whatever
is computed by sums, differences and products can be computed with the exact integers first. A
quotient does not wrap around, but for one: the least integer divided by minus one
(`Width.fits_tdiv_iff`). Even there, quotient and remainder make up the dividend again
(`Operator.quotient_remainder_words`).
-/

namespace AdaptiveArith

/-! ### Widths -/

/-- The widths of integers. -/
inductive Width
  | short
  | long
  deriving DecidableEq

namespace Width

/-- The number of bits. -/
def bits : Width → ℕ
  | short => 32
  | long => 64

/-- The kind of the integers of a width. -/
def kind : Width → ScalarKind
  | short => .int32
  | long => .int64

/-- The words of a width. -/
abbrev Word : Width → Type
  | short => Int32
  | long => Int64

variable {w : Width} {m n : ℤ}

/-- The signed integer that a word stands for. -/
def toInt : {w : Width} → w.Word → ℤ
  | short, a => Int32.toInt a
  | long, a => Int64.toInt a

/-- The scalar that a word is. -/
def scalar : {w : Width} → w.Word → Scalar
  | short, a => .int32 a
  | long, a => .int64 a

/-- The least integer of a width. -/
def least (w : Width) : ℤ := -2 ^ (w.bits - 1)

/-- The integer is that of a word. -/
def Fits (w : Width) (n : ℤ) : Prop := w.least ≤ n ∧ n < -w.least

theorem two_pow_bits (w : Width) : ((2 ^ w.bits : ℕ) : ℤ) = -2 * w.least := by
  cases w <;> rfl

theorem least_lt_neg_one (w : Width) : w.least < -1 := by
  cases w <;> decide

theorem fits_toInt (a : w.Word) : w.Fits (toInt a) := by
  cases w with
  | short => exact ⟨Int32.le_toInt a, Int32.toInt_lt a⟩
  | long => exact ⟨Int64.le_toInt a, Int64.toInt_lt a⟩

theorem toInt_inj {a b : w.Word} : toInt a = toInt b ↔ a = b := by
  cases w with
  | short => exact Int32.toInt_inj
  | long => exact Int64.toInt_inj

theorem kind_scalar (a : w.Word) : (scalar a).kind = w.kind := by
  cases w <;> rfl

/-- The scalars of the kind are the words. -/
theorem exists_scalar {p : Scalar} (h : p.kind = w.kind) : ∃ a : w.Word, p = scalar a := by
  cases w with
  | short =>
    cases p with
    | int32 a => exact ⟨a, rfl⟩
    | int64 | float32 | float64 => cases h
  | long =>
    cases p with
    | int64 a => exact ⟨a, rfl⟩
    | int32 | float32 | float64 => cases h

/-! ### Wrapping around -/

/-- An integer that fits does not wrap around. -/
theorem Fits.bmod_eq (h : w.Fits n) : n.bmod (2 ^ w.bits) = n := by
  obtain ⟨hlow, hhigh⟩ := h
  refine Int.bmod_eq_of_le_mul_two ?_ ?_ <;>
    · rw [two_pow_bits]
      omega

theorem bmod_toInt (a : w.Word) : (toInt a).bmod (2 ^ w.bits) = toInt a := (fits_toInt a).bmod_eq

/-- The integer of a word has the remainder of another integer exactly if it is what the
    other one is wrapped around to. -/
theorem toInt_modEq_iff {a : w.Word} : toInt a ≡ n [ZMOD (2 ^ w.bits : ℕ)] ↔
    toInt a = n.bmod (2 ^ w.bits) := by
  constructor
  · intro h
    rw [← bmod_toInt a, ← Int.emod_bmod, h.eq, Int.emod_bmod]
  · intro h
    rw [h]
    exact Int.bmod_emod

/-- One quotient is too large to fit. -/
theorem fits_tdiv_iff (hm : w.Fits m) (hn : n ≠ 0) :
    w.Fits (m.tdiv n) ↔ ¬(m = w.least ∧ n = -1) := by
  have hleast := w.least_lt_neg_one
  constructor
  · rintro ⟨-, hhigh⟩ ⟨rfl, rfl⟩
    rw [Int.tdiv_neg, Int.tdiv_one] at hhigh
    exact lt_irrefl _ hhigh
  · intro hother
    obtain ⟨hlow, hhigh⟩ := hm
    rcases eq_or_ne n 1 with rfl | hone
    · rw [Int.tdiv_one]
      exact ⟨hlow, hhigh⟩
    rcases eq_or_ne n (-1) with rfl | hminus
    · rw [Int.tdiv_neg, Int.tdiv_one]
      exact ⟨by omega, by omega⟩
    · -- Any other divisor halves the dividend at least.
      have hhalf : (m.tdiv n).natAbs ≤ m.natAbs / 2 := by
        rw [Int.natAbs_tdiv]
        exact Nat.div_le_div_left (by omega) (by decide)
      exact ⟨by omega, by omega⟩

/-- A remainder is smaller than the divisor. -/
theorem abs_tmod_lt (m : ℤ) (hn : n ≠ 0) : |m.tmod n| < |n| := by
  rw [Int.abs_eq_natAbs, Int.abs_eq_natAbs, Int.natAbs_tmod]
  exact_mod_cast Nat.mod_lt _ (Int.natAbs_pos.2 hn)

theorem fits_tmod (m : ℤ) (hn : w.Fits n) (hzero : n ≠ 0) : w.Fits (m.tmod n) := by
  have hlt := abs_tmod_lt m hzero
  have hle : |n| ≤ -w.least := abs_le.2 ⟨by linarith [hn.1], hn.2.le⟩
  obtain ⟨hlow, hhigh⟩ := abs_lt.1 (hlt.trans_le hle)
  exact ⟨by linarith, hhigh⟩

end Width

/-! ### Operators on words -/

namespace Operator

open Width

/-- The operator on integers of any size; quotients are truncated, and the remainders go with
    them. -/
def onIntegers : Operator → ℤ → ℤ → ℤ
  | add, m, n => m + n
  | sub, m, n => m - n
  | mul, m, n => m * n
  | div, m, n => m.tdiv n
  | mod, m, n => m.tmod n

/-- The operator on words. -/
def onWords (op : Operator) : {w : Width} → w.Word → w.Word → Except RuntimeError w.Word
  | .short, a, b => op.onInt32 a b
  | .long, a, b => op.onInt64 a b

variable {w : Width} {op : Operator} {a b : w.Word}

/-- Unless it divides by zero, an operator gives the exact result, wrapped around. -/
theorem exists_onWords_eq (h : op.divides = true → toInt b ≠ 0) : ∃ c : w.Word,
    op.onWords a b = .ok c ∧ toInt c = (op.onIntegers (toInt a) (toInt b)).bmod (2 ^ w.bits) := by
  cases w with
  | short =>
    have hb : op.divides = true → b ≠ (0 : Int32) := fun hop hzero => h hop (by rw [hzero]; rfl)
    cases op with
    | add => exact ⟨_, rfl, Int32.toInt_add a b⟩
    | sub => exact ⟨_, rfl, Int32.toInt_sub a b⟩
    | mul => exact ⟨_, rfl, Int32.toInt_mul a b⟩
    | div => exact ⟨_, if_neg (hb rfl), Int32.toInt_div a b⟩
    | mod => exact ⟨_, if_neg (hb rfl), by
        rw [← bmod_toInt]; exact congrArg (Int.bmod · _) (Int32.toInt_mod a b)⟩
  | long =>
    have hb : op.divides = true → b ≠ (0 : Int64) := fun hop hzero => h hop (by rw [hzero]; rfl)
    cases op with
    | add => exact ⟨_, rfl, Int64.toInt_add a b⟩
    | sub => exact ⟨_, rfl, Int64.toInt_sub a b⟩
    | mul => exact ⟨_, rfl, Int64.toInt_mul a b⟩
    | div => exact ⟨_, if_neg (hb rfl), Int64.toInt_div a b⟩
    | mod => exact ⟨_, if_neg (hb rfl), by
        rw [← bmod_toInt]; exact congrArg (Int.bmod · _) (Int64.toInt_mod a b)⟩

theorem onWords_of_zero (hop : op.divides = true) (hb : toInt b = 0) :
    op.onWords a b = .error .divisionByZero := by
  cases w with
  | short => exact onInt32_eq_error_iff.2 ⟨hop, Int32.toInt_inj.1 hb, rfl⟩
  | long => exact onInt64_eq_error_iff.2 ⟨hop, Int64.toInt_inj.1 hb, rfl⟩

/-- A result is the exact one, wrapped around. -/
theorem toInt_of_onWords {c : w.Word} (h : op.onWords a b = .ok c) :
    toInt c = (op.onIntegers (toInt a) (toInt b)).bmod (2 ^ w.bits) := by
  have hdivisor : op.divides = true → toInt b ≠ 0 := fun hop hb => by
    rw [onWords_of_zero hop hb] at h
    cases h
  obtain ⟨c', hc', hint⟩ := exists_onWords_eq hdivisor
  obtain rfl := Except.ok.inj (h.symm.trans hc')
  exact hint

/-- The operators on scalars of the kind are those on words. -/
theorem onPair_scalar (op : Operator) (a b : w.Word) :
    op.onPair (.widen (scalar a) (scalar b)) = (op.onWords a b).map scalar := by
  cases w <;> rfl

end Operator

/-- A word with the opposite sign, wrapped around. -/
theorem Width.exists_neg_scalar {w : Width} (a : w.Word) : ∃ c : w.Word,
    (scalar a).neg = scalar c ∧ toInt c = (-toInt a).bmod (2 ^ w.bits) := by
  cases w with
  | short => exact ⟨_, rfl, Int32.toInt_neg a⟩
  | long => exact ⟨_, rfl, Int64.toInt_neg a⟩

/-! ### Quotients and remainders -/

/-- A quotient and a remainder of two words fit together. -/
structure Width.FitTogether {w : Width} (a b q r : w.Word) : Prop where
  /-- They make up the dividend again, in wrapping arithmetic. -/
  recombined :
    ((Operator.mul.onWords q b).bind fun product => Operator.add.onWords product r) = .ok a
  /-- The remainder is smaller than the divisor. -/
  lt : |toInt r| < |toInt b|
  /-- The remainder has the sign of the dividend, unless it is zero. -/
  sign : toInt r = 0 ∨ (toInt r).sign = (toInt a).sign
  /-- The quotient is the exact one without its fraction, in all cases but one. -/
  truncated_iff : toInt q = towardZero (toInt a / toInt b) ↔ ¬(toInt a = w.least ∧ toInt b = -1)
  /-- In that case, it is the dividend. -/
  overflow : toInt a = w.least → toInt b = -1 → q = a ∧ toInt r = 0

namespace Operator

open Width

variable {w : Width} {a b q r : w.Word}

theorem fitTogether (hb : toInt b ≠ 0) (hq : div.onWords a b = .ok q)
    (hr : mod.onWords a b = .ok r) : FitTogether a b q r := by
  have hquotient : toInt q = ((toInt a).tdiv (toInt b)).bmod (2 ^ w.bits) := toInt_of_onWords hq
  have hremainder : toInt r = (toInt a).tmod (toInt b) :=
    (toInt_of_onWords hr).trans (fits_tmod _ (fits_toInt b) hb).bmod_eq
  refine ⟨?_, ?_, ?_, ?_, fun ha hminus => ?_⟩
  · obtain ⟨product, hproduct, hpInt⟩ := @exists_onWords_eq w mul q b (nomatch ·)
    obtain ⟨sum, hsum, hsInt⟩ := @exists_onWords_eq w add product r (nomatch ·)
    rw [hproduct]
    refine hsum.trans (congrArg _ (toInt_inj.1 ?_))
    calc toInt sum = (toInt product + toInt r).bmod (2 ^ w.bits) := hsInt
      _ = (toInt q * toInt b + toInt r).bmod (2 ^ w.bits) := by
        rw [hpInt, Int.bmod_add_bmod, onIntegers]
      _ = ((toInt a).tdiv (toInt b) * toInt b + toInt r).bmod (2 ^ w.bits) := by
        rw [hquotient, ← Int.bmod_add_bmod, Int.bmod_mul_bmod, Int.bmod_add_bmod]
      _ = toInt a := by rw [hremainder, Int.tdiv_mul_add_tmod, bmod_toInt]
  · rw [hremainder]
    exact abs_tmod_lt _ hb
  · rw [hremainder, Int.sign_tmod]
    by_cases hdvd : toInt b ∣ toInt a
    · exact .inl (Int.tmod_eq_zero_of_dvd hdvd)
    · exact .inr (if_neg hdvd)
  · rw [towardZero_div _ hb, ← fits_tdiv_iff (fits_toInt a) hb]
    exact ⟨fun h => h ▸ fits_toInt q, fun h => hquotient.trans h.bmod_eq⟩
  · have hwraps : -w.least = w.least + (2 ^ w.bits : ℕ) := by
      rw [two_pow_bits]
      ring
    have hleast : w.least.bmod (2 ^ w.bits) = w.least := ha ▸ bmod_toInt a
    rw [ha, hminus, Int.tdiv_neg, Int.tdiv_one, hwraps, Int.add_bmod_right, hleast] at hquotient
    rw [hminus, Int.tmod_neg, Int.tmod_one] at hremainder
    exact ⟨toInt_inj.1 (hquotient.trans ha.symm), hremainder⟩

/-- Quotient and remainder of two words fit together, unless the divisor is zero, and then there
    are none. The instructions for the kind of the words give the same. -/
theorem quotient_remainder_words (w : Width) (a b : w.Word) :
    (toInt b ≠ 0 → ∃ q r : w.Word, div.onWords a b = .ok q ∧ mod.onWords a b = .ok r ∧
      FitTogether a b q r) ∧
    (toInt b = 0 → div.onWords a b = .error .divisionByZero ∧
      mod.onWords a b = .error .divisionByZero) ∧
    ∀ (op : Operator) (code : Code) (env : Environment) (rest : List Slot),
      rest.length < code.maxStack →
      code.step env (.binary w.kind op.byte) (.bare (scalar b) :: .bare (scalar a) :: rest) =
        ((op.onWords a b).mapError .runtime).map fun c => .next (.bare (scalar c) :: rest) := by
  refine ⟨fun hb => ?_, fun hb => ⟨onWords_of_zero rfl hb, onWords_of_zero rfl hb⟩,
    fun op code env rest hroom => ?_⟩
  · obtain ⟨q, hq, -⟩ := @exists_onWords_eq w div a b fun _ => hb
    obtain ⟨r, hr, -⟩ := @exists_onWords_eq w mod a b fun _ => hb
    exact ⟨q, r, hq, hr, fitTogether hb hq hr⟩
  · rw [Code.step_binary op (kind_scalar a) (kind_scalar b) hroom, onPair_scalar]
    cases op.onWords a b <;> rfl

/-- The one quotient that wraps around, also in code, and a division by zero. -/
theorem quotient_remainder_words_least :
    let code : Code := ⟨#[], #[], #[], 1, none⟩
    (∃ q r : Width.short.Word, div.onWords (w := .short) (-2147483648) (-1) = .ok q ∧
      mod.onWords (w := .short) (-2147483648) (-1) = .ok r ∧
      FitTogether (w := .short) (-2147483648) (-1) q r ∧ toInt q = -2147483648 ∧ toInt r = 0) ∧
    code.step {} (.binary .int32 0x2f) [.bare (.int32 (-1)), .bare (.int32 (-2147483648))] =
      .ok (.next [.bare (.int32 (-2147483648))]) ∧
    div.onWords (w := .long) 7 0 = .error .divisionByZero := by
  intro code
  obtain ⟨hdivides, -, hstep⟩ := quotient_remainder_words .short (-2147483648) (-1)
  obtain ⟨q, r, hq, hr, hfit⟩ := hdivides (by decide)
  obtain ⟨rfl, hzero⟩ := hfit.overflow (by decide) (by decide)
  refine ⟨⟨_, r, hq, hr, hfit, by decide, hzero⟩, ?_,
    ((quotient_remainder_words .long 7 0).2.1 (by decide)).1⟩
  refine (hstep .div code {} [] (by decide)).trans ?_
  rw [hq]
  rfl

end Operator

end AdaptiveArith
