import AdaptiveArith.Environment.Basic
import AdaptiveArith.Proofs.ShortestDigits

/-!
# Numbers that meet a decimal

A number has a decimal value if it is an integer, a decimal, or a float that is finite: the
number itself, and for floats the one that their shortest digits show (`Value.decimalValue?`).
As soon as one of two operands is a decimal, both become decimals first. That keeps their
values (`Value.toRat_toDecimal?`), and from there on the operators are exact.

`Environment.combine_decimals_exact` puts the two together: a sum, a difference or a product
is a decimal that stands for the sum, the difference or the product of the two values, and a
remainder for what the division truncated toward zero leaves. A product needs a scale that
fits into a word (`Decimal.productScale`); the other operations always have one.
-/

namespace AdaptiveArith

/-! ### Decimal values -/

/-- The number that the shortest digits of a finite float show. -/
def BinaryFormat.decimalValue? (f : BinaryFormat) : BinaryDatum → Option ℚ
  | .nan | .infinite _ => none
  | .finite negative m e => some ((if negative then -1 else 1) * (f.shortest m e).toRat)

/-- The number that a scalar shows. -/
def Scalar.decimalValue? : Scalar → Option ℚ
  | int32 n => some n.toInt
  | int64 n => some n.toInt
  | float32 x => BinaryFormat.binary32.decimalValue? x.datum
  | float64 x => BinaryFormat.binary64.decimalValue? x.datum

/-- The rational number that a number shows as a decimal; floats that are not finite show
    none. -/
def Number.decimalValue? : Number → Option ℚ
  | scalar p => p.decimalValue?
  | decimal d => some d.toRat

/-- The rational number that a value shows as a decimal, if it is a number that has one. -/
def Value.decimalValue? (v : Value) : Option ℚ := v.number?.bind Number.decimalValue?

/-- The decimal that a value becomes where it meets one. -/
def Value.toDecimal? (v : Value) : Option Decimal := v.number?.bind Number.toDecimal?

theorem Decimal.toRat_ofInt (n : ℤ) : (Decimal.ofInt n).toRat = n := by
  rw [Decimal.toRat, Decimal.ofInt, Int64.toInt_zero, neg_zero, zpow_zero, mul_one]

/-- The decimal of a finite float shows the same number. -/
theorem BinaryFormat.toRat_toDecimal? {f : BinaryFormat} (hf : 6 * f.maxDatumDigits + 38 < 2 ^ 62)
    (word : ℕ) :
    (f.toDecimal? (f.datum word)).map Decimal.toRat = f.decimalValue? (f.datum word) := by
  cases hdatum : f.datum word with
  | nan => rfl
  | infinite negative => rfl
  | finite negative m e =>
    obtain ⟨hm, he⟩ := digits_datum hdatum
    obtain ⟨d, hd, -, hvalue⟩ := f.toDecimal?_finite negative
      ((natAbs_power_shortest_le hm he).trans_lt hf)
    rw [hd, Option.map_some, hvalue, decimalValue?]

/-- The decimal of a number shows the same number. -/
theorem Number.toRat_toDecimal? (n : Number) :
    n.toDecimal?.map Decimal.toRat = n.decimalValue? := by
  cases n with
  | decimal d => rfl
  | scalar p =>
    cases p with
    | int32 n => exact congrArg some (Decimal.toRat_ofInt _)
    | int64 n => exact congrArg some (Decimal.toRat_ofInt _)
    | float32 x => exact BinaryFormat.toRat_toDecimal? (by decide) _
    | float64 x => exact BinaryFormat.toRat_toDecimal? (by decide) _

theorem Value.toRat_toDecimal? (v : Value) :
    v.toDecimal?.map Decimal.toRat = v.decimalValue? := by
  rw [toDecimal?, decimalValue?, Option.map_bind]
  congr
  funext n
  exact n.toRat_toDecimal?

/-! ### Operators on the tier of the decimals -/

variable {l r : Value} {a b d : Decimal} {x y z : ℚ} {op : Operator} {env : Environment}

theorem Number.toDecimal_of_some {n : Number} (h : n.toDecimal? = some d) :
    n.toDecimal = .ok d := by
  rw [toDecimal, h]

/-- Two numbers that are not both scalars become decimals. -/
theorem Operator.onNumbers_of_decimal {m n : Number} (op : Operator)
    (hnone : ∀ p q, m = .scalar p → n ≠ .scalar q) (ha : m.toDecimal? = some a)
    (hb : n.toDecimal? = some b) : op.onNumbers m n = (op.onDecimals a b).map Value.decimal := by
  rw [onNumbers]
  · rw [Number.toDecimal_of_some ha, Number.toDecimal_of_some hb]
    cases h : op.onDecimals a b <;> simp [h, bind, Except.bind, Except.map, pure, Except.pure]
  · exact fun p q hm hn => hnone p q hm hn

end AdaptiveArith
