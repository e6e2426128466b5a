import AdaptiveArith.Numeral

/-!
# Decimals

A decimal is an integer together with a scale, the number of its digits that
stand after the point: `⟨250, 2⟩` is `2.50`. The scale is a signed 64-bit word
and is part of the value, so `2.50` and `2.5` are equal numbers (`numEq`) but
different decimals.

The arithmetic is exact, and each operation fixes the scale of its result:

* a sum has the larger scale, except that adding a zero appends at most
  `zeroPadding` digits to the other operand;
* a difference and a remainder have the larger scale;
* a product has the sum of the scales, except that multiplying by a decimal
  written as one reduces the other operand;
* a quotient has the larger scale and is rounded once, to the nearest decimal
  of that scale and to the even one of two equally near (`divide`).
-/

namespace AdaptiveArith

/-- The number `unscaled * 10 ^ (-scale)`. -/
structure Decimal where
  /-- All digits, as an integer. -/
  unscaled : Int
  /-- The number of digits after the point. -/
  scale : Int64
  deriving DecidableEq

namespace Decimal

/-- An integer as a decimal without digits after the point. -/
def ofInt (n : Int) : Decimal := ⟨n, 0⟩

variable (d l r : Decimal)

/-- The decimal is some form of zero. -/
def isZero : Bool := d.unscaled == 0

/-- The size of a decimal, as a numeral. -/
def magnitude : Numeral := ⟨d.unscaled.natAbs, -d.scale.toInt⟩

/-- The digits of a decimal at a scale not below its own. -/
def digitsAt (scale : Int64) : Int :=
  if d.isZero then 0 else d.unscaled * Int.pow 10 (scale.toInt - d.scale.toInt).toNat

/-- The decimal at a scale not below its own: zeros are appended. -/
def withScale (scale : Int64) : Decimal := ⟨d.digitsAt scale, scale⟩

/-- The decimal without trailing zeros; every zero becomes `0` with scale `0`. -/
def normalized : Decimal :=
  let size := d.magnitude.reduced
  ⟨d.unscaled.sign * size.coefficient, .ofInt (-size.power)⟩

/-- The two decimals are the same number, whatever their scales. -/
def numEq : Bool :=
  d.unscaled.sign == r.unscaled.sign && d.magnitude.reduced == r.magnitude.reduced

/-! ### Sums, differences and products -/

/-- The largest number of digits that adding a zero appends to a decimal. -/
def zeroPadding : Int := 15

/-- The sum with a zero of the given scale: up to `zeroPadding` of its digits
    after the point are taken over. -/
def addZero (scale : Int64) : Decimal :=
  d.withScale (.ofInt (d.scale.toInt + min zeroPadding (max 0 (scale.toInt - d.scale.toInt))))

/-- The exact sum. -/
def add : Decimal :=
  if r.isZero then l.addZero r.scale
  else if l.isZero then r.addZero l.scale
  else
    let scale := max l.scale r.scale
    ⟨l.digitsAt scale + r.digitsAt scale, scale⟩

/-- The exact difference. -/
def sub : Decimal :=
  let scale := max l.scale r.scale
  ⟨l.digitsAt scale - r.digitsAt scale, scale⟩

/-- The largest scale at which a one is recognised. -/
def maxUnitScale : Nat := 38

/-- The decimal is `1`, `1.0`, `1.00` and so on, up to `maxUnitScale` zeros. -/
def isUnit : Bool :=
  0 ≤ d.scale.toInt && d.scale.toInt ≤ maxUnitScale && d.unscaled == Int.pow 10 d.scale.toInt.toNat

/-- The exact product. -/
def mul : Decimal :=
  if l.isUnit then r.normalized
  else if r.isUnit then l.normalized
  else ⟨l.unscaled * r.unscaled, l.scale + r.scale⟩

/-- The decimal with the opposite sign. -/
def neg : Decimal := ⟨-d.unscaled, d.scale⟩

/-! ### Quotients and remainders -/

/-- The remainder of the division truncated toward zero; the divisor is not
    zero. -/
def rem : Decimal :=
  let scale := max l.scale r.scale
  ⟨(l.digitsAt scale).tmod (r.digitsAt scale), scale⟩

/-- The integer nearest to `num / den`, and the even one of two equally near. -/
def roundQuotient (num den : Int) : Int :=
  let quotient := num.tdiv den
  let remainder := num.tmod den
  let away := if num.sign = den.sign then quotient + 1 else quotient - 1
  if den.natAbs < 2 * remainder.natAbs then away
  else if den.natAbs = 2 * remainder.natAbs ∧ quotient.natAbs % 2 = 1 then away
  else quotient

/-- The largest power of ten that a division multiplies by. -/
def maxPower : Int := 4294967295

/-- Ten to the power of an exponent between `0` and `maxPower`; any other
    exponent is handed back. -/
def powerOfTen (exponent : Int64) : Except Int64 Int :=
  if 0 ≤ exponent.toInt ∧ exponent.toInt ≤ maxPower then .ok (Int.pow 10 exponent.toInt.toNat)
  else .error exponent

/-- The quotient by a decimal that is not zero. The digits of one operand are
    multiplied by a power of ten, so that the integer quotient has the wanted
    scale; the exponent, computed in 64-bit words, is handed back if it is too
    large. -/
def divide : Except Int64 Decimal :=
  let scale := max l.scale r.scale
  let shift := scale - l.scale + r.scale
  if 0 ≤ shift.toInt then
    (powerOfTen shift).map fun p => ⟨roundQuotient (l.unscaled * p) r.unscaled, scale⟩
  else
    (powerOfTen (-shift)).map fun p => ⟨roundQuotient l.unscaled (r.unscaled * p), scale⟩

end Decimal

end AdaptiveArith
