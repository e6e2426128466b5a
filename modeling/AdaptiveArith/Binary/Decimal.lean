import AdaptiveArith.Binary.Shortest
import AdaptiveArith.Decimal.Basic

/-!
# Decimals of binary numbers

A finite binary number becomes the decimal of its shortest digits: `0.1` becomes
one tenth, and not the binary fraction next to it. Its scale is that of a text
with at least one digit after the point: of the positional text for numbers from
a thousandth to below ten million, of the scientific one, with the point after
the first digit, elsewhere.
-/

namespace AdaptiveArith.BinaryFormat

variable (f : BinaryFormat)

/-- The number `significand * 2 ^ exponent` is zero, or at least a thousandth and
    less than ten million. -/
def isModerate (significand : Nat) (exponent : Int) : Bool :=
  let numerator := significand * Nat.pow 2 exponent.toNat
  let denominator := Nat.pow 2 (-exponent).toNat
  numerator == 0 || (denominator ≤ 1000 * numerator && numerator < 10000000 * denominator)

/-- The scale of the decimal of a binary number with the given numeral. -/
def decimalScale (moderate : Bool) (n : Numeral) : Int :=
  if moderate then max 1 (-n.power) else max 1 (n.fractionDigits : Int) - n.leading

/-- The decimal of a datum; only finite data have one. -/
def toDecimal? : BinaryDatum → Option Decimal
  | .nan | .infinite _ => none
  | .finite negative m e =>
    let n := f.shortest m e
    let digits : Int := if negative then -n.coefficient else n.coefficient
    let scale := decimalScale (isModerate m e) n
    some ((Decimal.mk digits (.ofInt (-n.power))).withScale (.ofInt scale))

end AdaptiveArith.BinaryFormat
