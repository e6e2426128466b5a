import AdaptiveArith.Decimal.Basic

/-!
# The text of a decimal

A decimal is written with all its digits, unless that would take more than
`maxLeadingZeros` zeros after the point or more than `maxTrailingZeros` zeros
at the end; the exponent form is used then. A zero is always written `0`.
-/

namespace AdaptiveArith.Decimal

/-- The largest number of zeros written between the point and the first other
    digit. -/
def maxLeadingZeros : Int := 5

/-- The largest number of zeros appended to the digits. -/
def maxTrailingZeros : Int := 15

/-- The text of a numeral: all digits, or an exponent where `maxLeadingZeros`
    and `maxTrailingZeros` ask for one. -/
def magnitudeText (n : Numeral) : List Char :=
  if n.power < 0 ∧ maxLeadingZeros < -n.power - n.digits.length then
    n.mantissa ++ 'E' :: (toString n.leading).toList
  else if maxTrailingZeros < n.power then
    n.digits ++ 'e' :: '+' :: (toString n.power).toList
  else n.positional

/-- The text of a decimal. -/
def text (d : Decimal) : String :=
  let size := if d.isZero then ⟨0, 0⟩ else d.magnitude
  String.ofList ((if d.unscaled < 0 then ['-'] else []) ++ magnitudeText size)

instance : ToString Decimal := ⟨text⟩

end AdaptiveArith.Decimal
