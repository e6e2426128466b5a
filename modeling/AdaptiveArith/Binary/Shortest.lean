import AdaptiveArith.Binary.Format
import AdaptiveArith.Numeral

/-!
# Shortest decimal digits

Every real number near a binary number rounds to it; `Neighbourhood` is the
interval of those that do. `Neighbourhood.shortest` is the numeral in that
interval with the fewest digits, and the one nearest to the binary number if
there are several: it tries the decimal grids from the coarsest on, and on each
grid only the two points around the number can be the nearest that qualify. As
many digits as `maxDigits` always suffice in the formats in use; any format has
the exact numeral of the number to fall back on.

The ends of the interval belong to it if the significand is even, since a tie
then rounds to the number. Below a power of two the numbers lie twice as dense,
which halves that side of the interval.
-/

namespace AdaptiveArith

/-- The interval of the reals that round to a positive binary number, as
    fractions with a common denominator. -/
structure Neighbourhood where
  /-- The numerator of the lower end. -/
  low : Nat
  /-- The numerator of the number itself. -/
  centre : Nat
  /-- The numerator of the upper end. -/
  high : Nat
  /-- The common denominator. -/
  denominator : Nat
  /-- Whether the two ends round to the number as well. -/
  closed : Bool

namespace Neighbourhood

/-- The neighbourhood of `significand * 2 ^ exponent` in a format. -/
def ofFinite (f : BinaryFormat) (significand : Nat) (exponent : Int) : Neighbourhood :=
  let unit := Nat.pow 2 exponent.toNat
  let dense := significand = Nat.pow 2 f.fractionBits ∧ f.minExponent < exponent
  { low := (4 * significand - if dense then 1 else 2) * unit
    centre := 4 * significand * unit
    high := (4 * significand + 2) * unit
    denominator := 4 * Nat.pow 2 (-exponent).toNat
    closed := significand % 2 = 0 }

variable (v : Neighbourhood)

/-- The numerator and the denominator of `numerator / v.denominator`, divided by
    `10 ^ power`. -/
def scaled (numerator : Nat) (power : Int) : Nat × Nat :=
  (numerator * Nat.pow 10 (-power).toNat, v.denominator * Nat.pow 10 power.toNat)

/-- The point `coefficient * 10 ^ power` lies in the interval. -/
def contains (coefficient : Nat) (power : Int) : Bool :=
  let (low, unit) := v.scaled v.low power
  let (high, _) := v.scaled v.high power
  if v.closed then low ≤ coefficient * unit && coefficient * unit ≤ high
  else low < coefficient * unit && coefficient * unit < high

/-- The point of the grid of `10 ^ power` that is nearest to the number, and the
    upper of two equally near. -/
def nearest (power : Int) : Nat :=
  let (centre, unit) := v.scaled v.centre power
  let below := centre / unit
  if 2 * (centre - below * unit) < unit then below else below + 1

/-- The point of the grid of `10 ^ power` that lies in the interval, the nearest
    to the number if there are two around it. -/
def onGrid? (power : Int) : Option Nat :=
  let (centre, unit) := v.scaled v.centre power
  let below := centre / unit
  match v.contains below power, v.contains (below + 1) power with
  | true, true => some (v.nearest power)
  | true, false => some below
  | false, true => some (below + 1)
  | false, false => none

/-- The power of ten of the first digit of the number. -/
def leading : Int :=
  let guess : Int := (Nat.toDigits 10 v.centre).length - (Nat.toDigits 10 v.denominator).length
  let (centre, unit) := v.scaled v.centre guess
  if unit ≤ centre then guess else guess - 1

/-- The point in the interval on the first grid that has one, of as many grids as
    given, each finer than the one before, from that of `10 ^ power` on. -/
def search? : Nat → Int → Option Numeral
  | 0, _ => none
  | grids + 1, power =>
    match v.onGrid? power with
    | some coefficient => some ⟨coefficient, power⟩
    | none => search? grids (power - 1)

/-- The number of digits that suffices to tell apart the numbers of the formats
    in use. -/
def maxDigits : Nat := 17

/-- The shortest numeral in the interval, if it has at most `maxDigits` digits. -/
def shortest? : Option Numeral := v.search? maxDigits v.leading

end Neighbourhood

namespace BinaryFormat

/-- All digits of `significand * 2 ^ exponent`: a half is five tenths. -/
def allDigits (significand : Nat) (exponent : Int) : Numeral :=
  if 0 ≤ exponent then ⟨significand * Nat.pow 2 exponent.toNat, 0⟩
  else ⟨significand * Nat.pow 5 (-exponent).toNat, exponent⟩

/-- The shortest numeral that rounds to `significand * 2 ^ exponent` in a format,
    without trailing zeros. -/
def shortest (f : BinaryFormat) (significand : Nat) (exponent : Int) : Numeral :=
  if significand = 0 then ⟨0, 0⟩
  else
    let v := Neighbourhood.ofFinite f significand exponent
    (v.shortest?.getD (allDigits significand exponent)).reduced

end BinaryFormat

end AdaptiveArith
