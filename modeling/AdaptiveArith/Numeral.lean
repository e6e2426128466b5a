/-!
# Numerals

A numeral is a nonnegative number in decimal form, a natural coefficient times a
power of ten. Finite floats and decimals are both written through it:

* `Numeral.positional` writes all digits, with a point where one is needed and
  never an exponent;
* `Numeral.mantissa` writes the digits with the point after the first of them,
  as they stand in front of an exponent (`Numeral.leading`).

`Numeral.reduced` moves the trailing zeros of the coefficient into the power.
Two numerals denote the same number exactly if their reduced forms agree.
-/

namespace AdaptiveArith

/-- The number `coefficient * 10 ^ power`. -/
structure Numeral where
  /-- The digits, as a natural number. -/
  coefficient : Nat
  /-- The power of ten of the last digit. -/
  power : Int
  deriving DecidableEq, Repr

namespace Numeral

variable (n : Numeral)

/-- The numeral without the trailing zeros of its coefficient; every form of
    zero becomes `0 * 10 ^ 0`. -/
def reduced (n : Numeral) : Numeral :=
  if n.coefficient = 0 then ⟨0, 0⟩
  else if n.coefficient % 10 = 0 then reduced ⟨n.coefficient / 10, n.power + 1⟩
  else n
termination_by n.coefficient
decreasing_by omega

/-- The digits of the coefficient, most significant first. -/
def digits : List Char := Nat.toDigits 10 n.coefficient

/-- The number of digits that follow the first one. -/
def fractionDigits : Nat := n.digits.length - 1

/-- The power of ten of the first digit. -/
def leading : Int := n.power + n.fractionDigits

/-! ### Texts -/

/-- The digits with a point before the last `places` of them, filled up with
    zeros so that a digit precedes the point. -/
def pointed (places : Nat) (digits : List Char) : List Char :=
  let filled := List.replicate (places + 1 - digits.length) '0' ++ digits
  filled.take (filled.length - places) ++ '.' :: filled.drop (filled.length - places)

/-- All digits and no exponent: a nonnegative power appends zeros, a negative
    one places a point. -/
def positional : List Char :=
  if 0 ≤ n.power then n.digits ++ List.replicate n.power.toNat '0'
  else pointed (-n.power).toNat n.digits

/-- The digits, with a point after the first one if others follow. -/
def mantissa : List Char :=
  match n.digits with
  | first :: next :: rest => first :: '.' :: next :: rest
  | single => single

end Numeral

end AdaptiveArith
