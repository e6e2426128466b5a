/-!
# Binary interchange formats

A number of a binary format is a word of a sign bit, a biased exponent and a
fraction. `BinaryFormat.datum` says what a word stands for: no number, an
infinity, or a signed `significand * 2 ^ exponent`. The exponent of a finite
datum is the power of two of the last bit of its significand, which is never
below `BinaryFormat.minExponent`; the significand of a normal number includes
the leading bit that the word leaves out.

`BinaryFormat.word` is the other direction, for finite data whose significand
is at most as long as the format allows.
-/

namespace AdaptiveArith

/-- A layout of binary words: the sign bit, the exponent field and the fraction
    field, from the most significant bit on. -/
structure BinaryFormat where
  /-- The width of the fraction field. -/
  fractionBits : Nat
  /-- The width of the exponent field. -/
  exponentBits : Nat
  deriving DecidableEq

/-- What a binary word stands for. -/
inductive BinaryDatum
  /-- No number. -/
  | nan
  /-- An infinity. -/
  | infinite (negative : Bool)
  /-- The number `significand * 2 ^ exponent`, with a sign. -/
  | finite (negative : Bool) (significand : Nat) (exponent : Int)
  deriving DecidableEq

namespace BinaryFormat

/-- Words of 32 bits. -/
def binary32 : BinaryFormat := ⟨23, 8⟩

/-- Words of 64 bits. -/
def binary64 : BinaryFormat := ⟨52, 11⟩

variable (f : BinaryFormat)

/-- The exponent of the least positive number. -/
def minExponent : Int := 2 - Int.pow 2 (f.exponentBits - 1) - f.fractionBits

/-- The fraction field of a word. -/
def fraction (word : Nat) : Nat := word % Nat.pow 2 f.fractionBits

/-- The exponent field of a word. -/
def biasedExponent (word : Nat) : Nat := word / Nat.pow 2 f.fractionBits % Nat.pow 2 f.exponentBits

theorem fraction_lt (word : Nat) : f.fraction word < Nat.pow 2 f.fractionBits :=
  Nat.mod_lt _ (Nat.two_pow_pos _)

theorem biasedExponent_lt (word : Nat) :
    f.biasedExponent word < Nat.pow 2 f.exponentBits :=
  Nat.mod_lt _ (Nat.two_pow_pos _)

/-- The sign bit of a word. -/
def isNegative (word : Nat) : Bool := word / Nat.pow 2 (f.fractionBits + f.exponentBits) % 2 == 1

/-- What a word of the format stands for. An exponent field of ones marks the
    infinities and, with a fraction, no number; one of zeros marks the numbers
    without a leading bit. -/
def datum (word : Nat) : BinaryDatum :=
  let fraction := f.fraction word
  let biased := f.biasedExponent word
  if biased = Nat.pow 2 f.exponentBits - 1 then
    if fraction = 0 then .infinite (f.isNegative word) else .nan
  else if biased = 0 then .finite (f.isNegative word) fraction f.minExponent
  else
    .finite (f.isNegative word) (Nat.pow 2 f.fractionBits + fraction) (f.minExponent + (biased - 1))

/-- The word of a signed `significand * 2 ^ exponent`, for a significand of at
    most `fractionBits + 1` bits and an exponent not below `minExponent`: the
    significand is moved up as far as the format has room, which keeps the
    number. -/
def word (negative : Bool) (significand : Nat) (exponent : Int) : Nat :=
  let sign := if negative then Nat.pow 2 (f.fractionBits + f.exponentBits) else 0
  if significand = 0 then sign
  else
    let above := (exponent - f.minExponent).toNat
    let shift := min above (f.fractionBits - significand.log2)
    sign + (above - shift) * Nat.pow 2 f.fractionBits + significand * Nat.pow 2 shift

/-- The word that stands for no number in results: a quiet one without a
    payload. -/
def nanWord : Nat :=
  (Nat.pow 2 f.exponentBits - 1) * Nat.pow 2 f.fractionBits + Nat.pow 2 (f.fractionBits - 1)

/-- The remainder of the division truncated toward zero, which is exact. It has
    the sign of the dividend, also when it is zero; there is none by zero or of
    an infinity, and division by an infinity leaves the dividend. -/
def remainder (x y : Nat) : Nat :=
  match f.datum x, f.datum y with
  | .finite negative m e, .finite _ n k =>
    if n = 0 then f.nanWord
    else if k ≤ e then f.word negative (m * Nat.pow 2 (e - k).toNat % n) k
    else f.word negative (m % (n * Nat.pow 2 (k - e).toNat)) e
  | .finite .., .infinite _ => x
  | _, _ => f.nanWord

end BinaryFormat

end AdaptiveArith
