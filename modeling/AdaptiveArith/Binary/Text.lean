import AdaptiveArith.Binary.Shortest

/-!
# The texts of binary numbers

A binary number is written with its shortest digits, in one of three forms:

* `display`, for users: always positional, with a digit after the point;
* `diagnostic`, for listings of a data structure: positional with a digit after
  the point where the first digit stands in one of the places `positionalPlaces`
  admits, and otherwise scientific;
* `scientific`: one digit, a point and the other digits if there are any, and
  the exponent.
-/

namespace AdaptiveArith.BinaryFormat

variable (f : BinaryFormat)

/-- The sign in front of a number. -/
def signText (negative : Bool) : List Char := if negative then ['-'] else []

/-- The positional text of a numeral, with `.0` where it would have no point. -/
def pointedText (n : Numeral) : List Char :=
  if 0 ≤ n.power then n.positional ++ ['.', '0'] else n.positional

/-- The scientific text of a numeral. -/
def scientificText (n : Numeral) : List Char :=
  n.mantissa ++ 'e' :: (toString n.leading).toList

/-- The text of a datum for users. -/
def display : BinaryDatum → String
  | .nan => "nan"
  | .infinite negative => String.ofList (signText negative ++ "inf".toList)
  | .finite negative m e => String.ofList (signText negative ++ pointedText (f.shortest m e))

/-- The scientific text of a datum. -/
def scientific : BinaryDatum → String
  | .nan => "NaN"
  | .infinite negative => String.ofList (signText negative ++ "inf".toList)
  | .finite negative m e => String.ofList (signText negative ++ scientificText (f.shortest m e))

/-- The places of the first digit, as powers of ten, for which a diagnostic text
    is positional. -/
def positionalPlaces (place : Int) : Bool := -4 ≤ place && place ≤ 15

/-- The text of a datum in diagnostics. -/
def diagnostic : BinaryDatum → String
  | .nan => "NaN"
  | .infinite negative => String.ofList (signText negative ++ "inf".toList)
  | .finite negative m e =>
    let n := f.shortest m e
    String.ofList (signText negative ++
      if positionalPlaces n.leading then pointedText n else scientificText n)

end AdaptiveArith.BinaryFormat
