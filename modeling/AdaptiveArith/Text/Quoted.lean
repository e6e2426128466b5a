import AdaptiveArith.Text.Hidden

/-!
# Quoted text

A quoted text stands between double quotes and shows every character: the quote
and the backslash are escaped, four controls have short escapes, and any other
hidden character is written by its number in hexadecimal.
-/

namespace AdaptiveArith.Text

/-- How a character is written in a quoted text. -/
def escaped (c : Char) : List Char :=
  match c with
  | '\x00' => ['\\', '0']
  | '\t' => ['\\', 't']
  | '\r' => ['\\', 'r']
  | '\n' => ['\\', 'n']
  | '\"' => ['\\', '\"']
  | '\\' => ['\\', '\\']
  | c => if isHidden c then "\\u\x7b".toList ++ Nat.toDigits 16 c.toNat ++ ['\x7d'] else [c]

/-- The quoted form of a text. -/
def quoted (s : String) : String :=
  String.ofList ('\"' :: s.toList.flatMap escaped ++ ['\"'])

end AdaptiveArith.Text
