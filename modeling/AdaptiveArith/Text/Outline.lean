/-!
# Outlines

An outline describes a data structure for diagnostics: words, records of named
fields, variants with their contents, and tables. `Outline.flat` writes it on
one line; `Outline.indented` writes every field on a line of its own, four
spaces deeper than what it belongs to.
-/

namespace AdaptiveArith.Text

/-- A data structure, described for diagnostics. -/
inductive Outline
  /-- A word. -/
  | word (text : String)
  /-- A variant with one content. -/
  | variant (name : String) (content : Outline)
  /-- A record with named fields. -/
  | record (name : String) (fields : List (String × Outline))
  /-- A record that has further fields than those shown. -/
  | partialRecord (name : String) (fields : List (String × Outline))
  /-- A table from keys to contents. -/
  | table (entries : List (String × Outline))

namespace Outline

/-- The outline of a content that may be missing. -/
def ofOption : Option Outline → Outline
  | none => .word "None"
  | some content => .variant "Some" content

/-! ### On one line -/

mutual

/-- The outline on one line. -/
def flat : Outline → String
  | .word text => text
  | .variant name content => name ++ "(" ++ content.flat ++ ")"
  | .record name [] => name
  | .record name fields => name ++ " \x7b " ++ ", ".intercalate (flatFields fields) ++ " \x7d"
  | .partialRecord name fields =>
    name ++ " \x7b " ++ ", ".intercalate (flatFields fields ++ [".."]) ++ " \x7d"
  | .table entries => "\x7b" ++ ", ".intercalate (flatFields entries) ++ "\x7d"

/-- The fields of an outline, each on one line. -/
def flatFields : List (String × Outline) → List String
  | [] => []
  | (name, content) :: rest => (name ++ ": " ++ content.flat) :: flatFields rest

end

/-! ### On several lines -/

/-- The white space in front of a line at a depth. -/
def margin (depth : Nat) : String := String.ofList (List.replicate (4 * depth) ' ')

mutual

/-- The outline with one line for each of its parts; the first line, which
    stands at the given depth, is not indented itself. -/
def indentedAt (depth : Nat) : Outline → String
  | .word text => text
  | .variant name content =>
    name ++ "(\n" ++ margin (depth + 1) ++ content.indentedAt (depth + 1) ++ ",\n" ++
      margin depth ++ ")"
  | .record name [] => name
  | .record name fields =>
    name ++ " \x7b\n" ++ indentedFields (depth + 1) fields ++ margin depth ++ "\x7d"
  | .partialRecord name fields =>
    name ++ " \x7b\n" ++ indentedFields (depth + 1) fields ++ margin (depth + 1) ++ "..\n" ++
      margin depth ++ "\x7d"
  | .table [] => "\x7b\x7d"
  | .table entries => "\x7b\n" ++ indentedFields (depth + 1) entries ++ margin depth ++ "\x7d"

/-- The fields of an outline, one after the other at a depth. -/
def indentedFields (depth : Nat) : List (String × Outline) → String
  | [] => ""
  | (name, content) :: rest =>
    margin depth ++ name ++ ": " ++ content.indentedAt depth ++ ",\n" ++ indentedFields depth rest

end

/-- The outline with one line for each of its parts. -/
def indented (outline : Outline) : String := outline.indentedAt 0

end Outline

end AdaptiveArith.Text
