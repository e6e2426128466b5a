import AdaptiveArith.Code.Instruction
import AdaptiveArith.Tree.Basic

/-!
# Compiled code

Code is a list of instructions with the tables they index: constants, and the
names of variables, which are looked up in the environment of each run. It
declares how many slots of the stack it needs and in which form it leaves its
result. Code that was not compiled from a tree may declare anything.

`Code.listing` shows all of it, with what each index stands for.
-/

namespace AdaptiveArith

/-- Compiled code. -/
structure Code where
  /-- The constants. -/
  constants : Array Scalar
  /-- The names of the variables. -/
  «variables» : Array String
  /-- The instructions. -/
  instructions : Array Instruction
  /-- The number of slots the stack has. -/
  maxStack : Nat
  /-- The form in which the result is left, if it is declared. -/
  form? : Option Form
  deriving DecidableEq

namespace Code

/-- The two codes agree, their constants as numbers. -/
def numEq (a b : Code) : Bool :=
  a.constants.size == b.constants.size &&
    (a.constants.toList.zip b.constants.toList).all (fun (p, q) => p.numEq q) &&
    a.variables == b.variables && a.instructions == b.instructions &&
    a.maxStack == b.maxStack && a.form? == b.form?

/-! ### Listing -/

/-- A number with blanks in front of it, up to a width of four. -/
def addressText (n : Nat) : String :=
  let digits := Nat.toDigits 10 n
  String.ofList (List.replicate (4 - digits.length) ' ' ++ digits)

/-- What the index of an instruction stands for, if it has an index. -/
def annotation? (code : Code) : Instruction → Option String
  | .loadConstant index =>
    some ((code.constants[index.toNat]?.map Scalar.text).getD "<invalid>")
  | .loadVariable index =>
    some ((code.variables[index.toNat]?.map ("#" ++ ·)).getD "<invalid>")
  | _ => none

/-- The lines of a table, or of its absence. -/
def tableLines (name : String) (rows : List String) : List String :=
  if rows.isEmpty then ["  " ++ name ++ ": []"]
  else
    ["  " ++ name ++ ": ["] ++
      (rows.zipIdx.map fun (row, i) => "    [" ++ toString i ++ "] = " ++ row) ++ ["  ]"]

/-- The line of an instruction. -/
def instructionLine (code : Code) (address : Nat) (i : Instruction) : String :=
  let note :=
    match code.annotation? i with
    | some note => " (" ++ note ++ ")"
    | none => ""
  "    " ++ addressText address ++ "  " ++ i.text ++ note

/-- The listing of a code. -/
def listing (code : Code) : String :=
  let formText := (code.form?.map Form.text).getD "none"
  "\n".intercalate <|
    ["Code \x7b", "  max_stack_size: " ++ toString code.maxStack,
      "  exit_descriptor: " ++ formText] ++
    tableLines "constants" (code.constants.toList.map Scalar.text) ++
    tableLines "variables" (code.variables.toList.map ("#" ++ ·)) ++
    ["  instructions:"] ++
    (code.instructions.toList.zipIdx.map fun (i, address) => code.instructionLine address i) ++
    ["\x7d"]

end Code

end AdaptiveArith
