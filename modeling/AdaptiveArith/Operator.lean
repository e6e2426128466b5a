/-!
# Arithmetic operators

The five operators on two operands. Addition and subtraction also have a form
with one operand. Compiled code names an operator by the byte of its symbol.
-/

namespace AdaptiveArith

/-- An arithmetic operator. -/
inductive Operator
  | add
  | sub
  | mul
  | div
  | mod
  deriving DecidableEq, Repr

namespace Operator

/-- The sign of an operator in texts. -/
def symbol : Operator → String
  | add => "+"
  | sub => "-"
  | mul => "*"
  | div => "/"
  | mod => "%"

instance : ToString Operator := ⟨symbol⟩

/-- The name of an operator in outlines. -/
def name : Operator → String
  | add => "Add"
  | sub => "Sub"
  | mul => "Mul"
  | div => "Div"
  | mod => "Mod"

/-- The byte of an operator in compiled code: that of its symbol. -/
def byte : Operator → UInt8
  | add => 0x2b
  | sub => 0x2d
  | mul => 0x2a
  | div => 0x2f
  | mod => 0x25

/-- The operator of a byte. -/
def ofByte? : UInt8 → Option Operator
  | 0x2b => some add
  | 0x2d => some sub
  | 0x2a => some mul
  | 0x2f => some div
  | 0x25 => some mod
  | _ => none

/-- The operator can be applied to one operand. -/
def isSign : Operator → Bool
  | add | sub => true
  | mul | div | mod => false

theorem ofByte?_byte (op : Operator) : ofByte? op.byte = some op := by cases op <;> rfl

end Operator

end AdaptiveArith
