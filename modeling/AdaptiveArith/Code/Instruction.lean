import AdaptiveArith.Error

/-!
# Instructions

An instruction is two bytes, a tag and an operand. Its operand is an index into
a table of the code, the byte of a scalar kind, or the byte of an operator;
nothing keeps a malformed instruction from carrying any other byte.

Slots of the stack hold bare scalars or boxed values. Constants and
arithmetic leave bare scalars, variables are loaded boxed, and `unbox` turns
the one into the other.
-/

namespace AdaptiveArith

/-- An instruction of the stack machine. -/
inductive Instruction
  /-- Stop; well-formed code never does. -/
  | halt
  /-- Push a constant. -/
  | loadConstant (index : UInt8)
  /-- Push the value of a variable, boxed. -/
  | loadVariable (index : UInt8)
  /-- Replace the boxed value on top by its scalar, of the kind of the byte. -/
  | unbox (kindByte : UInt8)
  /-- Replace the two scalars on top, of the given kind, by the result of the
      operator of the byte. -/
  | binary (kind : ScalarKind) (operator : UInt8)
  /-- Replace the scalar on top, of the given kind, by its negation. -/
  | negate (kind : ScalarKind)
  /-- Return the value on top. -/
  | ret
  deriving DecidableEq

namespace Instruction

/-- The number of bytes of an instruction. -/
def byteSize : Nat := 2

/-- The name of an instruction. -/
def mnemonic : Instruction → String
  | halt => "Halt"
  | loadConstant _ => "ConstLoad"
  | loadVariable _ => "LoadVariable"
  | unbox _ => "Unbox"
  | binary .int32 _ => "IntBinOp"
  | binary .int64 _ => "LongBinOp"
  | binary .float32 _ => "FloatBinOp"
  | binary .float64 _ => "DoubleBinOp"
  | negate .int32 => "NegInt"
  | negate .int64 => "NegLong"
  | negate .float32 => "NegFloat"
  | negate .float64 => "NegDouble"
  | ret => "Return"

/-- The operand of an instruction that has one. -/
def operand? : Instruction → Option UInt8
  | loadConstant index | loadVariable index => some index
  | unbox kindByte => some kindByte
  | binary _ operator => some operator
  | halt | negate _ | ret => none

/-- The instruction can fail in well-formed code: integers may be divided by
    zero, a variable may be unbound, and it may be of another kind than the code
    expects. -/
def mayFail : Instruction → Bool
  | loadVariable _ | unbox _ => true
  | binary .int32 operator | binary .int64 operator =>
    operator == Operator.div.byte || operator == Operator.mod.byte
  | _ => false

/-- The text of an instruction: an index is shown as a number, any other operand
    as a character. -/
def text (i : Instruction) : String :=
  match i with
  | loadConstant index | loadVariable index =>
    i.mnemonic ++ "(" ++ toString index.toNat ++ ")"
  | unbox byte | binary _ byte => i.mnemonic ++ "(" ++ byteText byte ++ ")"
  | halt | negate _ | ret => i.mnemonic

instance : ToString Instruction := ⟨text⟩

end Instruction

end AdaptiveArith
