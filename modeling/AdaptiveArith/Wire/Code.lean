import AdaptiveArith.Code.Basic
import AdaptiveArith.Wire.Basic

/-!
# Bytes of compiled code

Code is written as its constants, the names of its variables, its instructions,
the size of its stack and the form of its result, in this order. Reading stops
after them and leaves any bytes that follow.
-/

namespace AdaptiveArith

/-! ### Scalars and forms -/

/-- The bytes of a scalar. -/
def Scalar.bytes : Scalar → Wire.Bytes
  | int32 n => 0 :: Wire.natBytes (Wire.zigzag n.toInt)
  | int64 n => 1 :: Wire.natBytes (Wire.zigzag n.toInt)
  | float32 x => 2 :: Wire.wordBytes 4 x.bits.toNat
  | float64 x => 3 :: Wire.wordBytes 8 x.bits.toNat

/-- Reads a scalar. -/
def Scalar.read : Wire.Reader Scalar := do
  match ← Wire.readNat32 with
  | 0 => return int32 (.ofInt (Wire.unzigzag (← Wire.readNat32)))
  | 1 => return int64 (.ofInt (Wire.unzigzag (← Wire.readNat64)))
  | 2 => return float32 ⟨.ofNat (← Wire.readWord 4)⟩
  | 3 => return float64 ⟨.ofNat (← Wire.readWord 8)⟩
  | _ => throw .unknownVariant

/-- The byte of a scalar kind. -/
def ScalarKind.bytes (kind : ScalarKind) : Wire.Bytes := [.ofNat kind.tier]

/-- Reads a scalar kind. -/
def ScalarKind.read : Wire.Reader ScalarKind := do
  match ← Wire.readNat32 with
  | 0 => return int32
  | 1 => return int64
  | 2 => return float32
  | 3 => return float64
  | _ => throw .unknownVariant

/-- The bytes of a form. -/
def Form.bytes : Form → Wire.Bytes
  | bare kind => 0 :: kind.bytes
  | boxed kind => 1 :: kind.bytes

/-- Reads a form. -/
def Form.read : Wire.Reader Form := do
  match ← Wire.readNat32 with
  | 0 => return bare (← ScalarKind.read)
  | 1 => return boxed (← ScalarKind.read)
  | _ => throw .unknownVariant

/-! ### Instructions -/

/-- The bytes of an instruction: its number, and its operand if it has one. -/
def Instruction.bytes : Instruction → Wire.Bytes
  | halt => [0]
  | loadConstant index => [1, index]
  | loadVariable index => [2, index]
  | unbox kindByte => [3, kindByte]
  | binary .int32 operator => [4, operator]
  | negate .int32 => [5]
  | binary .int64 operator => [6, operator]
  | negate .int64 => [7]
  | binary .float32 operator => [8, operator]
  | negate .float32 => [9]
  | binary .float64 operator => [10, operator]
  | negate .float64 => [11]
  | ret => [12]

/-- Reads an instruction. -/
def Instruction.read : Wire.Reader Instruction := do
  match ← Wire.readNat32 with
  | 0 => return halt
  | 1 => return loadConstant (← Wire.readByte)
  | 2 => return loadVariable (← Wire.readByte)
  | 3 => return unbox (← Wire.readByte)
  | 4 => return binary .int32 (← Wire.readByte)
  | 5 => return negate .int32
  | 6 => return binary .int64 (← Wire.readByte)
  | 7 => return negate .int64
  | 8 => return binary .float32 (← Wire.readByte)
  | 9 => return negate .float32
  | 10 => return binary .float64 (← Wire.readByte)
  | 11 => return negate .float64
  | 12 => return ret
  | _ => throw .unknownVariant

/-! ### Code -/

/-- The bytes of a code. -/
def Code.bytes (code : Code) : Wire.Bytes :=
  Wire.seqBytes Scalar.bytes code.constants ++
    Wire.seqBytes Wire.textBytes code.variables ++
    Wire.seqBytes Instruction.bytes code.instructions ++
    Wire.natBytes code.maxStack ++
    Wire.optionBytes Form.bytes code.form?

/-- Reads a code. -/
def Code.read : Wire.Reader Code := do
  let constants ← Wire.readSeq Scalar.read
  let names ← Wire.readSeq Wire.readText
  let instructions ← Wire.readSeq Instruction.read
  let maxStack ← Wire.readNat64
  let form? ← Wire.readOption Form.read
  return { constants, «variables» := names, instructions, maxStack, form? }

/-- The code at the front of bytes. -/
def Code.ofBytes (bytes : Wire.Bytes) : Except Wire.ReadError Code :=
  (Code.read.run bytes).map Prod.fst

end AdaptiveArith
