import AdaptiveArith.Binary.Format

/-!
# Binary floating-point numbers

`Binary32` and `Binary64` are the words of the two IEEE 754 formats. A word is
kept as it is, since identity, the constants of compiled code and their bytes
tell apart the payloads of the words that are no number, and the two zeros.

Arithmetic rounds to nearest, ties to even, and is that of `Float32` and
`Float`; the remainder is exact and is computed on the words. Equality of
numbers (`numEq`) is that of the standard: no word that is no number equals
anything, and the two zeros are equal.
-/

namespace AdaptiveArith

/-- A word of the 32-bit format. -/
structure Binary32 where
  /-- The word. -/
  bits : UInt32
  deriving DecidableEq

/-- A word of the 64-bit format. -/
structure Binary64 where
  /-- The word. -/
  bits : UInt64
  deriving DecidableEq

namespace Binary32

/-- The word of a machine number. -/
def ofFloat32 (x : Float32) : Binary32 := ⟨x.toBits⟩

variable (x y : Binary32)

/-- What the word stands for. -/
def datum : BinaryDatum := BinaryFormat.binary32.datum x.bits.toNat

/-- The machine number of the word. -/
def toFloat32 : Float32 := .ofBits x.bits

instance : Add Binary32 := ⟨fun x y => ofFloat32 (x.toFloat32 + y.toFloat32)⟩
instance : Sub Binary32 := ⟨fun x y => ofFloat32 (x.toFloat32 - y.toFloat32)⟩
instance : Mul Binary32 := ⟨fun x y => ofFloat32 (x.toFloat32 * y.toFloat32)⟩
instance : Div Binary32 := ⟨fun x y => ofFloat32 (x.toFloat32 / y.toFloat32)⟩
instance : Mod Binary32 :=
  ⟨fun x y => ⟨.ofNat (BinaryFormat.binary32.remainder x.bits.toNat y.bits.toNat)⟩⟩

/-- Negation turns the sign bit over. -/
instance : Neg Binary32 := ⟨fun x => ⟨x.bits ^^^ 0x80000000⟩⟩

/-- The word stands for no number. -/
def isNaN : Bool := x.datum == .nan

/-- The word is one of the two zeros. -/
def isZero : Bool := x.bits &&& 0x7fffffff == 0

/-- The two words are numbers and the same one. -/
def numEq : Bool := !x.isNaN && !y.isNaN && (x.bits == y.bits || x.isZero && y.isZero)

end Binary32

namespace Binary64

/-- The word of a machine number. -/
def ofFloat (x : Float) : Binary64 := ⟨x.toBits⟩

variable (x y : Binary64)

/-- What the word stands for. -/
def datum : BinaryDatum := BinaryFormat.binary64.datum x.bits.toNat

/-- The machine number of the word. -/
def toFloat : Float := .ofBits x.bits

instance : Add Binary64 := ⟨fun x y => ofFloat (x.toFloat + y.toFloat)⟩
instance : Sub Binary64 := ⟨fun x y => ofFloat (x.toFloat - y.toFloat)⟩
instance : Mul Binary64 := ⟨fun x y => ofFloat (x.toFloat * y.toFloat)⟩
instance : Div Binary64 := ⟨fun x y => ofFloat (x.toFloat / y.toFloat)⟩
instance : Mod Binary64 :=
  ⟨fun x y => ⟨.ofNat (BinaryFormat.binary64.remainder x.bits.toNat y.bits.toNat)⟩⟩

/-- Negation turns the sign bit over. -/
instance : Neg Binary64 := ⟨fun x => ⟨x.bits ^^^ 0x8000000000000000⟩⟩

/-- The word stands for no number. -/
def isNaN : Bool := x.datum == .nan

/-- The word is one of the two zeros. -/
def isZero : Bool := x.bits &&& 0x7fffffffffffffff == 0

/-- The two words are numbers and the same one. -/
def numEq : Bool := !x.isNaN && !y.isNaN && (x.bits == y.bits || x.isZero && y.isZero)

end Binary64

/-! ### Conversions -/

/-- The nearest 32-bit number. -/
def Binary32.ofInt32 (n : Int32) : Binary32 := .ofFloat32 n.toFloat32

/-- The nearest 32-bit number. -/
def Binary32.ofInt64 (n : Int64) : Binary32 := .ofFloat32 n.toFloat32

/-- The number itself. -/
def Binary64.ofInt32 (n : Int32) : Binary64 := .ofFloat n.toFloat

/-- The nearest 64-bit number. -/
def Binary64.ofInt64 (n : Int64) : Binary64 := .ofFloat n.toFloat

/-- The number itself, in the wider format. -/
def Binary64.ofBinary32 (x : Binary32) : Binary64 := .ofFloat x.toFloat32.toFloat

end AdaptiveArith
