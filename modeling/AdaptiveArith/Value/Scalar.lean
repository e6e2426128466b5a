import AdaptiveArith.Binary.Basic
import AdaptiveArith.Binary.Decimal
import AdaptiveArith.Binary.Text
import AdaptiveArith.Decimal.Text
import AdaptiveArith.Value.Kind

/-!
# Scalars

A scalar is a number of one of the four scalar kinds. There are two ways to
compare scalars: `numEq` as numbers of one kind, with the rules of the standard
for floats, and `identical` bit for bit. The constants of compiled code are told
apart by their `key`, the kind and the bits.

Two scalars meet in a `ScalarPair`, two numbers of one kind: `widen` moves the
operand on the lower tier up, and `ofSameKind?` asks for a common kind.
-/

namespace AdaptiveArith

/-- A number of a scalar kind. -/
inductive Scalar
  | int32 (n : Int32)
  | int64 (n : Int64)
  | float32 (x : Binary32)
  | float64 (x : Binary64)
  deriving DecidableEq

namespace Scalar

/-- The kind of a scalar. -/
def kind : Scalar → ScalarKind
  | int32 _ => .int32
  | int64 _ => .int64
  | float32 _ => .float32
  | float64 _ => .float64

/-! ### Comparison -/

/-- The two scalars are equal numbers of one kind. -/
def numEq : Scalar → Scalar → Bool
  | int32 a, int32 b => a == b
  | int64 a, int64 b => a == b
  | float32 a, float32 b => a.numEq b
  | float64 a, float64 b => a.numEq b
  | _, _ => false

/-- The two scalars are of one kind and have the same bits. -/
def identical : Scalar → Scalar → Bool
  | int32 a, int32 b => a == b
  | int64 a, int64 b => a == b
  | float32 a, float32 b => a.bits == b.bits
  | float64 a, float64 b => a.bits == b.bits
  | _, _ => false

/-- The kind of a scalar and its bits, filled up with zeros to 64. -/
def key : Scalar → ScalarKind × UInt64
  | int32 n => (.int32, n.toUInt32.toUInt64)
  | int64 n => (.int64, n.toUInt64)
  | float32 x => (.float32, x.bits.toUInt64)
  | float64 x => (.float64, x.bits)

/-! ### Conversion -/

/-- The nearest 64-bit float; exact except for 64-bit integers. -/
def toBinary64 : Scalar → Binary64
  | int32 n => .ofInt32 n
  | int64 n => .ofInt64 n
  | float32 x => .ofBinary32 x
  | float64 x => x

/-- The decimal of a scalar: integers have scale `0`, finite floats are read
    off their shortest digits, other floats have none. -/
def toDecimal? : Scalar → Option Decimal
  | int32 n => some (.ofInt n.toInt)
  | int64 n => some (.ofInt n.toInt)
  | float32 x => BinaryFormat.binary32.toDecimal? x.datum
  | float64 x => BinaryFormat.binary64.toDecimal? x.datum

/-! ### Texts -/

/-- The text of a scalar; 64-bit integers and 32-bit floats carry a letter. -/
def text : Scalar → String
  | int32 n => toString n.toInt
  | int64 n => toString n.toInt ++ "L"
  | float32 x => BinaryFormat.binary32.display x.datum ++ "f"
  | float64 x => BinaryFormat.binary64.display x.datum

instance : ToString Scalar := ⟨text⟩

/-- The number in a scalar, as written in diagnostics. -/
def diagnostic : Scalar → String
  | int32 n => toString n.toInt
  | int64 n => toString n.toInt
  | float32 x => BinaryFormat.binary32.diagnostic x.datum
  | float64 x => BinaryFormat.binary64.diagnostic x.datum

end Scalar

/-! ### Pairs -/

/-- Two numbers of one scalar kind. -/
inductive ScalarPair
  | int32 (l r : Int32)
  | int64 (l r : Int64)
  | float32 (l r : Binary32)
  | float64 (l r : Binary64)
  deriving DecidableEq

namespace ScalarPair

/-- The common kind. -/
def kind : ScalarPair → ScalarKind
  | int32 .. => .int32
  | int64 .. => .int64
  | float32 .. => .float32
  | float64 .. => .float64

/-- The first number. -/
def left : ScalarPair → Scalar
  | int32 l _ => .int32 l
  | int64 l _ => .int64 l
  | float32 l _ => .float32 l
  | float64 l _ => .float64 l

/-- The second number. -/
def right : ScalarPair → Scalar
  | int32 _ r => .int32 r
  | int64 _ r => .int64 r
  | float32 _ r => .float32 r
  | float64 _ r => .float64 r

/-- The two operands on the higher of their tiers. -/
def widen : Scalar → Scalar → ScalarPair
  | .float64 l, r => float64 l r.toBinary64
  | l, .float64 r => float64 l.toBinary64 r
  | .float32 l, .float32 r => float32 l r
  | .float32 l, .int64 r => float32 l (.ofInt64 r)
  | .float32 l, .int32 r => float32 l (.ofInt32 r)
  | .int64 l, .float32 r => float32 (.ofInt64 l) r
  | .int32 l, .float32 r => float32 (.ofInt32 l) r
  | .int64 l, .int64 r => int64 l r
  | .int64 l, .int32 r => int64 l r.toInt64
  | .int32 l, .int64 r => int64 l.toInt64 r
  | .int32 l, .int32 r => int32 l r

/-- The two operands, if they are of one kind. -/
def ofSameKind? : Scalar → Scalar → Option ScalarPair
  | .int32 l, .int32 r => some (int32 l r)
  | .int64 l, .int64 r => some (int64 l r)
  | .float32 l, .float32 r => some (float32 l r)
  | .float64 l, .float64 r => some (float64 l r)
  | _, _ => none

theorem kind_widen (l r : Scalar) : (widen l r).kind = max l.kind r.kind := by
  cases l <;> cases r <;> rfl

end ScalarPair

end AdaptiveArith
