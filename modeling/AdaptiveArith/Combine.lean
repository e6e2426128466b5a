import AdaptiveArith.Error
import AdaptiveArith.Value.Basic

/-!
# Combining operands

What the operators do with values they know:

* integers of one width wrap around, and dividing them by zero is an error;
* floats of one width follow the standard, so no operation on them fails;
* numbers on different tiers meet on the higher one (`onNumbers`), where both
  become decimals if one is;
* a text times a 32-bit integer is repeated and two texts are joined, within the
  given limit on the length of a text, and within the length that a text can have
  at all: a longer one is not refused but makes the program panic.

`combine?` leaves all other operands to the host. Interpretation and compiled
code share the operations on scalars (`onPair`, `onScalar`).
-/

namespace AdaptiveArith

namespace Operator

/-! ### Scalars -/

/-- The operator on 32-bit integers. -/
def onInt32 : Operator → Int32 → Int32 → Except RuntimeError Int32
  | add, l, r => .ok (l + r)
  | sub, l, r => .ok (l - r)
  | mul, l, r => .ok (l * r)
  | div, l, r => if r = 0 then .error .divisionByZero else .ok (l / r)
  | mod, l, r => if r = 0 then .error .divisionByZero else .ok (l % r)

/-- The operator on 64-bit integers. -/
def onInt64 : Operator → Int64 → Int64 → Except RuntimeError Int64
  | add, l, r => .ok (l + r)
  | sub, l, r => .ok (l - r)
  | mul, l, r => .ok (l * r)
  | div, l, r => if r = 0 then .error .divisionByZero else .ok (l / r)
  | mod, l, r => if r = 0 then .error .divisionByZero else .ok (l % r)

/-- The operator on 32-bit floats. -/
def onBinary32 : Operator → Binary32 → Binary32 → Binary32
  | add, l, r => l + r
  | sub, l, r => l - r
  | mul, l, r => l * r
  | div, l, r => l / r
  | mod, l, r => l % r

/-- The operator on 64-bit floats. -/
def onBinary64 : Operator → Binary64 → Binary64 → Binary64
  | add, l, r => l + r
  | sub, l, r => l - r
  | mul, l, r => l * r
  | div, l, r => l / r
  | mod, l, r => l % r

/-- The operator on two scalars of one kind. -/
def onPair (op : Operator) : ScalarPair → Except RuntimeError Scalar
  | .int32 l r => (op.onInt32 l r).map .int32
  | .int64 l r => (op.onInt64 l r).map .int64
  | .float32 l r => .ok (.float32 (op.onBinary32 l r))
  | .float64 l r => .ok (.float64 (op.onBinary64 l r))

end Operator

/-- A scalar with the opposite sign. -/
def Scalar.neg : Scalar → Scalar
  | int32 n => int32 (-n)
  | int64 n => int64 (-n)
  | float32 x => float32 (-x)
  | float64 x => float64 (-x)

namespace Operator

/-- The operator on one scalar. -/
def onScalar (op : Operator) (p : Scalar) : Except RuntimeError Scalar :=
  match op with
  | add => .ok p
  | sub => .ok p.neg
  | mul | div | mod => .error (.missingOperand op)

/-! ### Numbers -/

/-- The operator on two decimals. -/
def onDecimals (op : Operator) (l r : Decimal) : Except RuntimeError Decimal :=
  match op with
  | add => .ok (l.add r)
  | sub => .ok (l.sub r)
  | mul => .ok (l.mul r)
  | div =>
    if r.isZero then .error .divisionByZero
    else (l.divide r).mapError fun exponent => .noDecimal ("10^" ++ toString exponent.toInt)
  | mod => if r.isZero then .error .divisionByZero else .ok (l.rem r)

end Operator

/-- The decimal of a number, or the error that there is none. -/
def Number.toDecimal (n : Number) : Except RuntimeError Decimal :=
  match n.toDecimal? with
  | some d => .ok d
  | none => .error (.noDecimal n.text)

namespace Operator

/-- The operator on two numbers: on the higher of their tiers. -/
def onNumbers (op : Operator) : Number → Number → Except RuntimeError Value
  | .scalar l, .scalar r => (op.onPair (.widen l r)).map .scalar
  | l, r => do
    let l ← l.toDecimal
    let r ← r.toDecimal
    return .decimal (← op.onDecimals l r)

end Operator

/-! ### Text -/

namespace Text

/-- The number of copies of a text, joined. -/
def copies (s : String) (count : Nat) : String :=
  if count = 0 then ""
  else
    let half := copies s (count / 2)
    if count % 2 = 0 then half ++ half else half ++ half ++ s
termination_by count
decreasing_by omega

/-- The number of lengths a machine word can hold. -/
def wordBound : Nat := UInt64.size

/-- The number of lengths a text can have; no text is as long. Offsets into memory
    are signed, so these are half of the lengths that a word can hold. -/
def lengthBound : Nat := wordBound / 2

/-- A limit on the length of a text, in bytes, admits a length. -/
def admits (maxLength : Option Nat) (length : Nat) : Except EvalError Unit :=
  match maxLength with
  | none => .ok ()
  | some limit => if limit < length then .error (.limit (.textTooLong limit)) else .ok ()

/-- The memory for a text of a length. It is taken to suffice for every length that
    a text can have. -/
def allocate (length : Nat) : Except EvalError Unit :=
  if length < lengthBound then .ok () else .error (.panic "capacity overflow")

/-- The text repeated; a count that is not positive gives the empty text. The
    length of the copies must be a word before the limit is asked. -/
def repeated (maxLength : Option Nat) (s : String) (count : Int32) : Except EvalError String :=
  if count.toInt ≤ 0 then .ok ""
  else
    let length := s.utf8ByteSize * count.toInt.toNat
    if wordBound ≤ length then
      .error (.limit (.textTooLong (maxLength.getD (wordBound - 1))))
    else do
      admits maxLength length
      allocate length
      return copies s count.toInt.toNat

/-- The two texts joined. The limit is asked about the sum of the lengths, or the
    largest word if that is less. -/
def joined (maxLength : Option Nat) (l r : String) : Except EvalError String := do
  let length := l.utf8ByteSize + r.utf8ByteSize
  admits maxLength (min length (wordBound - 1))
  allocate length
  return l ++ r

end Text

/-! ### Values -/

namespace Operator

/-- The operator on two values, unless they are left to the host: two numbers, a
    text and a 32-bit integer to repeat it, or two texts to join. -/
def combine? (maxLength : Option Nat) (op : Operator) (l r : Value) :
    Option (Except EvalError Value) :=
  match l.number?, r.number? with
  | some m, some n => some ((op.onNumbers m n).mapError .runtime)
  | _, _ =>
    match op, l, r with
    | mul, .text s, .scalar (.int32 count) => some ((Text.repeated maxLength s count).map .text)
    | add, .text s, .text t => some ((Text.joined maxLength s t).map .text)
    | _, _, _ => none

/-- The operator on one value. -/
def onValue (op : Operator) (v : Value) : Except EvalError Value :=
  if !op.isSign then .error (.runtime (.missingOperand op))
  else
    match v.number? with
    | some (.scalar p) => ((op.onScalar p).map .scalar).mapError .runtime
    | some (.decimal d) => .ok (.decimal (if op = sub then d.neg else d))
    | none => .error (.runtime (.unsupportedOperand op v.kind))

end Operator

end AdaptiveArith
