import AdaptiveArith.Operator
import AdaptiveArith.Value.Kind

/-!
# Errors of evaluation and compilation

An evaluation fails for one of three reasons:

* `RuntimeError`: the operands or the environment do not allow it, or the
  overloader of the environment refuses;
* `LimitError`: it would exceed a limit of the environment;
* `CodeError`: compiled code is malformed. Code compiled from a tree never is.

It panics instead of failing if it asks for more memory than a program can have.

Compilation fails if a tree has not been observed to compute with one scalar
kind, or if it has too many constants or names.
-/

namespace AdaptiveArith

/-- The operands or the environment do not allow an evaluation. -/
inductive RuntimeError
  /-- No rule combines the operands. -/
  | unsupportedOperands (op : Operator) (left right : ValueKind)
  /-- The operator has a form with one operand, but not for this one. -/
  | unsupportedOperand (op : Operator) (operand : ValueKind)
  /-- The operator has no form with one operand. -/
  | missingOperand (op : Operator)
  /-- An integer or decimal is divided by zero. -/
  | divisionByZero
  /-- A number has no decimal, or a power of ten is too large for one. -/
  | noDecimal (value : String)
  /-- A variable is not bound. -/
  | unbound (name : String)
  /-- Compiled code expects a variable of another kind. -/
  | otherKind (expected : ScalarKind) (found : ValueKind)
  /-- The refusal of an overloader. -/
  | refused (message : String)
  deriving DecidableEq

/-- A limit of the environment would be exceeded. -/
inductive LimitError
  /-- Operators are nested too deeply. -/
  | tooDeep (depth maxDepth : Nat)
  /-- A text would be too long. -/
  | textTooLong (maxLength : Nat)
  deriving DecidableEq

/-- Compiled code is malformed. -/
inductive CodeError
  /-- A byte that stands for no scalar kind. -/
  | unknownKind (byte : UInt8)
  /-- A byte that stands for no operator. -/
  | unknownOperator (byte : UInt8)
  /-- An instruction finds too few operands. -/
  | stackUnderflow
  /-- The stack would outgrow its declared size. -/
  | stackOverflow (maxSize : Nat)
  /-- An instruction finds an operand of another form or kind. -/
  | wrongOperand (instruction : String) (expected : ScalarKind)
  /-- A constant that is not in the table. -/
  | noConstant (index : UInt8)
  /-- A name that is not in the table. -/
  | noName (index : UInt8)
  /-- The code ends without returning. -/
  | unterminated
  /-- The code says to halt. -/
  | halted
  deriving DecidableEq

/-- Why an evaluation gives no value. -/
inductive EvalError
  | runtime (e : RuntimeError)
  | limit (e : LimitError)
  | code (e : CodeError)
  /-- This is no error that is returned: the program panics. -/
  | panic (message : String)
  deriving DecidableEq

/-- Why a compilation failed. -/
inductive CompileError
  /-- A part of the tree has not been observed to compute with one kind. -/
  | notCompilable (node : String)
  /-- More constants than a byte can number. -/
  | tooManyConstants
  /-- More names than a byte can number. -/
  | tooManyVariables
  deriving DecidableEq

/-! ### Messages -/

/-- The message of a runtime error. -/
def RuntimeError.message : RuntimeError → String
  | unsupportedOperands op left right =>
    "operator '" ++ op.symbol ++ "' is not supported between " ++ left.name ++ " and " ++ right.name
  | unsupportedOperand op operand =>
    "unary operator '" ++ op.symbol ++ "' is not supported for " ++ operand.name
  | missingOperand op => "operator '" ++ op.symbol ++ "' requires a right operand"
  | divisionByZero => "division by zero"
  | noDecimal value => "cannot convert " ++ value ++ " to a decimal"
  | unbound name => "variable '" ++ name ++ "' is not defined"
  | otherKind expected found => "cannot unbox " ++ found.name ++ " as " ++ expected.name
  | refused message => message

/-- The message of a limit error. -/
def LimitError.message : LimitError → String
  | tooDeep depth maxDepth =>
    "evaluation stack overflow: depth " ++ toString depth ++ " exceeds maximum of " ++
      toString maxDepth
  | textTooLong maxLength =>
    "text result would exceed the maximum length of " ++ toString maxLength ++ " bytes"

/-- A byte shown as the character with its number. -/
def byteText (byte : UInt8) : String := String.singleton (Char.ofNat byte.toNat)

/-- The message of a code error. -/
def CodeError.message : CodeError → String
  | unknownKind byte => "unrecognized exit descriptor '" ++ byteText byte ++ "'"
  | unknownOperator byte => "unrecognized operator byte '" ++ byteText byte ++ "'"
  | stackUnderflow => "operand stack underflow"
  | stackOverflow maxSize => "operand stack exceeds its declared size of " ++ toString maxSize
  | wrongOperand instruction expected =>
    instruction ++ " expected a " ++ expected.name ++ " operand"
  | noConstant index => "constant index " ++ toString index.toNat ++ " out of range"
  | noName index => "variable index " ++ toString index.toNat ++ " out of range"
  | unterminated => "execution ran past the last instruction"
  | halted => "execution halted"

/-- The message of an evaluation error. -/
def EvalError.message : EvalError → String
  | runtime e => e.message
  | limit e => e.message
  | code e => e.message
  | panic message => message

/-- The message of a compilation error. -/
def CompileError.message : CompileError → String
  | notCompilable node => "node " ++ node ++ " is not compilable"
  | tooManyConstants => "too many constants (limit: 256)"
  | tooManyVariables => "too many variables (limit: 256)"

instance : ToString RuntimeError := ⟨RuntimeError.message⟩
instance : ToString LimitError := ⟨LimitError.message⟩
instance : ToString CodeError := ⟨CodeError.message⟩
instance : ToString EvalError := ⟨EvalError.message⟩
instance : ToString CompileError := ⟨CompileError.message⟩

end AdaptiveArith
