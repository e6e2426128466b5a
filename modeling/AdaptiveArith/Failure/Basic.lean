import AdaptiveArith.Error

/-!
# Failures

What can go wrong with an expression, as its users see it. A failure has a stable
code, a message that says what kind of failure it is, the message of the error
behind it, and sometimes advice. A panic is not handed to the users as a failure:
it has its own message and nothing else.
-/

namespace AdaptiveArith

/-- A failure shown to users. -/
inductive Failure
  /-- A tree could not be compiled. -/
  | compilation (e : CompileError)
  /-- The operands or the environment do not allow the evaluation. -/
  | runtime (e : RuntimeError)
  /-- A limit would be exceeded. -/
  | limit (e : LimitError)
  /-- Compiled code is malformed. -/
  | code (e : CodeError)
  /-- The program panics. -/
  | panic (message : String)
  deriving DecidableEq

namespace Failure

/-- The failure of an evaluation. -/
def ofEvalError : EvalError → Failure
  | .runtime e => runtime e
  | .limit e => limit e
  | .code e => code e
  | .panic message => panic message

/-- The message of the error behind a failure. -/
def cause : Failure → String
  | compilation e => e.message
  | runtime e => e.message
  | limit e => e.message
  | code e => e.message
  | panic message => message

/-- The message of a failure. -/
def message (f : Failure) : String :=
  match f with
  | compilation _ => "compilation failed: " ++ f.cause
  | runtime _ => "runtime error: " ++ f.cause
  | limit _ => "resource limit exceeded: " ++ f.cause
  | code _ => "internal error: " ++ f.cause
  | panic _ => f.cause

instance : ToString Failure := ⟨message⟩

/-- The stable code of a failure; a panic has none. -/
def diagnosticCode : Failure → String
  | compilation _ => "spry::compilation"
  | runtime _ => "spry::runtime"
  | limit _ => "spry::resource_exceeded"
  | code _ => "spry::internal"
  | panic _ => ""

/-- What to do about a failure. -/
def help? : Failure → Option String
  | compilation _ => some "interpret the expression until its operand kinds are known"
  | limit _ => some "raise the limit in ExecutionOptions if this input is expected"
  | runtime _ | code _ | panic _ => none

end Failure

end AdaptiveArith
