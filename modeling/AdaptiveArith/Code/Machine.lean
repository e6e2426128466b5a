import AdaptiveArith.Code.Basic

/-!
# The stack machine

The machine executes the instructions of a code one after the other, each at
most once, on a stack of bare scalars and boxed values. It stops at the first
instruction that returns or fails; code that ends before is an error too.

The machine trusts no code. It checks every index, every byte, the form and the
kind of every operand, and the declared size of the stack, so that malformed
code fails with a `CodeError`. An instruction that fails changes nothing that
could be seen.
-/

namespace AdaptiveArith

/-- An entry of the stack. -/
inductive Slot
  /-- A bare scalar, ready for arithmetic. -/
  | bare (p : Scalar)
  /-- A value as the environment holds it. -/
  | boxed (v : Value)
  deriving DecidableEq

/-- The value in a slot. -/
def Slot.value : Slot → Value
  | bare p => .scalar p
  | boxed v => v

/-- What an instruction does: it leaves a stack, topmost slot first, or returns
    a value. -/
inductive Effect
  | next (stack : List Slot)
  | returned (v : Value)

namespace Code

variable (code : Code) (env : Environment)

/-- A slot is pushed, unless the stack is full. -/
def push (slot : Slot) (stack : List Slot) : Except EvalError (List Slot) :=
  if stack.length < code.maxStack then .ok (slot :: stack)
  else .error (.code (.stackOverflow code.maxStack))

/-- The topmost slot and the others. -/
def pop : List Slot → Except EvalError (Slot × List Slot)
  | [] => .error (.code .stackUnderflow)
  | slot :: rest => .ok (slot, rest)

/-- The topmost slot, which has to be a bare scalar of the given kind, and the
    others. -/
def popBare (mnemonic : String) (kind : ScalarKind) (stack : List Slot) :
    Except EvalError (Scalar × List Slot) := do
  match ← pop stack with
  | (.bare p, rest) =>
    if p.kind = kind then return (p, rest) else throw (.code (.wrongOperand mnemonic kind))
  | (.boxed _, _) => throw (.code (.wrongOperand mnemonic kind))

/-- The scalar of the given kind in a slot that has to be boxed. -/
def unboxed (kind : ScalarKind) : Slot → Except EvalError Scalar
  | .bare _ => .error (.code (.wrongOperand "Unbox" kind))
  | .boxed v =>
    match v.scalar? with
    | some p =>
      if p.kind = kind then .ok p else .error (.runtime (.otherKind kind v.kind))
    | none => .error (.runtime (.otherKind kind v.kind))

/-- A result has the declared form: a bare scalar of the kind, if one is
    declared. -/
def checkForm (slot : Slot) : Except EvalError Value :=
  match code.form? with
  | some (.bare kind) =>
    match slot with
    | .bare p =>
      if p.kind = kind then .ok (.scalar p)
      else .error (.code (.wrongOperand "Return" kind))
    | .boxed _ => .error (.code (.wrongOperand "Return" kind))
  | some (.boxed _) | none => .ok slot.value

/-- What an instruction does on a stack. -/
def step (i : Instruction) (stack : List Slot) : Except EvalError Effect :=
  match i with
  | .halt => .error (.code .halted)
  | .loadConstant index =>
    match code.constants[index.toNat]? with
    | none => .error (.code (.noConstant index))
    | some p => (code.push (.bare p) stack).map .next
  | .loadVariable index =>
    match code.variables[index.toNat]? with
    | none => .error (.code (.noName index))
    | some name =>
      match env.lookup name with
      | .error e => .error (.runtime e)
      | .ok v => (code.push (.boxed v) stack).map .next
  | .unbox byte =>
    match ScalarKind.ofByte? byte with
    | none => .error (.code (.unknownKind byte))
    | some kind => do
      let (slot, rest) ← pop stack
      let p ← unboxed kind slot
      return .next (← code.push (.bare p) rest)
  | .binary kind byte =>
    match Operator.ofByte? byte with
    | none => .error (.code (.unknownOperator byte))
    | some op => do
      let (r, rest) ← popBare i.mnemonic kind stack
      let (l, rest) ← popBare i.mnemonic kind rest
      match ScalarPair.ofSameKind? l r with
      | none => throw (.code (.wrongOperand i.mnemonic kind))
      | some pair =>
        let p ← (op.onPair pair).mapError .runtime
        return .next (← code.push (.bare p) rest)
  | .negate kind => do
    let (operand, rest) ← popBare i.mnemonic kind stack
    let p ← (Operator.sub.onScalar operand).mapError .runtime
    return .next (← code.push (.bare p) rest)
  | .ret => do
    let (slot, _) ← pop stack
    return .returned (← code.checkForm slot)

/-- The result of executing instructions on a stack. -/
def runFrom : List Instruction → List Slot → Except EvalError Value
  | [], _ => .error (.code .unterminated)
  | i :: rest, stack =>
    match code.step env i stack with
    | .error e => .error e
    | .ok (.returned v) => .ok v
    | .ok (.next stack) => runFrom rest stack

/-- The result of executing a code in an environment. -/
def execute : Except EvalError Value := code.runFrom env code.instructions.toList []

end Code

end AdaptiveArith
