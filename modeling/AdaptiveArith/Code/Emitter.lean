import AdaptiveArith.Code.Basic

/-!
# Emitting instructions

An `Emitter` collects the instructions of a code together with its tables. A
constant or a name that is in its table already is not entered again; constants
are told apart by kind and bits. A table has at most `tableLimit` entries, the
number of indices a byte can hold, and an emitter that refuses an entry stays as
it was.

The emitter follows the height of the stack the instructions would have, so that
the code can declare the greatest height. Beside it, `Forms` says in which form
each value on that stack is left, so that an operator knows which of its
operands it has to unbox.
-/

namespace AdaptiveArith

/-- The forms of the values that emitted code has left on the stack. -/
structure Forms where
  /-- The forms as a list, that of the topmost value first. -/
  toList : List Form := []
  deriving DecidableEq

namespace Forms

variable (forms : Forms)

/-- A value is left in the given form. -/
def push (form : Form) : Forms := ⟨form :: forms.toList⟩

/-- The form of the topmost value. -/
def last? : Option Form := forms.toList.head?

/-- The topmost value is taken. -/
def pop : Forms := ⟨forms.toList.tail⟩

/-- The number of values. -/
def size : Nat := forms.toList.length

/-- There is no value. -/
def isEmpty : Bool := forms.toList.isEmpty

end Forms

/-- Code in the making. -/
structure Emitter where
  /-- The constants so far. -/
  constants : Array Scalar := #[]
  /-- The names so far. -/
  «variables» : Array String := #[]
  /-- The instructions so far. -/
  instructions : Array Instruction := #[]
  /-- The forms of the values on the stack. -/
  forms : Forms := {}
  /-- The height of the stack. -/
  depth : Nat := 0
  /-- The greatest height of the stack so far. -/
  maxDepth : Nat := 0
  deriving DecidableEq

namespace Emitter

/-- The number of entries a table can have. -/
def tableLimit : Nat := 256

variable (e : Emitter)

/-! ### The height of the stack -/

/-- The stack is one higher. -/
def raise : Emitter :=
  { e with depth := e.depth + 1, maxDepth := max e.maxDepth (e.depth + 1) }

/-- The stack is lower by a number of slots. -/
def lower (slots : Nat) : Emitter := { e with depth := e.depth - slots }

/-! ### Instructions -/

/-- One more instruction. -/
def add (i : Instruction) : Emitter := { e with instructions := e.instructions.push i }

/-- The index of a constant, and the constants with it. -/
def constantIndex (p : Scalar) : Except CompileError (UInt8 × Array Scalar) :=
  match e.constants.findIdx? (fun q => q.key == p.key) with
  | some i => .ok (.ofNat i, e.constants)
  | none =>
    if e.constants.size < tableLimit then .ok (.ofNat e.constants.size, e.constants.push p)
    else .error .tooManyConstants

/-- The index of a name, and the names with it. -/
def variableIndex (name : String) : Except CompileError (UInt8 × Array String) :=
  match e.variables.findIdx? (· == name) with
  | some i => .ok (.ofNat i, e.variables)
  | none =>
    if e.variables.size < tableLimit then .ok (.ofNat e.variables.size, e.variables.push name)
    else .error .tooManyVariables

/-- A constant is loaded. -/
def loadConstant (p : Scalar) : Except CompileError Emitter :=
  (e.constantIndex p).map fun (i, constants) =>
    (({ e with constants } : Emitter).add (.loadConstant i)).raise

/-- A variable is loaded. -/
def loadVariable (name : String) : Except CompileError Emitter :=
  (e.variableIndex name).map fun (i, names) =>
    (({ e with «variables» := names } : Emitter).add (.loadVariable i)).raise

/-- The topmost value is unboxed. -/
def unbox (kind : ScalarKind) : Emitter := e.add (.unbox kind.byte)

/-- The two topmost values are combined. -/
def binary (op : Operator) (kind : ScalarKind) : Emitter :=
  ((e.add (.binary kind op.byte)).lower 2).raise

/-- The topmost value is negated. -/
def negate (kind : ScalarKind) : Emitter := e.add (.negate kind)

/-- The topmost value is returned. -/
def ret : Emitter := (e.add .ret).lower 1

/-! ### Forms of values -/

/-- The value on top is left in the given form. -/
def pushForm (form : Form) : Emitter := { e with forms := e.forms.push form }

/-- The form of the value on top is taken. -/
def popForm : Emitter := { e with forms := e.forms.pop }

/-! ### The code -/

/-- The code of the instructions so far. -/
def toCode : Code where
  constants := e.constants
  «variables» := e.variables
  instructions := e.instructions
  maxStack := e.maxDepth
  form? := e.forms.last?

end Emitter

end AdaptiveArith
