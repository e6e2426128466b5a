import AdaptiveArith.Combine
import AdaptiveArith.Text.Outline

/-!
# Environments

What evaluation needs besides the expression: the bindings of the variables, the
overloader that decides about operands the operators leave to the host, and the
limits on nesting and on the length of texts.

An environment also counts how deeply operators are nested at the moment
(`enter` and `leave`), and keeps a journal of what happens in it: the nodes
visited, the operators left, and the questions put to the overloader.
-/

namespace AdaptiveArith

/-! ### Bindings -/

/-- The values of variables, in the order in which they were first bound. -/
structure Bindings where
  /-- The names and their values; no name occurs twice. -/
  entries : List (String × Value)

namespace Bindings

/-- No variable is bound. -/
def empty : Bindings := ⟨[]⟩

/-- The value of a variable. -/
def get? (b : Bindings) (name : String) : Option Value := b.entries.lookup name

/-- The entries with a variable bound to a value: in place if it is bound
    already, and at the end otherwise. -/
def insertEntry (name : String) (v : Value) : List (String × Value) → List (String × Value)
  | [] => [(name, v)]
  | (other, w) :: rest =>
    if name = other then (name, v) :: rest else (other, w) :: insertEntry name v rest

/-- The bindings with a variable bound to a value. -/
def insert (b : Bindings) (name : String) (v : Value) : Bindings := ⟨insertEntry name v b.entries⟩

end Bindings

/-! ### Overloaders and limits -/

/-- Decides what an operator does with operands it does not combine itself. -/
abbrev Overloader := Operator → Value → Value → Except EvalError Value

/-- The overloader that refuses all operands. -/
def Overloader.standard : Overloader := fun op l r =>
  .error (.runtime (.unsupportedOperands op l.kind r.kind))

/-- The limits of an environment. -/
structure Limits where
  /-- How deeply operators may be nested. -/
  maxDepth : Nat := 1000
  /-- How long a text made by an operator may be, in bytes. -/
  maxTextLength : Option Nat := none
  deriving DecidableEq

/-- The outline of the limits. -/
def Limits.outline (limits : Limits) : Text.Outline :=
  .record "ExecutionOptions"
    [("max_depth", .word (toString limits.maxDepth)),
      ("max_text_length", .ofOption (limits.maxTextLength.map fun n => .word (toString n)))]

/-- Something that happens during an evaluation. -/
inductive Event
  /-- The evaluation of a node begins, at a depth. -/
  | visited (depth : Nat)
  /-- The evaluation of an operator ends, at a depth. -/
  | left (depth : Nat)
  /-- The overloader is asked about two operands. -/
  | consulted (op : Operator) (left right : ValueKind)
  deriving DecidableEq

/-! ### Environments -/

/-- What expressions are evaluated in. -/
structure Environment where
  /-- The bindings of the variables. -/
  «variables» : Bindings := .empty
  /-- Decides about operands the operators leave to the host. -/
  overloader : Overloader := .standard
  /-- The limits. -/
  limits : Limits := {}
  /-- How deeply operators are nested at the moment. -/
  depth : Nat := 0
  /-- What has happened, the latest first. -/
  journal : List Event := []

namespace Environment

variable (env : Environment)

/-- The environment with a variable bound to a value. -/
def set (name : String) (v : Value) : Environment :=
  { env with «variables» := env.variables.insert name v }

/-- The value of a variable. -/
def get? (name : String) : Option Value := env.variables.get? name

/-- The value of a variable, or the error that it is not bound. -/
def lookup (name : String) : Except RuntimeError Value :=
  match env.get? name with
  | some v => .ok v
  | none => .error (.unbound name)

/-- The environment with an event added to the journal. -/
def note (event : Event) : Environment := { env with journal := event :: env.journal }

/-- The evaluation of a node begins. -/
def visit : Environment := env.note (.visited env.depth)

/-- One level of operators more, unless the limit is reached. -/
def enter : Except EvalError Environment :=
  if env.limits.maxDepth ≤ env.depth then
    .error (.limit (.tooDeep env.depth env.limits.maxDepth))
  else .ok { env with depth := env.depth + 1 }

/-- One level of operators less. -/
def leave : Environment :=
  let noted := env.note (.left env.depth)
  { noted with depth := env.depth - 1 }

/-- The answer of the overloader about two operands. -/
def consult (op : Operator) (l r : Value) : Except EvalError Value × Environment :=
  (env.overloader op l r, env.note (.consulted op l.kind r.kind))

/-- The operator on two values; the overloader is asked about operands the
    operator does not combine itself. -/
def combine (op : Operator) (l r : Value) : Except EvalError Value × Environment :=
  match op.combine? env.limits.maxTextLength l r with
  | some result => (result, env)
  | none => env.consult op l r

/-! ### Texts -/

/-- The outline of an environment. -/
def outline : Text.Outline :=
  .partialRecord "Environment"
    [("variables", .table (env.variables.entries.map fun (name, v) =>
        (Text.quoted name, .word v.outlineText))),
      ("options", env.limits.outline),
      ("depth", .word (toString env.depth))]

end Environment

end AdaptiveArith
