import AdaptiveArith.Environment.Basic

/-!
# Operator trees

An expression is a tree of operators over literals and references to variables.
Its nodes remember what they saw when they were evaluated: a reference the kind
of its last value, and an operator, in an `Observation`, the kind its operands
had in common. From this each node tells in which form compiled code would leave
its value (`Tree.form?`).

`Tree.isCompilable` asks whether the observations of all nodes fit together: the
operands of every operator would be left as the one kind the operator has
observed.
-/

namespace AdaptiveArith

/-- How compiled code leaves a value on the stack. -/
inductive Form
  /-- A bare scalar. -/
  | bare (kind : ScalarKind)
  /-- A value that was last seen to be of a kind and has to be unboxed. -/
  | boxed (kind : ScalarKind)
  deriving DecidableEq

namespace Form

/-- The kind of a form. -/
def kind : Form → ScalarKind
  | bare kind | boxed kind => kind

/-- The text of a form. -/
def text : Form → String
  | bare kind => kind.name
  | boxed kind => "boxed " ++ kind.name

instance : ToString Form := ⟨text⟩

end Form

/-- What an operator has observed of its operands. -/
inductive Observation
  /-- It has not combined any. -/
  | pending
  /-- It has, but they never had a scalar kind in common. -/
  | dynamic
  /-- They last had this scalar kind in common. -/
  | scalar (kind : ScalarKind)
  deriving DecidableEq

namespace Observation

/-- The scalar kind observed. -/
def kind? : Observation → Option ScalarKind
  | scalar kind => some kind
  | pending | dynamic => none

/-- The observation after another combination of operands, which had the given
    kind in common or none: a kind is kept until another one is observed. -/
def record (seen : Observation) : Option ScalarKind → Observation
  | some kind => scalar kind
  | none =>
    match seen with
    | scalar kind => scalar kind
    | pending | dynamic => dynamic

/-- The outline of an observation. -/
def outline : Observation → Text.Outline
  | pending => .word "Pending"
  | dynamic => .word "Dynamic"
  | scalar kind => .variant "Primitive" (.word kind.outlineName)

end Observation

/-- An expression with what its nodes remember. -/
inductive Tree
  /-- A constant. -/
  | literal (value : Value)
  /-- A variable, with the kind of the scalar it last had as its value. -/
  | reference (name : String) (lastKind : Option ScalarKind)
  /-- An operator on one operand. -/
  | unary (op : Operator) (seen : Observation) (operand : Tree)
  /-- An operator on two operands. -/
  | binary (op : Operator) (seen : Observation) (left right : Tree)

namespace Tree

/-! ### Building -/

/-- A reference to a variable, not evaluated yet. -/
def ofName (name : String) : Tree := .reference name none

/-- An operator on one operand, not evaluated yet. -/
def ofUnary (op : Operator) (operand : Tree) : Tree := .unary op .pending operand

/-- An operator on two operands, not evaluated yet. -/
def ofBinary (op : Operator) (left right : Tree) : Tree := .binary op .pending left right

/-! ### What a tree has observed -/

/-- The form in which compiled code would leave the value of the tree. -/
def form? : Tree → Option Form
  | literal value => value.scalarKind?.map .bare
  | reference _ lastKind => lastKind.map .boxed
  | unary _ seen _ | binary _ seen _ _ => seen.kind?.map .bare

/-- The tree would be left as a value of the given kind. -/
def leavesKind (t : Tree) (kind : ScalarKind) : Bool := t.form?.map Form.kind == some kind

/-- The kind the root operator would compute with, judged from what the operator
    and its operands have observed; leaves have none. -/
def operatingKind? : Tree → Option ScalarKind
  | literal _ | reference _ _ => none
  | unary op seen operand => do
    let kind ← seen.kind?
    if operand.leavesKind kind && op.isSign then some kind else none
  | binary _ seen left right => do
    let kind ← seen.kind?
    if left.leavesKind kind && right.leavesKind kind then some kind else none

/-- The tree can be compiled: every literal is a scalar, every variable was
    last one, and every operator has a kind to compute with. -/
def isCompilable : Tree → Bool
  | literal value => value.scalar?.isSome
  | reference _ lastKind => lastKind.isSome
  | t@(unary _ _ operand) => t.operatingKind?.isSome && operand.isCompilable
  | t@(binary _ _ left right) =>
    t.operatingKind?.isSome && left.isCompilable && right.isCompilable

/-! ### Texts -/

/-- The text of the tree. -/
def display : Tree → String
  | literal (.text s) => Text.quoted s
  | literal value => value.display
  | reference name _ => "#" ++ name
  | unary op _ operand => "(" ++ op.symbol ++ operand.display ++ ")"
  | binary op _ left right =>
    "(" ++ left.display ++ " " ++ op.symbol ++ " " ++ right.display ++ ")"

instance : ToString Tree := ⟨display⟩

/-- The outline of the tree, with what its nodes remember. -/
def outline : Tree → Text.Outline
  | literal value => .record "Literal" [("value", .word value.outlineText)]
  | reference name lastKind =>
    .record "VariableRef"
      [("name", .word (Text.quoted name)),
        ("last_kind", .ofOption (lastKind.map fun kind => .word kind.outlineName))]
  | unary op seen operand => operatorOutline op seen operand.outline none
  | binary op seen left right => operatorOutline op seen left.outline (some right.outline)
where
  /-- The outline of an operator. -/
  operatorOutline (op : Operator) (seen : Observation) (left : Text.Outline)
      (right : Option Text.Outline) : Text.Outline :=
    .record "OperatorNode"
      [("op", .word op.name), ("left", left), ("right", .ofOption right),
        ("observation", seen.outline)]

end Tree

end AdaptiveArith
