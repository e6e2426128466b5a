import AdaptiveArith.Tree.Basic

/-!
# Evaluation

`Tree.evaluate` evaluates a tree in an environment: the operands of an operator
from left to right, and then their combination. An operator is entered before
its operands are evaluated, which fails at the limit on nesting, and left again
whatever happens.

An evaluation changes what the nodes remember. A reference remembers the kind of
its value. An operator records what its operands have in common as soon as they
all have values, also if their combination fails then.

A panic ends an evaluation as an error does. The program does not return from it, so
the tree and the environment that are given with a panic have no meaning.
-/

namespace AdaptiveArith

/-- The outcome of an evaluation. -/
structure Evaluation where
  /-- The value, or the error. -/
  result : Except EvalError Value
  /-- The tree with what its nodes remember now. -/
  tree : Tree
  /-- The environment afterwards. -/
  env : Environment

namespace Operator

/-- The kind an operator observes of one operand: that of the operand, if the
    operator applies to one operand at all. -/
def unaryKind? (op : Operator) (v : Value) : Option ScalarKind :=
  if op.isSign then v.scalarKind? else none

end Operator

/-- The kind an operator observes of two operands: the scalar kind both have. -/
def Value.commonKind? (l r : Value) : Option ScalarKind :=
  match l.scalarKind?, r.scalarKind? with
  | some k, some m => if k = m then some k else none
  | _, _ => none

namespace Tree

/-- The evaluation of a tree in an environment. -/
def evaluate : Tree → Environment → Evaluation
  | literal value, env => ⟨.ok value, literal value, env.visit⟩
  | reference name lastKind, env =>
    match env.lookup name with
    | .ok value => ⟨.ok value, reference name value.scalarKind?, env.visit⟩
    | .error e => ⟨.error (.runtime e), reference name lastKind, env.visit⟩
  | unary op seen operand, env =>
    match env.visit.enter with
    | .error e => ⟨.error e, unary op seen operand, env.visit⟩
    | .ok inside =>
      let inner := operand.evaluate inside
      match inner.result with
      | .error e => ⟨.error e, unary op seen inner.tree, inner.env.leave⟩
      | .ok v => ⟨op.onValue v, unary op (seen.record (op.unaryKind? v)) inner.tree, inner.env.leave⟩
  | binary op seen left right, env =>
    match env.visit.enter with
    | .error e => ⟨.error e, binary op seen left right, env.visit⟩
    | .ok inside =>
      let first := left.evaluate inside
      match first.result with
      | .error e => ⟨.error e, binary op seen first.tree right, first.env.leave⟩
      | .ok l =>
        let second := right.evaluate first.env
        match second.result with
        | .error e => ⟨.error e, binary op seen first.tree second.tree, second.env.leave⟩
        | .ok r =>
          let (result, combined) := second.env.combine op l r
          ⟨result, binary op (seen.record (l.commonKind? r)) first.tree second.tree, combined.leave⟩

end Tree

end AdaptiveArith
