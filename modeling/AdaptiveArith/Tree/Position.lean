import AdaptiveArith.Tree.Basic

/-!
# Positions in a tree

The nodes of a tree are numbered from the root on, each node before its operands
and the left operand before the right one. An evaluation visits nodes in this
order, until it ends or fails.
-/

namespace AdaptiveArith.Tree

/-- The subtrees in the order of their numbers. -/
def subtrees : Tree → List Tree
  | t@(literal _) | t@(reference _ _) => [t]
  | t@(unary _ _ operand) => t :: operand.subtrees
  | t@(binary _ _ left right) => t :: (left.subtrees ++ right.subtrees)

/-- The number of nodes. -/
def size : Tree → Nat
  | literal _ | reference _ _ => 1
  | unary _ _ operand => operand.size + 1
  | binary _ _ left right => left.size + right.size + 1

/-- The subtree with a number. -/
def subtree? : Tree → Nat → Option Tree
  | t, 0 => some t
  | literal _, _ + 1 | reference _ _, _ + 1 => none
  | unary _ _ operand, i + 1 => operand.subtree? i
  | binary _ _ left right, i + 1 =>
    if i < left.size then left.subtree? i else right.subtree? (i - left.size)

/-- The tree with another subtree in place of the one with a number. -/
def replace : Tree → Nat → Tree → Tree
  | _, 0, new => new
  | t@(literal _), _ + 1, _ | t@(reference _ _), _ + 1, _ => t
  | unary op seen operand, i + 1, new => unary op seen (operand.replace i new)
  | binary op seen left right, i + 1, new =>
    if i < left.size then binary op seen (left.replace i new) right
    else binary op seen left (right.replace (i - left.size) new)

end AdaptiveArith.Tree
