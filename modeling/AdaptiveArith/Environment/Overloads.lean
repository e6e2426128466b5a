import AdaptiveArith.Environment.Basic

/-!
# Ready-made overloaders

Simple answers a host may give for operands the operators leave to it.
-/

namespace AdaptiveArith.Overloader

/-- Answers with the left operand. -/
def takeLeft : Overloader := fun _ l _ => .ok l

/-- Answers with the right operand. -/
def takeRight : Overloader := fun _ _ r => .ok r

/-- Answers with the text of the operation. -/
def spelledOut : Overloader := fun op l r => .ok (.text (l.display ++ op.symbol ++ r.display))

/-- Answers with one value. -/
def constant (v : Value) : Overloader := fun _ _ _ => .ok v

/-- Refuses with one error. -/
def failing (e : EvalError) : Overloader := fun _ _ _ => .error e

/-- A host object that holds a 64-bit integer. -/
def unitsObject (n : Int64) : Value := .host ⟨0, "i64", toString n.toInt⟩

/-- The 64-bit integer in a host object. -/
def units? (v : Value) : Option Int64 := ((v.host? "i64").bind String.toInt?).map Int64.ofInt

/-- Units of money, held in host objects as 64-bit integers: amounts are added,
    and an amount is multiplied by a 32-bit integer. -/
def money : Overloader := fun op l r =>
  match op, units? l, units? r, r with
  | .mul, some n, _, .scalar (.int32 factor) => .ok (unitsObject (n * factor.toInt64))
  | .add, some m, some n, _ => .ok (unitsObject (m + n))
  | _, _, _, _ => .error (.runtime (.refused ("no money rule for '" ++ op.symbol ++ "'")))

end AdaptiveArith.Overloader
