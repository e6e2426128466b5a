import AdaptiveArith.Proofs.Leaves
import AdaptiveArith.Proofs.StackTyping

/-!
# Code that meets the kind it expects

Compiled code and its tree can only part where the code meets a variable of another kind.
If the leaves of the tree are of the kind that the code computes with, then the code gives
the outcome of the tree and nothing else (`Tree.Lowered.execute_eq_outcome`): every value
that is computed on the way is a scalar of this kind, so that no unboxing fails.
-/

namespace AdaptiveArith

/-- The slot that holds a value in a form. -/
def Form.slot : Form → Value → Slot
  | bare _, .scalar p => .bare p
  | bare _, v | boxed _, v => .boxed v

theorem Form.slot_spec {form : Form} {v : Value} (h : v.scalarKind? = some form.kind) :
    (form.slot v).HasForm form ∧ (form.slot v).value = v := by
  obtain ⟨p, rfl, hp⟩ := Value.scalarKind?_eq_some.1 h
  cases form with
  | bare k => exact ⟨.of_kind hp, rfl⟩
  | boxed k => exact ⟨.boxed _ k, rfl⟩

namespace Tree

variable {t : Tree} {code : Code} {env : Environment} {form : Form} {is : List Instruction}
  {k : ScalarKind} {v : Value}

/-- What goes on with the outcome needs to be known for scalars of the kind only. -/
theorem bind_outcome_congr (ht : t.LeavesOfKind env k) {f g : Value → Except EvalError Value}
    (h : ∀ p : Scalar, p.kind = k → f (.scalar p) = g (.scalar p)) :
    (t.outcome env).bind f = (t.outcome env).bind g := by
  cases houtcome : t.outcome env with
  | error e => rfl
  | ok v =>
    obtain ⟨p, rfl, hp⟩ := Value.scalarKind?_eq_some.1 (scalarKind?_of_outcome ht houtcome)
    exact h p hp

theorem bind_outcome_assoc (ht : t.LeavesOfKind env k) {f g next : Value → Except EvalError Value}
    (h : ∀ p : Scalar, p.kind = k → f (.scalar p) = (next (.scalar p)).bind g) :
    (t.outcome env).bind f = ((t.outcome env).bind next).bind g :=
  (bind_outcome_congr ht h).trans (bind_assoc (m := Except EvalError) _ _ _).symm

/-- The code of a tree whose leaves are of the kind it expects computes the outcome of the
    tree, on any stack with enough room and whatever comes after it. -/
theorem Lowers.runFrom_eq (h : t.Lowers code.tables form is) (ht : t.LeavesOfKind env form.kind)
    {stack : List Slot} (rest : List Instruction)
    (hroom : stack.length + t.need ≤ code.maxStack) :
    code.runFrom env (is ++ rest) stack =
      (t.outcome env).bind fun v => code.runFrom env rest (form.slot v :: stack) := by
  induction h generalizing stack rest with
  | @literal p i hi =>
    rw [List.singleton_append, Code.runFrom_of_next (Code.step_loadConstant hi hroom)]
    rfl
  | @reference name k i hi =>
    have hstep : code.step env (.loadVariable i) stack = _ := Code.step_loadVariable hi hroom
    rw [List.singleton_append, outcome]
    cases hlookup : env.lookup name with
    | ok v =>
      rw [hlookup] at hstep
      exact Code.runFrom_of_next hstep
    | error e =>
      rw [hlookup] at hstep
      exact Code.runFrom_of_error hstep
  | @unboxed t k is _ ih =>
    have hlt : stack.length < code.maxStack :=
      Nat.lt_of_lt_of_le (Nat.lt_add_of_pos_right t.need_pos) hroom
    rw [List.append_assoc, ih ht _ hroom]
    refine bind_outcome_congr ht fun p hp => ?_
    have hstep : code.step env (.unbox k.byte) (.boxed (.scalar p) :: stack) = _ :=
      Code.step_unbox _ hlt
    rw [Code.unboxed, Value.scalar?] at hstep
    simp only [if_pos (show p.kind = k from hp)] at hstep
    exact Code.runFrom_of_next hstep
  | @plus operand k is _ ih =>
    have ht : operand.LeavesOfKind env k := ht
    rw [ih ht _ hroom, outcome]
    refine bind_outcome_assoc ht fun p _ => ?_
    rfl
  | @minus operand k is _ ih =>
    have ht : operand.LeavesOfKind env k := ht
    have hlt : stack.length < code.maxStack :=
      Nat.lt_of_lt_of_le (Nat.lt_add_of_pos_right operand.need_pos) hroom
    rw [List.append_assoc, ih ht _ hroom, outcome]
    refine bind_outcome_assoc ht fun p hp => ?_
    exact Code.runFrom_of_next (Code.step_negate hp hlt)
  | @binary op left right k ls rs _ _ ihl ihr =>
    obtain ⟨htl, htr⟩ := leavesOfKind_binary.1 ht
    rw [need] at hroom
    have hlt : stack.length < code.maxStack := by omega
    rw [List.append_assoc, List.append_assoc, ihl htl _ (by omega), outcome]
    -- The left operand stays on the stack while the code of the right one runs.
    refine bind_outcome_assoc htl fun p hp => ?_
    rw [ihr htr _ (by rw [List.length_cons]; omega)]
    refine bind_outcome_assoc htr fun q hq => ?_
    have hstep : code.step env (.binary k op.byte) (.bare q :: .bare p :: stack) = _ :=
      Code.step_binary op hp hq hlt
    change _ = Except.bind (((op.onPair (.widen p q)).map Value.scalar).mapError EvalError.runtime) _
    rcases op.onPair_spec (.widen p q) with ⟨r, hr, _⟩ | hzero
    · rw [hr] at hstep ⊢
      exact Code.runFrom_of_next hstep
    · rw [hzero] at hstep ⊢
      exact Code.runFrom_of_error hstep

/-- Compiled code gives the outcome of its tree if the leaves are of the kind it expects. -/
theorem Lowered.execute_eq_outcome (h : t.Lowered code form is)
    (ht : t.LeavesOfKind env form.kind) : code.execute env = t.outcome env := by
  rw [Code.execute, h.instructions, h.lowers.runFrom_eq ht _ (by simp [h.maxStack])]
  cases houtcome : t.outcome env with
  | error e => rfl
  | ok v =>
    obtain ⟨hslot, hvalue⟩ := Form.slot_spec (scalarKind?_of_outcome ht houtcome)
    change code.runFrom env [.ret] [form.slot v] = .ok v
    rw [Code.runFrom, Code.step_ret_of_hasForm h.form hslot, hvalue]

end Tree

end AdaptiveArith
