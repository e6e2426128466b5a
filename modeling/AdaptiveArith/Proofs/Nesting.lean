import AdaptiveArith.Proofs.Evaluation

/-!
# The limit on nesting cuts by height

An operator is entered before its operands, and a value is only given after all operators of
the tree have been entered (`Tree.Evaluates.height_le`). So the limit on nesting admits a value
exactly if it admits the height of the tree, however the operators are spread over it, and
apart from that it does not matter (`Tree.outcome_withMaxDepth`). An evaluation that the limit
cuts off may still have failed before it came to the limit, with the error that it would have
failed with without the limit.

`Tree.result_evaluate_eq_ok_iff_height` compares an evaluation with one whose limit the tree
cannot reach.
-/

namespace AdaptiveArith

namespace Environment

/-- The environment with another limit on nesting. -/
def withMaxDepth (env : Environment) (n : Nat) : Environment :=
  { env with limits := { env.limits with maxDepth := n } }

/-- Operands are combined alike under all limits on nesting. -/
theorem combine_withMaxDepth (env : Environment) (n : Nat) (op : Operator) (l r : Value) :
    ((env.withMaxDepth n).combine op l r).1 = (env.combine op l r).1 := by
  have hcombine : op.combine? (env.withMaxDepth n).limits.maxTextLength l r =
      op.combine? env.limits.maxTextLength l r := rfl
  rw [combine, combine, hcombine]
  cases op.combine? env.limits.maxTextLength l r <;> rfl

end Environment

namespace Tree

variable {t t' : Tree} {env env' : Environment} {result : Except EvalError Value} {v : Value}

/-- The limit on nesting plays no part in the outcome. -/
theorem outcome_withMaxDepth (t : Tree) (env : Environment) (n : Nat) :
    t.outcome (env.withMaxDepth n) = t.outcome env := by
  induction t with
  | literal | reference => rfl
  | unary op _ operand ih => rw [outcome, outcome, ih]
  | binary op _ left right ihl ihr =>
    simp only [outcome, ihl, ihr, Environment.combine_withMaxDepth]

/-- A limit that the operators cannot reach lets the tree come to its outcome. -/
theorem result_evaluate_withMaxDepth {n : Nat} (h : env.depth + t.height ≤ n) :
    (t.evaluate (env.withMaxDepth n)).result = t.outcome env := by
  rw [evaluate_result_of_height_le h, outcome_withMaxDepth]

/-- An evaluation that gives a value has entered all operators. -/
theorem Evaluates.height_le (h : t.Evaluates env result t' env') (hresult : result = .ok v)
    (hdepth : env.depth ≤ env.limits.maxDepth) :
    env.depth + t.height ≤ env.limits.maxDepth := by
  induction h generalizing v with
  | literal | bound => exact hdepth
  | unbound | unaryTooDeep | operandFails | binaryTooDeep | leftFails | rightFails => cases hresult
  | @unary operand _ env _ _ op seen hlt _ ih =>
    have hoperand : env.depth + 1 + operand.height ≤ env.limits.maxDepth := ih rfl hlt
    rw [height]
    omega
  | @binary left _ right _ env env' _ _ _ op seen hlt hl _ ihl ihr =>
    have hsame := hl.sameButJournal
    -- Both operands start one level below the operator.
    rw [hsame.depth, hsame.limits] at ihr
    have hleft : env.depth + 1 + left.height ≤ env.limits.maxDepth := ihl rfl hlt
    have hright : env.depth + 1 + right.height ≤ env.limits.maxDepth := ihr rfl hlt
    rw [height]
    omega

/-- Under a limit on nesting, a tree has a value exactly if the limit admits its height and it
    has this value under a limit that it cannot reach. An error is that of the limit, or the
    one that the tree has under a limit that it cannot reach. -/
theorem result_evaluate_eq_ok_iff_height (t : Tree) (hdepth : env.depth ≤ env.limits.maxDepth)
    {n : Nat} (hn : env.depth + t.height ≤ n) :
    (∀ v, (t.evaluate env).result = .ok v ↔
      env.depth + t.height ≤ env.limits.maxDepth ∧
        (t.evaluate (env.withMaxDepth n)).result = .ok v) ∧
    ∀ e, (t.evaluate env).result = .error e →
      (∃ depth maxDepth, e = .limit (.tooDeep depth maxDepth)) ∨
        (t.evaluate (env.withMaxDepth n)).result = .error e := by
  have hresult := (t.evaluates env).result_eq
  rw [result_evaluate_withMaxDepth hn]
  refine ⟨fun v => ⟨fun hv => ?_, fun ⟨hheight, hv⟩ => ?_⟩, fun e he => ?_⟩
  · have hheight := (t.evaluates env).height_le hv hdepth
    exact ⟨hheight, (evaluate_result_of_height_le hheight).symm.trans hv⟩
  · rw [evaluate_result_of_height_le hheight, hv]
  · rcases hresult with houtcome | ⟨_, depth, maxDepth, hdeep⟩
    · exact .inr (houtcome.symm.trans he)
    · exact .inl ⟨depth, maxDepth, Except.error.inj (he.symm.trans hdeep)⟩

/-- The right operand is nested more deeply than the left one. Three levels of operators below
    the one at hand are admitted by the limit four, and not by the limit three. -/
theorem result_evaluate_eq_ok_iff_height_boundary :
    let t := ofBinary .add (ofUnary .sub (.literal (.scalar (.int32 2))))
      (ofUnary .sub (ofUnary .sub (.literal (.scalar (.int32 3)))))
    let env : Environment := { limits := { maxDepth := 4 }, depth := 1 }
    env.depth ≤ env.limits.maxDepth ∧ t.height = 3 ∧
      (t.evaluate env).result = .ok (.scalar (.int32 1)) ∧
      (t.evaluate (env.withMaxDepth 1000)).result = .ok (.scalar (.int32 1)) ∧
      ∀ v, (t.evaluate (env.withMaxDepth 3)).result ≠ .ok v := by
  intro t env
  have hvalue : (t.evaluate (env.withMaxDepth 1000)).result = .ok (.scalar (.int32 1)) := by cbv
  have hunreached : env.depth + t.height ≤ 1000 := by decide
  have hdepth : env.depth ≤ env.limits.maxDepth := by decide
  have hdepthCut : env.depth ≤ (env.withMaxDepth 3).limits.maxDepth := by decide
  obtain ⟨hfits, _⟩ := result_evaluate_eq_ok_iff_height t hdepth hunreached
  obtain ⟨hcut, _⟩ :=
    @result_evaluate_eq_ok_iff_height (env.withMaxDepth 3) t hdepthCut 1000 hunreached
  refine ⟨by decide, by decide, (hfits _).2 ⟨by decide, hvalue⟩, hvalue, fun v hv => ?_⟩
  exact absurd ((hcut v).1 hv).1 (by decide)

end Tree

end AdaptiveArith
