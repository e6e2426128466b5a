import AdaptiveArith.Proofs.Evaluation
import AdaptiveArith.Proofs.Lowering

/-!
# Evaluating a tree again

What the nodes of a tree remember from earlier evaluations plays no part in the result of
another one: two trees that were built alike have the same result in every environment. And
an evaluation leaves the nodes as they would be after any number of evaluations of the tree in
its environment, whether it ends with a value or with an error: what a node records once, it
records a second time without a change (`Observation.record_record`), and an evaluation that
is repeated stops at the same node (`Tree.Evaluates.repeated`).

`Tree.evaluate_again` puts both together.
-/

namespace AdaptiveArith

/-- To observe the same operands again changes nothing. -/
theorem Observation.record_record (seen : Observation) (kind? : Option ScalarKind) :
    (seen.record kind?).record kind? = seen.record kind? := by
  cases kind? with
  | some k => rfl
  | none => cases seen <;> rfl

namespace Tree

variable {t t' : Tree} {env env' : Environment} {result : Except EvalError Value}

/-- The tree that an evaluation leaves goes through the same evaluation, which leaves it as
    it is. -/
theorem Evaluates.repeated (h : t.Evaluates env result t' env') :
    t'.Evaluates env result t' env' := by
  induction h with
  | literal v env => exact .literal v env
  | bound _ h => exact .bound _ h
  | unbound lastKind h => exact .unbound lastKind h
  | unaryTooDeep op seen operand h => exact .unaryTooDeep op seen operand h
  | operandFails op seen hdepth _ ih => exact .operandFails op seen hdepth ih
  | @unary _ _ _ _ v op seen hdepth _ ih =>
    have hunary := Evaluates.unary op (seen.record (op.unaryKind? v)) hdepth ih
    rwa [Observation.record_record] at hunary
  | binaryTooDeep op seen left right h => exact .binaryTooDeep op seen left right h
  | leftFails op seen right hdepth _ ih => exact .leftFails op seen right hdepth ih
  | rightFails op seen hdepth _ _ ihl ihr => exact .rightFails op seen hdepth ihl ihr
  | @binary _ _ _ _ _ _ _ l r op seen hdepth _ _ ihl ihr =>
    have hbinary := Evaluates.binary op (seen.record (l.commonKind? r)) hdepth ihl ihr
    rwa [Observation.record_record] at hbinary

/-- Trees that were built alike are evaluated to the same result. -/
theorem result_evaluate_eq_of_fresh_eq {u : Tree} (h : u.fresh = t.fresh) (env : Environment) :
    (u.evaluate env).result = (t.evaluate env).result := by
  have hsame : env.SameButJournal env := ⟨⟨rfl, rfl, rfl⟩, rfl⟩
  rw [← u.result_evaluate_fresh hsame, h, t.result_evaluate_fresh hsame]

/-- Whatever the nodes of a tree remember, an evaluation has the result of any tree that was
    built alike, and a second evaluation in the environment that it leaves has this result
    again and changes nothing that the nodes remember. -/
theorem evaluate_again (t : Tree) (env : Environment) :
    let first := t.evaluate env
    let second := first.tree.evaluate first.env
    (∀ u : Tree, u.fresh = t.fresh → (u.evaluate env).result = first.result) ∧
      second.result = first.result ∧ second.tree = first.tree := by
  intro first second
  obtain ⟨after, hrepeated⟩ := (t.evaluates env).repeated.of_sameButJournal (t.evaluate_env env)
  have hsecond : second = ⟨first.result, first.tree, after⟩ := hrepeated.evaluate_eq
  refine ⟨fun u hu => result_evaluate_eq_of_fresh_eq hu env, ?_, ?_⟩
  · rw [hsecond]
  · rw [hsecond]

/-- A product that has observed 32-bit integers meets a text. The tree that was built alike
    has observed nothing, and remembers something else afterwards, but has the same result. -/
theorem evaluate_again_tripled :
    let env : Environment := .set {} "x" (.text "ab")
    let first := tripled.evaluate env
    let second := first.tree.evaluate first.env
    first.result = .ok (.text "ababab") ∧ (tripled.fresh.evaluate env).result = first.result ∧
      (tripled.fresh.evaluate env).tree ≠ first.tree ∧
      second.result = first.result ∧ second.tree = first.tree := by
  intro env first second
  have hfirst : first.tree = .binary .mul (.scalar .int32) (.reference "x" none)
    (.literal (.scalar (.int32 3))) := by cbv
  have hfresh : (tripled.fresh.evaluate env).tree = .binary .mul .dynamic (.reference "x" none)
    (.literal (.scalar (.int32 3))) := by cbv
  obtain ⟨halike, hsecond⟩ := evaluate_again tripled env
  refine ⟨by cbv, halike tripled.fresh rfl, ?_, hsecond⟩
  rw [hfirst, hfresh]
  exact fun h => by cases h

end Tree

end AdaptiveArith
