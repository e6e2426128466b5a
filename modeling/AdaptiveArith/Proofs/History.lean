import AdaptiveArith.Proofs.Evaluation
import AdaptiveArith.Tree.Position

/-!
# What operators have observed

The observation of an operator tells a history. In an evaluation of the tree, the
operator *combines* its operands if all of them have values (`Tree.operands?`); it does
not if the evaluation ends before, because an operand fails, because the limit on
nesting forbids the operator, or because something else has failed that the evaluation
comes to first. Whether the combination itself gives a value is not asked.

* `Tree.operatorAt?_evaluate`: one evaluation changes what an operator has observed by
  the operands that it combines, and not at all if it combines none;
* `Observation.Records`: an observation says whether there have been combinations, and
  what kind the operands of the latest one had that had a kind in common;
* `Tree.records_evaluateAll`: this is what the observations of a tree say that has been
  evaluated any number of times since it was built, in any environments.
-/

namespace AdaptiveArith

/-- The scalar kind that all operands of an operator have in common; a single operand
    counts only if the operator has a form with one operand. -/
def Operator.sharedKind? (op : Operator) : List Value → Option ScalarKind
  | [v] => if op.isSign then v.scalarKind? else none
  | [l, r] => if l.scalarKind? = r.scalarKind? then l.scalarKind? else none
  | _ => none

theorem Operator.sharedKind?_pair (op : Operator) (l r : Value) :
    op.sharedKind? [l, r] = l.commonKind? r := by
  rw [sharedKind?, Value.commonKind?]
  cases l.scalarKind? with
  | none => simp
  | some k =>
    cases r.scalarKind? with
    | none => simp
    | some m => simp

/-! ### Observations and histories -/

namespace Observation

/-- The observation of an operator that has combined the given operands, one list for
    each combination, the latest last. -/
structure Records (seen : Observation) (op : Operator) (history : List (List Value)) : Prop where
  pending : seen = .pending ↔ history = []
  scalar : ∀ k, seen = .scalar k ↔ (history.filterMap op.sharedKind?).getLast? = some k
  dynamic : seen = .dynamic ↔ history ≠ [] ∧ history.filterMap op.sharedKind? = []

variable {seen : Observation} {op : Operator} {history : List (List Value)}

theorem records_pending (op : Operator) : pending.Records op [] := by
  constructor <;> simp

/-- Another combination is recorded. -/
theorem Records.record (h : seen.Records op history) (operands : List Value) :
    (seen.record (op.sharedKind? operands)).Records op (history ++ [operands]) := by
  cases hkind : op.sharedKind? operands with
  | some k =>
    have hkinds : (history ++ [operands]).filterMap op.sharedKind? =
        history.filterMap op.sharedKind? ++ [k] := by simp [hkind]
    constructor <;> simp [Observation.record, hkinds]
  | none =>
    -- The kinds in common so far remain, and one of them is the latest, if there are any.
    have hkinds : (history ++ [operands]).filterMap op.sharedKind? =
        history.filterMap op.sharedKind? := by simp [hkind]
    constructor
    · cases seen <;> simp [Observation.record]
    · intro k
      rw [hkinds, ← h.scalar]
      cases seen <;> simp [Observation.record]
    · rw [hkinds]
      cases seen with
      | scalar k => simp [Observation.record, ← List.getLast?_eq_none_iff, (h.scalar k).1 rfl]
      | dynamic => simp [Observation.record, (h.dynamic.1 rfl).2]
      | pending => simp [Observation.record, h.pending.1 rfl]

/-- What an operator has observed after an evaluation in which it has combined the
    given operands, if any. -/
def after (seen : Observation) (op : Operator) : Option (List Value) → Observation
  | none => seen
  | some operands => seen.record (op.sharedKind? operands)

theorem Records.after (h : seen.Records op history) (operands? : Option (List Value)) :
    (seen.after op operands?).Records op (history ++ operands?.toList) := by
  cases operands? with
  | none => simpa [Observation.after] using h
  | some operands => exact h.record operands

theorem after_ne_pending (h : seen ≠ .pending) (operands? : Option (List Value)) :
    seen.after op operands? ≠ .pending := by
  cases operands? with
  | none => exact h
  | some operands =>
    rw [Observation.after]
    cases seen <;> cases op.sharedKind? operands <;> simp [Observation.record]

theorem exists_after_eq_scalar (k : ScalarKind) (operands? : Option (List Value)) :
    ∃ m, (scalar k).after op operands? = .scalar m := by
  cases operands? with
  | none => exact ⟨k, rfl⟩
  | some operands =>
    rw [Observation.after]
    cases op.sharedKind? operands with
    | none => exact ⟨k, rfl⟩
    | some m => exact ⟨m, rfl⟩

end Observation

/-! ### Operators by their numbers -/

namespace Tree

/-- The root operator of a tree, with what it has observed. -/
def operator? : Tree → Option (Operator × Observation)
  | literal _ | reference _ _ => none
  | unary op seen _ | binary op seen _ _ => some (op, seen)

/-- The operator with a number, with what it has observed. -/
def operatorAt? (t : Tree) (i : Nat) : Option (Operator × Observation) :=
  (t.subtree? i).bind operator?

/-- The values of the operands of the operator with a number in an evaluation of the
    tree, if the evaluation comes to all of them and all of them have values. -/
def operands? : Tree → Environment → Nat → Option (List Value)
  | literal _, _, _ | reference _ _, _, _ => none
  | unary _ _ operand, env, 0 => do
    let inside ← env.visit.enter.toOption
    let v ← (operand.evaluate inside).result.toOption
    return [v]
  | unary _ _ operand, env, i + 1 => do
    let inside ← env.visit.enter.toOption
    operand.operands? inside i
  | binary _ _ left right, env, 0 => do
    let inside ← env.visit.enter.toOption
    let first := left.evaluate inside
    let l ← first.result.toOption
    let r ← (right.evaluate first.env).result.toOption
    return [l, r]
  | binary _ _ left right, env, i + 1 => do
    let inside ← env.visit.enter.toOption
    if i < left.size then left.operands? inside i
    else
      let first := left.evaluate inside
      let _ ← first.result.toOption
      right.operands? first.env (i - left.size)

variable {t t' left left' right right' operand operand' : Tree} {env env' env'' : Environment}
  {i : Nat} {op : Operator} {seen : Observation} {l : Value} {e : EvalError}
  {result : Except EvalError Value}

theorem operatorAt?_binary_succ : (binary op seen left right).operatorAt? (i + 1) =
    if i < left.size then left.operatorAt? i else right.operatorAt? (i - left.size) := by
  rw [operatorAt?, subtree?]
  split <;> rfl

/-- What is below a root on two operands is below one of them. -/
theorem operatorAt?_binary_succ_of {seen' : Observation} {x y : Operator × Observation}
    (hsize : left'.size = left.size)
    (hleft : i < left.size → left.operatorAt? i = some x → left'.operatorAt? i = some y)
    (hright : ¬i < left.size → right.operatorAt? (i - left.size) = some x →
      right'.operatorAt? (i - left.size) = some y)
    (h : (binary op seen left right).operatorAt? (i + 1) = some x) :
    (binary op seen' left' right').operatorAt? (i + 1) = some y := by
  rw [operatorAt?_binary_succ] at h ⊢
  rw [hsize]
  split at h
  next hi => rw [if_pos hi]; exact hleft hi h
  next hi => rw [if_neg hi]; exact hright hi h

@[simp]
theorem size_fresh (t : Tree) : t.fresh.size = t.size := by
  induction t with
  | literal | reference => rfl
  | unary op _ operand ih => rw [fresh, ofUnary, size, size, ih]
  | binary op _ left right ihl ihr => rw [fresh, ofBinary, size, size, ihl, ihr]

theorem Evaluates.size_eq (h : t.Evaluates env result t' env') : t'.size = t.size := by
  rw [← size_fresh, h.fresh_eq, size_fresh]

/-- In a tree as it was built, no operator has observed anything. -/
theorem eq_pending_of_operatorAt?_fresh (h : t.fresh.operatorAt? i = some (op, seen)) :
    seen = .pending := by
  induction t generalizing i with
  | literal | reference => cases i <;> cases h
  | unary _ _ operand ih =>
    cases i with
    | zero => cases h; rfl
    | succ i => exact ih h
  | binary _ _ left right ihl ihr =>
    cases i with
    | zero => cases h; rfl
    | succ i =>
      rw [fresh, ofBinary, operatorAt?_binary_succ] at h
      split at h
      · exact ihl h
      · exact ihr h

/-! ### Operands in an evaluation -/

theorem operands?_of_tooDeep (t : Tree) (i : Nat) (h : env.limits.maxDepth ≤ env.depth) :
    t.operands? env i = none := by
  have henter : env.visit.enter.toOption = none := by
    rw [Environment.enter_visit_eq_error.2 ⟨h, rfl⟩]
    rfl
  cases t with
  | literal | reference => rw [operands?]
  | unary | binary => cases i <;> simp [operands?, henter]

theorem enter_visit_toOption (h : env.depth < env.limits.maxDepth) :
    env.visit.enter.toOption = some env.inside := by
  rw [Environment.enter_visit_eq_ok.2 ⟨h, rfl⟩]
  rfl

theorem operands?_unary_zero (h : env.depth < env.limits.maxDepth)
    (hoperand : operand.Evaluates env.inside result operand' env') :
    (unary op seen operand).operands? env 0 = result.toOption.map fun v => [v] := by
  simp only [operands?, enter_visit_toOption h, Option.bind_eq_bind, Option.bind_some,
    hoperand.evaluate_eq]
  cases result <;> rfl

theorem operands?_unary_succ (h : env.depth < env.limits.maxDepth) :
    (unary op seen operand).operands? env (i + 1) = operand.operands? env.inside i := by
  rw [operands?, enter_visit_toOption h]
  rfl

theorem operands?_binary_zero (h : env.depth < env.limits.maxDepth)
    (hleft : left.Evaluates env.inside (.ok l) left' env')
    (hright : right.Evaluates env' result right' env'') :
    (binary op seen left right).operands? env 0 = result.toOption.map fun r => [l, r] := by
  simp only [operands?, enter_visit_toOption h, Option.bind_eq_bind, Option.bind_some,
    hleft.evaluate_eq, hright.evaluate_eq]
  cases result <;> rfl

theorem operands?_binary_of_left (h : env.depth < env.limits.maxDepth) (hi : i < left.size) :
    (binary op seen left right).operands? env (i + 1) = left.operands? env.inside i := by
  rw [operands?, enter_visit_toOption h, Option.bind_eq_bind, Option.bind_some, if_pos hi]

theorem operands?_binary_of_right (h : env.depth < env.limits.maxDepth) (hi : ¬i < left.size)
    (hleft : left.Evaluates env.inside (.ok l) left' env') :
    (binary op seen left right).operands? env (i + 1) =
      right.operands? env' (i - left.size) := by
  simp only [operands?, enter_visit_toOption h, Option.bind_eq_bind, Option.bind_some, if_neg hi,
    hleft.evaluate_eq]
  rfl

/-- If the left operand fails, neither the operator nor any in its right operand combines
    anything. -/
theorem operands?_binary_of_leftFails (h : env.depth < env.limits.maxDepth)
    (hleft : left.Evaluates env.inside (.error e) left' env') :
    (binary op seen left right).operands? env 0 = none ∧
      (¬i < left.size → (binary op seen left right).operands? env (i + 1) = none) := by
  constructor
  · simp only [operands?, enter_visit_toOption h, Option.bind_eq_bind, Option.bind_some,
      hleft.evaluate_eq]
    rfl
  · intro hi
    simp only [operands?, enter_visit_toOption h, Option.bind_eq_bind, Option.bind_some,
      if_neg hi, hleft.evaluate_eq]
    rfl

/-! ### Evaluations -/

/-- One evaluation of a tree changes what an operator has observed by the operands that
    it combines. -/
theorem Evaluates.operatorAt?_eq (h : t.Evaluates env result t' env')
    (hop : t.operatorAt? i = some (op, seen)) :
    t'.operatorAt? i = some (op, seen.after op (t.operands? env i)) := by
  -- Below the root, an evaluation of an operand is an evaluation of the operators in it; an
  -- operand that is not evaluated stays as it was. The root itself records its operands at
  -- the end, if the evaluation gets there.
  induction h generalizing i with
  | literal | bound | unbound => cases i <;> cases hop
  | unaryTooDeep _ _ _ h | binaryTooDeep _ _ _ _ h => rwa [operands?_of_tooDeep _ _ h]
  | operandFails _ _ hdepth hoperand ih =>
    cases i with
    | zero => rwa [operands?_unary_zero hdepth hoperand]
    | succ i =>
      rw [operands?_unary_succ hdepth]
      exact ih hop
  | unary _ _ hdepth hoperand ih =>
    cases i with
    | zero =>
      cases hop
      rw [operands?_unary_zero hdepth hoperand]
      rfl
    | succ i =>
      rw [operands?_unary_succ hdepth]
      exact ih hop
  | leftFails _ _ _ hdepth hleft ih =>
    cases i with
    | zero => rwa [(operands?_binary_of_leftFails (i := 0) hdepth hleft).1]
    | succ i =>
      refine operatorAt?_binary_succ_of hleft.size_eq (fun hi h => ?_) (fun hi h => ?_) hop
      · rw [operands?_binary_of_left hdepth hi]
        exact ih h
      · rwa [(operands?_binary_of_leftFails hdepth hleft).2 hi]
  | rightFails _ _ hdepth hleft hright ihl ihr =>
    cases i with
    | zero => rwa [operands?_binary_zero hdepth hleft hright]
    | succ i =>
      refine operatorAt?_binary_succ_of hleft.size_eq (fun hi h => ?_) (fun hi h => ?_) hop
      · rw [operands?_binary_of_left hdepth hi]
        exact ihl h
      · rw [operands?_binary_of_right hdepth hi hleft]
        exact ihr h
  | binary _ _ hdepth hleft hright ihl ihr =>
    cases i with
    | zero =>
      cases hop
      rw [operands?_binary_zero hdepth hleft hright]
      change _ = some (_, Observation.record _ (Operator.sharedKind? _ [_, _]))
      rw [Operator.sharedKind?_pair]
      rfl
    | succ i =>
      refine operatorAt?_binary_succ_of hleft.size_eq (fun hi h => ?_) (fun hi h => ?_) hop
      · rw [operands?_binary_of_left hdepth hi]
        exact ihl h
      · rw [operands?_binary_of_right hdepth hi hleft]
        exact ihr h

theorem operatorAt?_evaluate (env : Environment) (h : t.operatorAt? i = some (op, seen)) :
    (t.evaluate env).tree.operatorAt? i = some (op, seen.after op (t.operands? env i)) :=
  (t.evaluates env).operatorAt?_eq h

/-- The tree after a number of evaluations. -/
def evaluateAll (t : Tree) (envs : List Environment) : Tree :=
  envs.foldl (fun t env => (t.evaluate env).tree) t

/-- The operands that the operator with a number combines in a number of evaluations, one
    list for each combination, the latest last. -/
def combinations : Tree → List Environment → Nat → List (List Value)
  | _, [], _ => []
  | t, env :: envs, i => (t.operands? env i).toList ++ (t.evaluate env).tree.combinations envs i

theorem operatorAt?_evaluateAll {history : List (List Value)} (envs : List Environment)
    (hop : t.operatorAt? i = some (op, seen)) (hseen : seen.Records op history) :
    ∃ last, (t.evaluateAll envs).operatorAt? i = some (op, last) ∧
      last.Records op (history ++ t.combinations envs i) := by
  -- What has been observed so far is the invariant, so the history before is any.
  induction envs generalizing t seen history with
  | nil => exact ⟨seen, hop, by rwa [combinations, List.append_nil]⟩
  | cons env envs ih =>
    rw [combinations, ← List.append_assoc]
    exact ih (operatorAt?_evaluate env hop) (hseen.after _)

/-- However often a tree has been evaluated since it was built, in whatever environments
    and with whatever outcomes: the observation of each of its operators records the
    operands that the operator has combined. So after another evaluation, the operator
    has observed something if it had before, it has observed a kind if it had before, and
    nothing has changed if it has not combined anything. -/
theorem records_evaluateAll (t : Tree) (envs : List Environment) {seen₀ : Observation}
    (h : t.fresh.operatorAt? i = some (op, seen₀)) :
    ∃ seen, (t.fresh.evaluateAll envs).operatorAt? i = some (op, seen) ∧
      seen.Records op (t.fresh.combinations envs i) ∧
      ∀ env, ∃ next, (t.fresh.evaluateAll (envs ++ [env])).operatorAt? i = some (op, next) ∧
        (seen ≠ .pending → next ≠ .pending) ∧
        (∀ k, seen = .scalar k → ∃ m, next = .scalar m) ∧
        ((t.fresh.evaluateAll envs).operands? env i = none → next = seen) := by
  obtain rfl := eq_pending_of_operatorAt?_fresh h
  obtain ⟨seen, hop, hseen⟩ := operatorAt?_evaluateAll envs h (Observation.records_pending op)
  refine ⟨seen, hop, hseen, fun env => ?_⟩
  refine ⟨seen.after op ((t.fresh.evaluateAll envs).operands? env i), ?_, ?_, ?_, ?_⟩
  · rw [evaluateAll, List.foldl_append]
    exact operatorAt?_evaluate env hop
  · exact fun hne => Observation.after_ne_pending hne _
  · rintro k rfl
    exact Observation.exists_after_eq_scalar k _
  · intro hnone
    rw [hnone]
    rfl

/-- An integer is divided by zero, then a wider one by the same zero, and then the
    variable has no value. The two divisions count although they fail, and only the first
    one had operands with a kind in common. -/
theorem records_evaluateAll_quotient :
    let quotient := ofBinary .div (ofName "x") (.literal (.scalar (.int32 0)))
    let envs := [Environment.set {} "x" (.scalar (.int32 9)),
      Environment.set {} "x" (.scalar (.int64 9)), {}]
    quotient.fresh.operatorAt? 0 = some (.div, .pending) ∧
      quotient.fresh.combinations envs 0 = [[.scalar (.int32 9), .scalar (.int32 0)],
        [.scalar (.int64 9), .scalar (.int32 0)]] ∧
      (quotient.fresh.evaluateAll envs).operatorAt? 0 = some (.div, .scalar .int32) := by
  intro quotient envs
  have hop : quotient.fresh.operatorAt? 0 = some (.div, .pending) := rfl
  have hhistory : quotient.fresh.combinations envs 0 = [[.scalar (.int32 9), .scalar (.int32 0)],
      [.scalar (.int64 9), .scalar (.int32 0)]] := by cbv
  obtain ⟨seen, hseen, hrecords, _⟩ := records_evaluateAll quotient envs hop
  have hkind : seen = .scalar .int32 := by
    rw [hrecords.scalar, hhistory]
    cbv
  exact ⟨hop, hhistory, hkind ▸ hseen⟩

end Tree

end AdaptiveArith
