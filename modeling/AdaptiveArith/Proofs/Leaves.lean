import AdaptiveArith.Proofs.Evaluation
import AdaptiveArith.Proofs.Lowering
import AdaptiveArith.Proofs.Machine

/-!
# The leaves of a tree decide whether it can be compiled

What a tree computes with comes from its leaves, the literals and the references to
variables (`Tree.leaves`). If all of them have scalars of one kind as their values in
an environment (`Tree.LeavesOfKind`), then so has every operator above them
(`Tree.scalarKind?_of_outcome`).

The nodes of a tree may remember other kinds, from evaluations long past, and the
overloader of an environment may make scalars out of texts. Neither matters: after an
evaluation that gives a value, the tree has settled on a kind exactly if all of its
leaves are of that kind in the environment of this evaluation
(`Tree.Evaluates.settledOn_iff`).
-/

namespace AdaptiveArith

/-- A leaf of a tree. -/
inductive Leaf
  /-- A constant. -/
  | literal (value : Value)
  /-- A variable. -/
  | reference (name : String)
  deriving DecidableEq

namespace Leaf

/-- The value of a leaf in an environment, if it has one. -/
def value? (env : Environment) : Leaf → Option Value
  | literal value => some value
  | reference name => env.get? name

/-- The value of the leaf in the environment is a scalar of the given kind. -/
def HasKind (leaf : Leaf) (env : Environment) (k : ScalarKind) : Prop :=
  ∃ p : Scalar, leaf.value? env = some (.scalar p) ∧ p.kind = k

variable {leaf : Leaf} {env after : Environment} {k : ScalarKind} {v : Value} {name : String}

theorem hasKind_iff_of_value? (h : leaf.value? env = some v) :
    leaf.HasKind env k ↔ v.scalarKind? = some k := by
  rw [HasKind, h, Value.scalarKind?_eq_some]
  simp only [Option.some.injEq]

theorem value?_of_lookup (h : env.lookup name = .ok v) : (reference name).value? env = some v := by
  rw [Environment.lookup] at h
  rw [value?]
  split at h
  next hget => rw [hget, Except.ok.inj h]
  next => cases h

/-- The value of a leaf depends on the variables only. -/
theorem hasKind_eq (h : env.SameRules after) : leaf.HasKind after k = leaf.HasKind env k := by
  cases leaf with
  | literal => rfl
  | reference =>
    rw [HasKind, HasKind, value?, value?, Environment.get?, Environment.get?, h.variables]

end Leaf

namespace Tree

/-- The leaves of a tree, from left to right. -/
def leaves : Tree → List Leaf
  | literal value => [.literal value]
  | reference name _ => [.reference name]
  | unary _ _ operand => operand.leaves
  | binary _ _ left right => left.leaves ++ right.leaves

/-- All leaves of the tree have scalars of one kind as their values in the environment. -/
def LeavesOfKind (t : Tree) (env : Environment) (k : ScalarKind) : Prop :=
  ∀ leaf ∈ t.leaves, leaf.HasKind env k

variable {t left right operand : Tree} {env after : Environment} {k : ScalarKind} {op : Operator}
  {seen : Observation} {v : Value}

theorem leavesOfKind_literal : (literal v).LeavesOfKind env k ↔ v.scalarKind? = some k := by
  rw [LeavesOfKind, leaves, List.forall_mem_singleton, Leaf.hasKind_iff_of_value? rfl]

theorem leavesOfKind_reference {name : String} {lastKind : Option ScalarKind}
    (h : env.lookup name = .ok v) :
    (reference name lastKind).LeavesOfKind env k ↔ v.scalarKind? = some k := by
  rw [LeavesOfKind, leaves, List.forall_mem_singleton,
    Leaf.hasKind_iff_of_value? (Leaf.value?_of_lookup h)]

theorem leavesOfKind_unary :
    (unary op seen operand).LeavesOfKind env k ↔ operand.LeavesOfKind env k := Iff.rfl

theorem leavesOfKind_binary : (binary op seen left right).LeavesOfKind env k ↔
    left.LeavesOfKind env k ∧ right.LeavesOfKind env k := List.forall_mem_append

theorem leavesOfKind_iff (h : env.SameRules after) :
    t.LeavesOfKind after k ↔ t.LeavesOfKind env k := by
  simp only [LeavesOfKind, Leaf.hasKind_eq h]

@[simp]
theorem leaves_fresh (t : Tree) : t.fresh.leaves = t.leaves := by
  induction t with
  | literal | reference => rfl
  | unary _ _ operand ih => exact ih
  | binary _ _ left right ihl ihr => rw [fresh, ofBinary, leaves, ihl, ihr, leaves]

/-- An evaluation does not change the leaves. -/
@[simp]
theorem leaves_evaluate (t : Tree) (env : Environment) :
    (t.evaluate env).tree.leaves = t.leaves := by
  rw [← leaves_fresh, fresh_evaluate, leaves_fresh]

end Tree

/-! ### The kind of the value -/

variable {op : Operator} {v l r : Value} {k : ScalarKind}

/-- An operator on a scalar gives a scalar of the same kind, if it gives a value. -/
theorem Operator.onValue_of_scalarKind? (hv : v.scalarKind? = some k) {w : Value}
    (h : op.onValue v = .ok w) : op.unaryKind? v = some k ∧ w.scalarKind? = some k := by
  obtain ⟨p, rfl, hp⟩ := Value.scalarKind?_eq_some.1 hv
  cases op with
  | add =>
    obtain rfl := Except.ok.inj h
    exact ⟨hv, hv⟩
  | sub =>
    obtain rfl := Except.ok.inj h
    exact ⟨hv, Value.scalarKind?_eq_some.2 ⟨p.neg, rfl, p.kind_neg.trans hp⟩⟩
  | mul | div | mod => cases h

/-- An operator on two scalars of one kind gives a scalar of this kind, if it gives a
    value. -/
theorem Environment.combine_of_scalarKind? {env : Environment} (hl : l.scalarKind? = some k)
    (hr : r.scalarKind? = some k) (h : (env.combine op l r).1 = .ok v) :
    l.commonKind? r = some k ∧ v.scalarKind? = some k := by
  refine ⟨by rw [Value.commonKind?, hl, hr]; exact if_pos rfl, ?_⟩
  obtain ⟨p, rfl, hp⟩ := Value.scalarKind?_eq_some.1 hl
  obtain ⟨q, rfl, hq⟩ := Value.scalarKind?_eq_some.1 hr
  change ((op.onPair (.widen p q)).map .scalar).mapError EvalError.runtime = .ok v at h
  rcases op.onPair_spec (.widen p q) with ⟨result, hresult, hkind⟩ | hzero
  · rw [hresult] at h
    obtain rfl := Except.ok.inj h
    rw [ScalarPair.kind_widen_of_kind_eq hp hq] at hkind
    exact Value.scalarKind?_eq_some.2 ⟨result, rfl, hkind⟩
  · rw [hzero] at h
    cases h

namespace Tree

variable {t t' : Tree} {env env' : Environment} {result : Except EvalError Value}

/-- A tree whose leaves are of one kind has no outcome but scalars of this kind. -/
theorem scalarKind?_of_outcome (ht : t.LeavesOfKind env k) (h : t.outcome env = .ok v) :
    v.scalarKind? = some k := by
  induction t generalizing v with
  | literal w =>
    obtain rfl := Except.ok.inj h
    exact leavesOfKind_literal.1 ht
  | reference name =>
    rw [outcome] at h
    cases hlookup : env.lookup name with
    | ok w =>
      rw [hlookup] at h
      obtain rfl := Except.ok.inj h
      exact (leavesOfKind_reference hlookup).1 ht
    | error e => rw [hlookup] at h; cases h
  | unary op seen operand ih =>
    rw [outcome] at h
    cases hoperand : operand.outcome env with
    | ok w =>
      rw [hoperand] at h
      exact (Operator.onValue_of_scalarKind? (ih ht hoperand) h).2
    | error e => rw [hoperand] at h; cases h
  | binary op seen left right ihl ihr =>
    obtain ⟨htl, htr⟩ := leavesOfKind_binary.1 ht
    rw [outcome] at h
    cases hl : left.outcome env with
    | ok l =>
      cases hr : right.outcome env with
      | ok r =>
        rw [hl, hr] at h
        exact (Environment.combine_of_scalarKind? (ihl htl hl) (ihr htr hr) h).2
      | error e => rw [hl, hr] at h; cases h
    | error e => rw [hl] at h; cases h

/-- An evaluation of a tree whose leaves are of one kind gives no value but scalars of
    this kind. -/
theorem Evaluates.scalarKind?_eq (h : t.Evaluates env result t' env') (hresult : result = .ok v)
    (ht : t.LeavesOfKind env k) : v.scalarKind? = some k := by
  rcases h.result_eq with houtcome | ⟨_, _, _, hdeep⟩
  · exact scalarKind?_of_outcome ht (houtcome.symm.trans hresult)
  · rw [hdeep] at hresult
    cases hresult

/-! ### The tree after an evaluation -/

/-- A tree that has been evaluated to a value has settled on the kind of its leaves,
    and on no other. -/
theorem Evaluates.settledOn_iff (h : t.Evaluates env result t' env') (hresult : result = .ok v) :
    t'.SettledOn k ↔ t.LeavesOfKind env k := by
  induction h generalizing v with
  | literal => rw [settledOn_literal, leavesOfKind_literal]
  | bound _ hlookup => rw [settledOn_reference, leavesOfKind_reference hlookup]
  | @unary operand operand' env env' w op seen _ hoperand ih =>
    rw [settledOn_unary, ih rfl, leavesOfKind_unary, leavesOfKind_iff env.sameRules_inside]
    -- The operator has a form with one operand, as it has given a value.
    refine ⟨fun h => h.2.2, fun ht => ?_⟩
    obtain ⟨hkind, _⟩ := Operator.onValue_of_scalarKind?
      (hoperand.scalarKind?_eq rfl ((leavesOfKind_iff env.sameRules_inside).2 ht)) hresult
    rw [hkind]
    refine ⟨rfl, ?_, ht⟩
    rw [Operator.unaryKind?] at hkind
    exact (Option.ite_none_right_eq_some.1 hkind).1
  | @binary left left' right right' env env' env'' l r op seen _ hl hr ihl ihr =>
    have hrules := env.sameRules_inside.trans hl.sameButJournal.toSameRules
    rw [settledOn_binary, ihl rfl, ihr rfl, leavesOfKind_binary,
      leavesOfKind_iff env.sameRules_inside, leavesOfKind_iff hrules]
    refine ⟨fun h => h.2, fun ht => ⟨?_, ht⟩⟩
    -- Both operands are scalars of the kind, so the operator observes it now.
    have hlk := hl.scalarKind?_eq rfl ((leavesOfKind_iff env.sameRules_inside).2 ht.1)
    have hrk := hr.scalarKind?_eq rfl ((leavesOfKind_iff hrules).2 ht.2)
    rw [(Environment.combine_of_scalarKind? hlk hrk hresult).1]
    rfl
  | unbound | unaryTooDeep | operandFails | binaryTooDeep | leftFails | rightFails => cases hresult

/-- After an evaluation that has given a value, a tree can be compiled exactly if the
    leaves have scalars of one kind as their values in the environment of this
    evaluation, whatever its nodes remembered before and whatever the overloader
    answered. -/
theorem isCompilable_tree_evaluate_iff (t : Tree) (env : Environment)
    (h : (t.evaluate env).result = .ok v) :
    (t.evaluate env).tree.isCompilable = true ↔ ∃ k, t.LeavesOfKind env k := by
  rw [isCompilable_iff]
  exact exists_congr fun k => (t.evaluates env).settledOn_iff h

/-- The tree could be compiled before. It still remembers the integers that it saw
    then, but the variable holds a wider one now. -/
theorem isCompilable_tree_evaluate_iff_tripled :
    let env := Environment.set {} "x" (.scalar (.int64 5))
    tripled.isCompilable = true ∧ (tripled.evaluate env).result = .ok (.scalar (.int64 15)) ∧
      (tripled.evaluate env).tree.isCompilable = false ∧ ¬∃ k, tripled.LeavesOfKind env k := by
  intro env
  have hresult : (tripled.evaluate env).result = .ok (.scalar (.int64 15)) := by cbv
  have hcompilable : (tripled.evaluate env).tree.isCompilable = false := by cbv
  refine ⟨rfl, hresult, hcompilable, fun h => ?_⟩
  rw [← isCompilable_tree_evaluate_iff tripled env hresult, hcompilable] at h
  cases h

end Tree

end AdaptiveArith
