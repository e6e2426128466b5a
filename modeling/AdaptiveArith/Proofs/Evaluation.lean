import AdaptiveArith.Tree.Evaluate
import AdaptiveArith.Proofs.Settled

/-!
# What an evaluation gives and what it leaves behind

`Tree.Evaluates` gives the rules of evaluation, one for each way in which a node
can end. An evaluation threads an environment through the tree and rewrites what
the nodes remember, but its result depends on neither:

* an evaluation leaves its environment as it was, up to the journal
  (`Tree.evaluate_env`);
* its result is that of the tree without any limit on nesting (`Tree.outcome`),
  unless operators are nested too deeply for the environment and the limit ends
  it (`Tree.Evaluates.result_eq`);
* it takes place in every other environment in which the operands are combined alike
  (`Tree.Evaluates.transfer`), and so the journal plays no part;
* what the nodes remember plays no part either: the tree as it was built
  (`Tree.fresh`) is evaluated to the same result (`Tree.result_evaluate_fresh`), and
  an evaluation does not change how the tree was built (`Tree.fresh_evaluate`).

Only an operator that was entered can have observed anything. So the observations
of a tree tell how deeply it has been entered (`Tree.ObservedWithin`), and a tree
that has settled on a kind has been entered as deeply as its operators are nested
(`Tree.SettledOn.height_le`).
-/

namespace AdaptiveArith

/-! ### Environments -/

namespace Environment

variable {env env' after : Environment}

/-- The environment of the operands of an operator, one level deeper. -/
def inside (env : Environment) : Environment := { env.visit with depth := env.depth + 1 }

/-- The two environments agree on all that operators and variables may depend on. -/
structure SameRules (env after : Environment) : Prop where
  «variables» : after.variables = env.variables
  overloader : after.overloader = env.overloader
  limits : after.limits = env.limits

/-- The two environments differ in their journals only. -/
structure SameButJournal (env after : Environment) : Prop extends env.SameRules after where
  depth : after.depth = env.depth

theorem sameRules_inside (env : Environment) : env.SameRules env.inside := ⟨rfl, rfl, rfl⟩

theorem SameRules.symm (h : env.SameRules after) : after.SameRules env :=
  ⟨h.variables.symm, h.overloader.symm, h.limits.symm⟩

theorem SameRules.trans (h : env.SameRules env') (h' : env'.SameRules after) :
    env.SameRules after :=
  ⟨h'.variables.trans h.variables, h'.overloader.trans h.overloader, h'.limits.trans h.limits⟩

theorem sameButJournal_visit (env : Environment) : env.SameButJournal env.visit :=
  ⟨⟨rfl, rfl, rfl⟩, rfl⟩

theorem sameButJournal_combine (env : Environment) (op : Operator) (l r : Value) :
    env.SameButJournal (env.combine op l r).2 := by
  unfold combine
  split
  · exact ⟨⟨rfl, rfl, rfl⟩, rfl⟩
  · exact ⟨⟨rfl, rfl, rfl⟩, rfl⟩

theorem SameButJournal.trans (h : env.SameButJournal env') (h' : env'.SameButJournal after) :
    env.SameButJournal after :=
  ⟨h.toSameRules.trans h'.toSameRules, h'.depth.trans h.depth⟩

theorem SameButJournal.symm (h : env.SameButJournal after) : after.SameButJournal env :=
  ⟨h.toSameRules.symm, h.depth.symm⟩

/-- Two environments stay the same but for their journals, whatever is evaluated in each. -/
theorem SameButJournal.later {env' after' : Environment} (h : env.SameButJournal after)
    (henv : env.SameButJournal env') (hafter : after.SameButJournal after') :
    env'.SameButJournal after' :=
  (henv.symm.trans h).trans hafter

theorem SameButJournal.inside (h : env.SameButJournal after) :
    env.inside.SameButJournal after.inside :=
  ⟨⟨h.variables, h.overloader, h.limits⟩, congrArg (· + 1) h.depth⟩

/-- Leaving an operator undoes entering it. -/
theorem SameButJournal.leave (h : env.inside.SameButJournal after) :
    env.SameButJournal after.leave := by
  refine ⟨⟨h.variables, h.overloader, h.limits⟩, ?_⟩
  change after.depth - 1 = env.depth
  rw [h.depth]
  rfl

theorem SameRules.lookup_eq (h : env.SameRules after) (name : String) :
    after.lookup name = env.lookup name := by
  rw [lookup, lookup, get?, get?, h.variables]

theorem SameRules.combine_eq (h : env.SameRules after) (op : Operator) (l r : Value) :
    (after.combine op l r).1 = (env.combine op l r).1 := by
  rw [combine, combine, h.limits]
  cases op.combine? env.limits.maxTextLength l r with
  | none => rw [consult, consult, h.overloader]
  | some result => rfl

theorem enter_visit_eq_ok : env.visit.enter = .ok after ↔
    env.depth < env.limits.maxDepth ∧ after = env.inside := by
  change (if env.limits.maxDepth ≤ env.depth then _ else _) = _ ↔ _
  split
  · simp only [reduceCtorEq, false_iff]
    omega
  · simp only [Except.ok.injEq]
    exact ⟨fun h => ⟨by omega, h.symm⟩, fun h => h.2.symm⟩

theorem enter_visit_eq_error {e : EvalError} : env.visit.enter = .error e ↔
    env.limits.maxDepth ≤ env.depth ∧ e = .limit (.tooDeep env.depth env.limits.maxDepth) := by
  change (if env.limits.maxDepth ≤ env.depth then _ else _) = _ ↔ _
  split
  · simp only [Except.error.injEq]
    exact ⟨fun h => ⟨by omega, h.symm⟩, fun h => h.2.symm⟩
  · simp only [reduceCtorEq, false_iff]
    omega

end Environment

namespace Tree

/-! ### The rules of evaluation -/

/-- The evaluation of a tree in an environment ends with a result, and leaves a
    tree and an environment. -/
inductive Evaluates : Tree → Environment → Except EvalError Value → Tree → Environment → Prop
  /-- A literal has its value. -/
  | literal (v : Value) (env : Environment) :
      Evaluates (.literal v) env (.ok v) (.literal v) env.visit
  /-- A reference remembers the kind of its value. -/
  | bound {name : String} {env : Environment} {v : Value} (lastKind : Option ScalarKind) :
      env.lookup name = .ok v →
      Evaluates (.reference name lastKind) env (.ok v) (.reference name v.scalarKind?) env.visit
  /-- A variable may have no value. -/
  | unbound {name : String} {env : Environment} {e : RuntimeError} (lastKind : Option ScalarKind) :
      env.lookup name = .error e →
      Evaluates (.reference name lastKind) env (.error (.runtime e)) (.reference name lastKind)
        env.visit
  /-- The limit may not allow an operator on one operand. -/
  | unaryTooDeep {env : Environment} (op : Operator) (seen : Observation) (operand : Tree) :
      env.limits.maxDepth ≤ env.depth →
      Evaluates (.unary op seen operand) env
        (.error (.limit (.tooDeep env.depth env.limits.maxDepth))) (.unary op seen operand)
        env.visit
  /-- The operand may fail. -/
  | operandFails {operand operand' : Tree} {env env' : Environment} {e : EvalError} (op : Operator)
      (seen : Observation) : env.depth < env.limits.maxDepth →
      Evaluates operand env.inside (.error e) operand' env' →
      Evaluates (.unary op seen operand) env (.error e) (.unary op seen operand') env'.leave
  /-- An operator on one operand observes its value. -/
  | unary {operand operand' : Tree} {env env' : Environment} {v : Value} (op : Operator)
      (seen : Observation) : env.depth < env.limits.maxDepth →
      Evaluates operand env.inside (.ok v) operand' env' →
      Evaluates (.unary op seen operand) env (op.onValue v)
        (.unary op (seen.record (op.unaryKind? v)) operand') env'.leave
  /-- The limit may not allow an operator on two operands. -/
  | binaryTooDeep {env : Environment} (op : Operator) (seen : Observation) (left right : Tree) :
      env.limits.maxDepth ≤ env.depth →
      Evaluates (.binary op seen left right) env
        (.error (.limit (.tooDeep env.depth env.limits.maxDepth))) (.binary op seen left right)
        env.visit
  /-- The left operand may fail. -/
  | leftFails {left left' : Tree} {env env' : Environment} {e : EvalError} (op : Operator)
      (seen : Observation) (right : Tree) : env.depth < env.limits.maxDepth →
      Evaluates left env.inside (.error e) left' env' →
      Evaluates (.binary op seen left right) env (.error e) (.binary op seen left' right) env'.leave
  /-- The right operand may fail. -/
  | rightFails {left left' right right' : Tree} {env env' env'' : Environment} {l : Value}
      {e : EvalError} (op : Operator) (seen : Observation) : env.depth < env.limits.maxDepth →
      Evaluates left env.inside (.ok l) left' env' → Evaluates right env' (.error e) right' env'' →
      Evaluates (.binary op seen left right) env (.error e) (.binary op seen left' right')
        env''.leave
  /-- An operator on two operands observes their values and combines them. -/
  | binary {left left' right right' : Tree} {env env' env'' : Environment} {l r : Value}
      (op : Operator) (seen : Observation) : env.depth < env.limits.maxDepth →
      Evaluates left env.inside (.ok l) left' env' → Evaluates right env' (.ok r) right' env'' →
      Evaluates (.binary op seen left right) env (env''.combine op l r).1
        (.binary op (seen.record (l.commonKind? r)) left' right') (env''.combine op l r).2.leave

variable {t t' operand : Tree} {env env' : Environment} {result : Except EvalError Value}

/-- An evaluation follows the rules. -/
theorem evaluates (t : Tree) (env : Environment) :
    t.Evaluates env (t.evaluate env).result (t.evaluate env).tree (t.evaluate env).env := by
  fun_induction evaluate t env
  case case1 => exact .literal _ _
  case case2 h => exact .bound _ h
  case case3 h => exact .unbound _ h
  case case4 h =>
    obtain ⟨hdepth, rfl⟩ := Environment.enter_visit_eq_error.1 h
    exact .unaryTooDeep _ _ _ hdepth
  case case5 h inner e hinner ih =>
    obtain ⟨hdepth, rfl⟩ := Environment.enter_visit_eq_ok.1 h
    exact .operandFails _ _ hdepth (hinner ▸ ih)
  case case6 h inner v hinner ih =>
    obtain ⟨hdepth, rfl⟩ := Environment.enter_visit_eq_ok.1 h
    exact .unary _ _ hdepth (hinner ▸ ih)
  case case7 h =>
    obtain ⟨hdepth, rfl⟩ := Environment.enter_visit_eq_error.1 h
    exact .binaryTooDeep _ _ _ _ hdepth
  case case8 h first e hfirst ih =>
    obtain ⟨hdepth, rfl⟩ := Environment.enter_visit_eq_ok.1 h
    exact .leftFails _ _ _ hdepth (hfirst ▸ ih)
  case case9 h first l hfirst second e hsecond ihl ihr =>
    obtain ⟨hdepth, rfl⟩ := Environment.enter_visit_eq_ok.1 h
    exact .rightFails _ _ hdepth (hfirst ▸ ihl) (hsecond ▸ ihr)
  case case10 h first l hfirst second r hsecond result env'' hcombine ihl ihr =>
    obtain ⟨hdepth, rfl⟩ := Environment.enter_visit_eq_ok.1 h
    obtain ⟨rfl, rfl⟩ := Prod.mk.inj hcombine
    exact .binary _ _ hdepth (hfirst ▸ ihl) (hsecond ▸ ihr)

/-- The rules leave an evaluation no choice. -/
theorem Evaluates.evaluate_eq (h : t.Evaluates env result t' env') :
    t.evaluate env = ⟨result, t', env'⟩ := by
  induction h with
  | literal => rfl
  | bound _ h | unbound _ h => rw [evaluate, h]
  | unaryTooDeep _ _ _ h | binaryTooDeep _ _ _ _ h =>
    rw [evaluate, Environment.enter_visit_eq_error.2 ⟨h, rfl⟩]
  | operandFails _ _ hdepth _ ih | unary _ _ hdepth _ ih | leftFails _ _ _ hdepth _ ih =>
    rw [evaluate, Environment.enter_visit_eq_ok.2 ⟨hdepth, rfl⟩]
    simp only [ih]
  | rightFails _ _ hdepth _ _ ihl ihr | binary _ _ hdepth _ _ ihl ihr =>
    rw [evaluate, Environment.enter_visit_eq_ok.2 ⟨hdepth, rfl⟩]
    simp only [ihl, ihr]

/-- An evaluation adds to the journal of its environment and changes nothing else. -/
theorem Evaluates.sameButJournal (h : t.Evaluates env result t' env') :
    env.SameButJournal env' := by
  induction h with
  | literal | bound | unbound | unaryTooDeep | binaryTooDeep =>
    exact Environment.sameButJournal_visit _
  | operandFails _ _ _ _ ih | unary _ _ _ _ ih | leftFails _ _ _ _ _ ih => exact ih.leave
  | rightFails _ _ _ _ _ ihl ihr => exact (ihl.trans ihr).leave
  | binary op _ _ _ _ ihl ihr =>
    exact ((ihl.trans ihr).trans (Environment.sameButJournal_combine _ op _ _)).leave

theorem evaluate_env (t : Tree) (env : Environment) : env.SameButJournal (t.evaluate env).env :=
  (t.evaluates env).sameButJournal

/-! ### Results -/

/-- The result of the tree if operators may be nested to any depth. -/
def outcome (env : Environment) : Tree → Except EvalError Value
  | literal value => .ok value
  | reference name _ => (env.lookup name).mapError .runtime
  | unary op _ operand => (operand.outcome env).bind op.onValue
  | binary op _ left right =>
    (left.outcome env).bind fun l => (right.outcome env).bind fun r => (env.combine op l r).1

/-- The greatest number of operators on a path from the root to a leaf. -/
def height : Tree → Nat
  | literal _ | reference _ _ => 0
  | unary _ _ operand => operand.height + 1
  | binary _ _ left right => max left.height right.height + 1

/-- The depth and the journal of the environment play no part in the outcome. -/
theorem outcome_eq (t : Tree) (h : env.SameRules env') : t.outcome env' = t.outcome env := by
  induction t with
  | literal => rfl
  | reference name => rw [outcome, outcome, h.lookup_eq]
  | unary op _ operand ih => rw [outcome, outcome, ih]
  | binary op _ left right ihl ihr => simp only [outcome, ihl, ihr, h.combine_eq]

/-- An operand that is nested too deeply makes the tree nested too deeply. -/
theorem lt_of_operand (hlimits : env'.limits = env.limits) (hdepth : env'.depth = env.depth + 1)
    (hoperand : operand.height < t.height)
    (h : env'.limits.maxDepth < env'.depth + operand.height) :
    env.limits.maxDepth < env.depth + t.height := by
  rw [hlimits, hdepth] at h
  omega

/-- The result of an evaluation is the outcome of the tree, unless the operators
    are nested too deeply for the environment and the limit ends the evaluation. -/
theorem Evaluates.result_eq (h : t.Evaluates env result t' env') : result = t.outcome env ∨
    env.limits.maxDepth < env.depth + t.height ∧
      ∃ depth maxDepth, result = .error (.limit (.tooDeep depth maxDepth)) := by
  induction h with
  | literal v env => exact .inl rfl
  | bound _ h => exact .inl (by rw [outcome, h]; rfl)
  | unbound _ h => exact .inl (by rw [outcome, h]; rfl)
  | unaryTooDeep op seen operand h => exact .inr ⟨by rw [height]; omega, _, _, rfl⟩
  | @operandFails _ _ env _ _ op seen _ _ ih =>
    -- The operand is evaluated one level deeper, where the same rules apply.
    rw [outcome_eq _ env.sameRules_inside] at ih
    rcases ih with ih | ⟨hheight, he⟩
    · exact .inl (by rw [outcome, ← ih]; rfl)
    · exact .inr ⟨lt_of_operand env.sameRules_inside.limits rfl (by rw [height]; omega) hheight, he⟩
  | @unary _ _ env _ _ op seen _ _ ih =>
    rw [outcome_eq _ env.sameRules_inside] at ih
    rcases ih with ih | ⟨_, _, _, he⟩
    · exact .inl (by rw [outcome, ← ih]; rfl)
    · cases he
  | binaryTooDeep op seen left right h => exact .inr ⟨by rw [height]; omega, _, _, rfl⟩
  | @leftFails _ _ env _ _ op seen _ _ _ ih =>
    rw [outcome_eq _ env.sameRules_inside] at ih
    rcases ih with ih | ⟨hheight, he⟩
    · exact .inl (by rw [outcome, ← ih]; rfl)
    · exact .inr ⟨lt_of_operand env.sameRules_inside.limits rfl (by rw [height]; omega) hheight, he⟩
  | @rightFails _ _ _ _ env env' _ _ _ op seen _ hl _ ihl ihr =>
    -- The right operand is evaluated where the left one has ended, at the same level.
    have hrules := env.sameRules_inside.trans hl.sameButJournal.toSameRules
    rw [outcome_eq _ env.sameRules_inside] at ihl
    rw [outcome_eq _ hrules] at ihr
    rcases ihl with ihl | ⟨_, _, _, he⟩
    · rcases ihr with ihr | ⟨hheight, he⟩
      · exact .inl (by rw [outcome, ← ihl, ← ihr]; rfl)
      · exact .inr ⟨lt_of_operand hrules.limits hl.sameButJournal.depth (by rw [height]; omega)
          hheight, he⟩
    · cases he
  | @binary _ _ _ _ env env' env'' l r op seen _ hl hr ihl ihr =>
    have hrules := env.sameRules_inside.trans hl.sameButJournal.toSameRules
    rw [outcome_eq _ env.sameRules_inside] at ihl
    rw [outcome_eq _ hrules] at ihr
    rcases ihl with ihl | ⟨_, _, _, he⟩
    · rcases ihr with ihr | ⟨_, _, _, he⟩
      · refine .inl ?_
        rw [outcome, ← ihl, ← ihr]
        exact (hrules.trans hr.sameButJournal.toSameRules).combine_eq op l r
      · cases he
    · cases he

/-- A limit that allows all of the operators plays no part in the result. -/
theorem evaluate_result_of_height_le (h : env.depth + t.height ≤ env.limits.maxDepth) :
    (t.evaluate env).result = t.outcome env := by
  rcases (t.evaluates env).result_eq with heq | ⟨hlt, _⟩
  · exact heq
  · omega

/-! ### Evaluations in another environment -/

/-- What lets a tree go through its evaluation in a second environment as well. A tree and two
    environments that are related agree on the variables and on the depth, and the relation
    passes to the operands of the tree, wherever these are evaluated. The operands are then
    combined alike, unless the first environment gives an error that `stops` the evaluation. -/
structure Transfers (R : Tree → Environment → Environment → Prop) (stops : EvalError → Prop) :
    Prop where
  lookup_eq {t : Tree} {env other : Environment} : R t env other →
    ∀ name, other.lookup name = env.lookup name
  maxDepth {t : Tree} {env other : Environment} : R t env other →
    other.limits.maxDepth = env.limits.maxDepth
  depth {t : Tree} {env other : Environment} : R t env other → other.depth = env.depth
  operand {op : Operator} {seen : Observation} {operand : Tree} {env other : Environment} :
    R (.unary op seen operand) env other → R operand env.inside other.inside
  left {op : Operator} {seen : Observation} {left right : Tree} {env other : Environment} :
    R (.binary op seen left right) env other → R left env.inside other.inside
  right {op : Operator} {seen : Observation} {left right : Tree}
    {env other env' other' : Environment} : R (.binary op seen left right) env other →
    env.inside.SameButJournal env' → other.inside.SameButJournal other' → R right env' other'
  combine {op : Operator} {seen : Observation} {left right left' right' : Tree}
    {env other env' env'' other'' : Environment} {l r : Value} :
    R (.binary op seen left right) env other →
    left.Evaluates env.inside (.ok l) left' env' → right.Evaluates env' (.ok r) right' env'' →
    other.inside.SameButJournal other'' →
    (∃ e, (env''.combine op l r).1 = .error e ∧ stops e) ∨
      (other''.combine op l r).1 = (env''.combine op l r).1

/-- An evaluation ends with an error that stops it, or takes place in the other environment
    as well. -/
theorem Evaluates.transfer {R : Tree → Environment → Environment → Prop}
    {stops : EvalError → Prop} (hR : Transfers R stops) (h : t.Evaluates env result t' env')
    {other : Environment} (ht : R t env other) :
    (∃ e, result = .error e ∧ stops e) ∨ ∃ other', t.Evaluates other result t' other' := by
  induction h generalizing other with
  | literal v => exact .inr ⟨_, .literal v other⟩
  | bound lastKind h =>
    rw [← hR.lookup_eq ht] at h
    exact .inr ⟨_, .bound lastKind h⟩
  | unbound lastKind h =>
    rw [← hR.lookup_eq ht] at h
    exact .inr ⟨_, .unbound lastKind h⟩
  | unaryTooDeep op seen operand h =>
    rw [← hR.maxDepth ht, ← hR.depth ht] at h ⊢
    exact .inr ⟨_, .unaryTooDeep op seen operand h⟩
  | operandFails op seen hdepth _ ih =>
    rw [← hR.maxDepth ht, ← hR.depth ht] at hdepth
    refine (ih (hR.operand ht)).imp_right fun ⟨_, h⟩ => ?_
    exact ⟨_, .operandFails op seen hdepth h⟩
  | unary op seen hdepth _ ih =>
    rw [← hR.maxDepth ht, ← hR.depth ht] at hdepth
    obtain ⟨_, hvalue, _⟩ | ⟨_, h⟩ := ih (hR.operand ht)
    · cases hvalue
    · exact .inr ⟨_, .unary op seen hdepth h⟩
  | binaryTooDeep op seen left right h =>
    rw [← hR.maxDepth ht, ← hR.depth ht] at h ⊢
    exact .inr ⟨_, .binaryTooDeep op seen left right h⟩
  | leftFails op seen right hdepth _ ih =>
    rw [← hR.maxDepth ht, ← hR.depth ht] at hdepth
    refine (ih (hR.left ht)).imp_right fun ⟨_, h⟩ => ?_
    exact ⟨_, .leftFails op seen right hdepth h⟩
  | rightFails op seen hdepth hleft _ ihl ihr =>
    rw [← hR.maxDepth ht, ← hR.depth ht] at hdepth
    obtain ⟨_, hvalue, _⟩ | ⟨_, hl⟩ := ihl (hR.left ht)
    · cases hvalue
    refine (ihr (hR.right ht hleft.sameButJournal hl.sameButJournal)).imp_right fun ⟨_, hr⟩ => ?_
    exact ⟨_, .rightFails op seen hdepth hl hr⟩
  | binary op seen hdepth hleft hright ihl ihr =>
    rw [← hR.maxDepth ht, ← hR.depth ht] at hdepth
    obtain ⟨_, hvalue, _⟩ | ⟨_, hl⟩ := ihl (hR.left ht)
    · cases hvalue
    obtain ⟨_, hvalue, _⟩ | ⟨_, hr⟩ := ihr (hR.right ht hleft.sameButJournal hl.sameButJournal)
    · cases hvalue
    -- Both evaluations come to the combination with the same operands.
    have hother := hl.sameButJournal.trans hr.sameButJournal
    refine (hR.combine ht hleft hright hother).imp_right fun hsame => ?_
    rw [← hsame]
    exact ⟨_, .binary op seen hdepth hl hr⟩

/-- If no error stops an evaluation, it takes place in the other environment as well. -/
theorem Evaluates.transfer_unstopped {R : Tree → Environment → Environment → Prop}
    (hR : Transfers R fun _ => False) (h : t.Evaluates env result t' env') {other : Environment}
    (ht : R t env other) : ∃ other', t.Evaluates other result t' other' := by
  obtain ⟨_, _, hstops⟩ | hresult := h.transfer hR ht
  · exact hstops.elim
  · exact hresult

theorem transfers_sameButJournal :
    Transfers (fun _ env other => env.SameButJournal other) fun _ => False where
  lookup_eq h := h.lookup_eq
  maxDepth h := congrArg Limits.maxDepth h.limits
  depth h := h.depth
  operand h := h.inside
  left h := h.inside
  right h := h.inside.later
  combine h hl hr hother :=
    .inr ((h.inside.later (hl.sameButJournal.trans hr.sameButJournal) hother).combine_eq _ _ _)

/-- The journal plays no part in an evaluation. -/
theorem Evaluates.of_sameButJournal (h : t.Evaluates env result t' env') {other : Environment}
    (hother : env.SameButJournal other) : ∃ other', t.Evaluates other result t' other' :=
  h.transfer_unstopped transfers_sameButJournal hother

/-! ### The tree as it was built -/

/-- The tree as it was built, before any of its nodes has been evaluated. -/
def fresh : Tree → Tree
  | literal value => .literal value
  | reference name _ => ofName name
  | unary op _ operand => ofUnary op operand.fresh
  | binary op _ left right => ofBinary op left.fresh right.fresh

@[simp]
theorem height_fresh (t : Tree) : t.fresh.height = t.height := by
  induction t with
  | literal | reference => rfl
  | unary op _ operand ih => rw [fresh, ofUnary, height, height, ih]
  | binary op _ left right ihl ihr => rw [fresh, ofBinary, height, height, ihl, ihr]

/-- An evaluation does not change how the tree was built. -/
theorem Evaluates.fresh_eq (h : t.Evaluates env result t' env') : t'.fresh = t.fresh := by
  induction h with
  | literal | bound | unbound | unaryTooDeep | binaryTooDeep => rfl
  | operandFails _ _ _ _ ih | unary _ _ _ _ ih => rw [fresh, fresh, ih]
  | leftFails _ _ _ _ _ ih => rw [fresh, fresh, ih]
  | rightFails _ _ _ _ _ ihl ihr | binary _ _ _ _ _ ihl ihr => rw [fresh, fresh, ihl, ihr]

@[simp]
theorem fresh_evaluate (t : Tree) (env : Environment) : (t.evaluate env).tree.fresh = t.fresh :=
  (t.evaluates env).fresh_eq

/-- The tree as it was built goes through the same evaluation. -/
theorem Evaluates.of_fresh (h : t.Evaluates env result t' env') :
    ∃ u, t.fresh.Evaluates env result u env' := by
  induction h with
  | literal v env => exact ⟨_, .literal v env⟩
  | bound _ h => exact ⟨_, .bound _ h⟩
  | unbound _ h => exact ⟨_, .unbound _ h⟩
  | unaryTooDeep op _ _ h => exact ⟨_, .unaryTooDeep op _ _ h⟩
  | operandFails op _ hdepth _ ih =>
    obtain ⟨_, h⟩ := ih
    exact ⟨_, .operandFails op _ hdepth h⟩
  | unary op _ hdepth _ ih =>
    obtain ⟨_, h⟩ := ih
    exact ⟨_, .unary op _ hdepth h⟩
  | binaryTooDeep op _ _ _ h => exact ⟨_, .binaryTooDeep op _ _ _ h⟩
  | leftFails op _ _ hdepth _ ih =>
    obtain ⟨_, h⟩ := ih
    exact ⟨_, .leftFails op _ _ hdepth h⟩
  | rightFails op _ hdepth _ _ ihl ihr =>
    obtain ⟨_, hl⟩ := ihl
    obtain ⟨_, hr⟩ := ihr
    exact ⟨_, .rightFails op _ hdepth hl hr⟩
  | binary op _ hdepth _ _ ihl ihr =>
    obtain ⟨_, hl⟩ := ihl
    obtain ⟨_, hr⟩ := ihr
    exact ⟨_, .binary op _ hdepth hl hr⟩

/-- Neither what the nodes remember nor the journal plays a part in the result of
    an evaluation. -/
theorem result_evaluate_fresh (t : Tree) (h : env.SameButJournal env') :
    (t.fresh.evaluate env').result = (t.evaluate env).result := by
  obtain ⟨_, hother⟩ := (t.evaluates env).of_sameButJournal h
  obtain ⟨_, hfresh⟩ := hother.of_fresh
  rw [hfresh.evaluate_eq]

/-! ### How deeply a tree has been entered -/

/-- All operators that have observed anything are among the given number of outermost levels. -/
def ObservedWithin : Tree → Nat → Prop
  | literal _, _ | reference _ _, _ => True
  | unary _ seen operand, levels =>
    (seen ≠ .pending → 0 < levels) ∧ operand.ObservedWithin (levels - 1)
  | binary _ seen left right, levels =>
    (seen ≠ .pending → 0 < levels) ∧ left.ObservedWithin (levels - 1) ∧
      right.ObservedWithin (levels - 1)

theorem observedWithin_fresh (t : Tree) (levels : Nat) : t.fresh.ObservedWithin levels := by
  induction t generalizing levels with
  | literal | reference => trivial
  | unary _ _ _ ih => exact ⟨fun h => absurd rfl h, ih _⟩
  | binary _ _ _ _ ihl ihr => exact ⟨fun h => absurd rfl h, ihl _, ihr _⟩

/-- An evaluation enters no more levels than the limit leaves. -/
theorem Evaluates.observedWithin (h : t.Evaluates env result t' env')
    (ht : t.ObservedWithin (env.limits.maxDepth - env.depth)) :
    t'.ObservedWithin (env.limits.maxDepth - env.depth) := by
  induction h with
  | literal | bound | unbound => trivial
  | unaryTooDeep | binaryTooDeep => exact ht
  | operandFails _ _ _ _ ih => exact ⟨ht.1, ih ht.2⟩
  | unary _ _ hdepth _ ih =>
    -- The operator has been entered, so there was a level left for it.
    exact ⟨fun _ => by omega, ih ht.2⟩
  | leftFails _ _ _ _ _ ih => exact ⟨ht.1, ih ht.2.1, ht.2.2⟩
  | rightFails _ _ _ hl _ ihl ihr =>
    rw [hl.sameButJournal.limits, hl.sameButJournal.depth] at ihr
    exact ⟨ht.1, ihl ht.2.1, ihr ht.2.2⟩
  | binary _ _ hdepth hl _ ihl ihr =>
    rw [hl.sameButJournal.limits, hl.sameButJournal.depth] at ihr
    exact ⟨fun _ => by omega, ihl ht.2.1, ihr ht.2.2⟩

/-- A tree that has settled on a kind has been entered as deeply as its operators
    are nested. -/
theorem SettledOn.height_le {k : ScalarKind} {levels : Nat} (h : t.SettledOn k)
    (ht : t.ObservedWithin levels) : t.height ≤ levels := by
  induction h generalizing levels with
  | literal | reference => exact Nat.zero_le _
  | unary _ _ ih =>
    have hlevels := ht.1 (by simp)
    have hoperand := ih ht.2
    rw [height]
    omega
  | binary _ _ ihl ihr =>
    have hlevels := ht.1 (by simp)
    have hleft := ihl ht.2.1
    have hright := ihr ht.2.2
    rw [height]
    omega

end Tree

end AdaptiveArith
