import AdaptiveArith.Proofs.Adaptive
import AdaptiveArith.Proofs.Agreement

/-!
# Sessions

In a session, an expression is run again and again in one environment; between the
runs, variables are set, and the expression is compiled or its code discarded. A
session is coherent (`Session.Coherent`) with an environment in which nothing has
been done but setting the same variables:

* the environments differ in their journals only;
* the tree of the expression is still built as it was, and the code that is kept
  is that of the tree;
* no operator has observed anything at a level that the limit on nesting forbids.

Each action keeps a session coherent (`Session.Coherent.step`). The machine does not
check the limit on nesting, but code is only compiled from a tree all of whose
operators have been entered under that limit (`Session.Coherent.height_le`). Hence
code and interpretation agree in a session, unless a variable is of another kind
(`Session.Coherent.execute_eq`). Then a `mixed` expression falls back to the
interpretation, so that nobody can tell how it is run
(`Session.Coherent.result_run`). In the other modes the run fails
(`Session.Coherent.result_run_or_otherKind`), and the expression stays as it is from
the moment it has code until the code is discarded
(`Session.expression_after_of_isCompiled`).
-/

namespace AdaptiveArith

namespace Environment

variable {env after : Environment}

theorem SameButJournal.set (h : env.SameButJournal after) (name : String) (v : Value) :
    (env.set name v).SameButJournal (after.set name v) :=
  ⟨⟨congrArg (Bindings.insert · name v) h.variables, h.overloader, h.limits⟩, h.depth⟩

end Environment

@[simp]
theorem Tree.fresh_fresh (t : Tree) : t.fresh.fresh = t.fresh := by
  induction t with
  | literal | reference => rfl
  | unary op _ operand ih => simp only [fresh, ofUnary, ih]
  | binary op _ left right ihl ihr => simp only [fresh, ofBinary, ihl, ihr]

/-- An expression, and the environment it is run in. -/
structure Session where
  /-- The expression. -/
  expression : AdaptiveExpr
  /-- The environment. -/
  env : Environment

/-- The session after a run. -/
def AdaptiveRun.session (run : AdaptiveRun) : Session := ⟨run.expression, run.env⟩

namespace Session

/-- What can be done in a session. -/
inductive Action
  /-- A variable is set to a value. -/
  | set (name : String) (v : Value)
  /-- The expression is run. -/
  | run
  /-- An attempt to compile is made. -/
  | compile
  /-- The code is discarded. -/
  | discard

/-- The session after an action. -/
def step (s : Session) : Action → Session
  | .set name v => { s with env := s.env.set name v }
  | .run => (s.expression.run s.env).session
  | .compile => { s with expression := s.expression.tryCompile.2 }
  | .discard => { s with expression := s.expression.discard }

/-- The session after a number of actions. -/
def after (s : Session) (actions : List Action) : Session := actions.foldl step s

/-- The environment after an action of which only the setting of variables counts. -/
def Action.assign (env : Environment) : Action → Environment
  | .set name v => env.set name v
  | .run | .compile | .discard => env

/-- The environment after a number of actions of which only the setting of
    variables counts. -/
def assigned (env : Environment) (actions : List Action) : Environment :=
  actions.foldl Action.assign env

/-- A new session with a tree as it was built, in an environment in which no
    operator is being evaluated. -/
def start (t : Tree) (options : AdaptiveOptions) (env : Environment) : Session :=
  ⟨{ root := t.fresh, options }, { env with depth := 0 }⟩

/-! ### Coherence -/

/-- The session runs the tree with the options, in what is but for the journal the
    given environment. -/
structure Coherent (t : Tree) (options : AdaptiveOptions) (env : Environment) (s : Session) :
    Prop where
  options : s.expression.options = options
  fresh : s.expression.root.fresh = t.fresh
  observed : s.expression.root.ObservedWithin env.limits.maxDepth
  upToDate : s.expression.UpToDate
  agrees : env.SameButJournal s.env
  depth : env.depth = 0

variable {t : Tree} {options : AdaptiveOptions} {env : Environment} {s : Session} {code : Code}

theorem coherent_start (t : Tree) (options : AdaptiveOptions) (env : Environment) :
    (start t options env).Coherent t options { env with depth := 0 } where
  options := rfl
  fresh := t.fresh_fresh
  observed := t.observedWithin_fresh _
  upToDate := AdaptiveExpr.upToDate_of_compiled?_eq_none rfl
  agrees := ⟨⟨rfl, rfl, rfl⟩, rfl⟩
  depth := rfl

namespace Coherent

theorem discard (h : s.Coherent t options env) : (s.step .discard).Coherent t options env :=
  { h with upToDate := AdaptiveExpr.upToDate_of_compiled?_eq_none rfl }

/-- An interpretation observes nothing that the limit forbids, and leaves the
    environment as it was. -/
theorem interpret (h : s.Coherent t options env) (hcode : s.expression.compiled? = none) :
    (s.expression.interpret s.env).session.Coherent t options env := by
  have hinterprets := s.expression.interprets s.env
  refine ⟨hinterprets.options_eq.trans h.options, ?_, ?_, hinterprets.upToDate hcode, ?_, h.depth⟩
  · simpa [AdaptiveRun.session, hinterprets.root_eq] using h.fresh
  · -- No operator is being evaluated, so the limit leaves all of its levels.
    have hlevels : s.env.limits.maxDepth - s.env.depth = env.limits.maxDepth := by
      rw [h.agrees.limits, h.agrees.depth, h.depth, Nat.sub_zero]
    rw [AdaptiveRun.session, hinterprets.root_eq, ← hlevels]
    exact (s.expression.root.evaluates s.env).observedWithin (hlevels ▸ h.observed)
  · rw [AdaptiveRun.session, hinterprets.env_eq]
    exact h.agrees.trans (s.expression.root.evaluate_env s.env)

theorem run (h : s.Coherent t options env) : (s.step .run).Coherent t options env := by
  have hruns := s.expression.runs s.env
  rw [step]
  generalize s.expression.run s.env = run at hruns ⊢
  cases hruns with
  | interpreted hcode => exact h.interpret hcode
  | executed => exact h
  | fellBack => exact h.discard.interpret rfl

/-- Each action keeps a session coherent. -/
theorem step (h : s.Coherent t options env) (action : Action) :
    (s.step action).Coherent t options (action.assign env) := by
  cases action with
  | set name v =>
    exact { h with agrees := h.agrees.set name v }
  | run => exact h.run
  | compile =>
    refine ⟨?_, ?_, ?_, s.expression.tries.upToDate h.upToDate, h.agrees, h.depth⟩
    · simpa [Session.step] using h.options
    · simpa [Session.step] using h.fresh
    · simpa [Session.step, Action.assign] using h.observed
  | discard => exact h.discard

theorem after (h : s.Coherent t options env) (actions : List Action) :
    (s.after actions).Coherent t options (assigned env actions) := by
  induction actions generalizing s env with
  | nil => exact h
  | cons action actions ih => exact ih (h.step action)

/-! ### Runs -/

/-- Code is only kept for a tree whose operators the limit allows. -/
theorem height_le (h : s.Coherent t options env) (hcode : s.expression.compiled? = some code) :
    s.expression.root.height ≤ env.limits.maxDepth := by
  obtain ⟨_, _, hsettled, _, _⟩ := Tree.lowered_of_compile (h.upToDate code hcode)
  exact hsettled.height_le h.observed

/-- The code that is kept and the tree agree, unless a variable is of another kind. -/
theorem execute_eq (h : s.Coherent t options env) (hcode : s.expression.compiled? = some code) :
    code.execute s.env = (s.expression.root.evaluate s.env).result ∨
      ∃ k found, code.execute s.env = .error (.runtime (.otherKind k found)) := by
  obtain ⟨_, _, _, _, hlowered⟩ := Tree.lowered_of_compile (h.upToDate code hcode)
  rw [Tree.evaluate_result_of_height_le]
  · exact hlowered.execute_eq s.env
  · rw [h.agrees.limits, h.agrees.depth, h.depth, Nat.zero_add]
    exact h.height_le hcode

/-- An expression runs as its tree is evaluated, unless its code meets a variable of
    another kind and the mode is one that does not fall back. -/
theorem result_run_or_otherKind (h : s.Coherent t options env) :
    (s.expression.run s.env).result =
        (s.expression.root.evaluate s.env).result.mapError .ofEvalError ∨
      options.mode ≠ .mixed ∧
        ∃ k found, (s.expression.run s.env).result = .error (.runtime (.otherKind k found)) := by
  have hruns := s.expression.runs s.env
  generalize s.expression.run s.env = run at hruns ⊢
  cases hruns with
  | interpreted => exact .inl (s.expression.interprets s.env).result_eq
  | @executed code hcode hnotMixed =>
    rcases h.execute_eq hcode with heq | ⟨k, found, hmismatch⟩
    · exact .inl (by rw [heq])
    · -- A `mixed` expression would have fallen back.
      exact .inr ⟨h.options ▸ hnotMixed _ hmismatch, k, found, by rw [hmismatch]; rfl⟩
  | fellBack => exact .inl (s.expression.discard.interprets s.env).result_eq

/-- A `mixed` expression runs as its tree is evaluated. -/
theorem result_run (h : s.Coherent t options env) (hmode : options.mode = .mixed) :
    (s.expression.run s.env).result =
      (s.expression.root.evaluate s.env).result.mapError .ofEvalError :=
  h.result_run_or_otherKind.resolve_right fun hother => hother.1 hmode

/-- The tree as it was built is evaluated to the same result. -/
theorem result_evaluate (h : s.Coherent t options env) :
    (s.expression.root.evaluate s.env).result = (t.fresh.evaluate env).result := by
  rw [← h.fresh, Tree.result_evaluate_fresh _ h.agrees.symm]

end Coherent

/-- However a `mixed` expression has been run, compiled and reverted before: a run
    gives what the evaluation of the tree as it was built gives, in an environment
    in which nothing has been done but setting the variables. The environment of
    the session is that environment but for the journal. And if there is code, the
    limit allows all operators of the tree. -/
theorem run_eq_evaluate_of_mixed (t : Tree) (warmup maxFailures : Nat) (env : Environment)
    (actions : List Action) :
    let s := (start t ⟨.mixed, warmup, maxFailures⟩ env).after actions
    let current := assigned { env with depth := 0 } actions
    (s.expression.run s.env).result = (t.fresh.evaluate current).result.mapError .ofEvalError ∧
      current.SameButJournal s.env ∧
      (s.expression.isCompiled = true → t.height ≤ current.limits.maxDepth) := by
  intro s current
  have h : s.Coherent t ⟨.mixed, warmup, maxFailures⟩ current :=
    (coherent_start t _ env).after actions
  refine ⟨(h.result_run rfl).trans (congrArg _ h.result_evaluate), h.agrees, fun hcompiled => ?_⟩
  obtain ⟨code, hcode⟩ := Option.isSome_iff_exists.1 hcompiled
  rw [← t.height_fresh, ← h.fresh, Tree.height_fresh]
  exact h.height_le hcode

/-- The code that is kept expects an integer, and the run falls back to repeating a
    text. -/
theorem run_eq_evaluate_of_mixed_tripled :
    let actions := [.set "x" (.scalar (.int32 5)), .run, .run, .set "x" (.text "a")]
    let s := (start Tree.tripled ⟨.mixed, 1, 1⟩ {}).after actions
    s.expression.isCompiled = true ∧ Tree.tripled.height ≤ 1000 ∧
      (s.expression.run s.env).result = .ok (.text "aaa") := by
  intro actions s
  have hcompiled : s.expression.isCompiled = true := by cbv
  obtain ⟨hresult, _, hheight⟩ := run_eq_evaluate_of_mixed Tree.tripled 1 1 {} actions
  exact ⟨hcompiled, hheight hcompiled, hresult.trans (by cbv)⟩

/-! ### Expressions that have frozen -/

/-- Where there is code, an action changes nothing about the expression, unless it
    discards the code or the mode is one that falls back. -/
theorem expression_step_of_isCompiled (h : s.expression.isCompiled = true)
    (hmode : s.expression.options.mode ≠ .mixed) {action : Action} (haction : .discard ≠ action) :
    (s.step action).expression = s.expression := by
  cases action with
  | set => rfl
  | run => exact AdaptiveExpr.expression_run_of_isCompiled h hmode
  | compile => exact AdaptiveExpr.tryCompile_of_isCompiled h
  | discard => exact absurd rfl haction

theorem expression_after_of_isCompiled (h : s.expression.isCompiled = true)
    (hmode : s.expression.options.mode ≠ .mixed) {actions : List Action}
    (hactions : .discard ∉ actions) : (s.after actions).expression = s.expression := by
  induction actions generalizing s with
  | nil => rfl
  | cons action actions ih =>
    obtain ⟨haction, hactions⟩ := List.ne_and_not_mem_of_not_mem_cons hactions
    -- The first action leaves the expression alone, so that the others find the code again.
    have hstep := expression_step_of_isCompiled h hmode haction
    exact (ih (hstep ▸ h) (hstep ▸ hmode) hactions).trans hstep

/-- However an `immediate` expression has been run, compiled and reverted before: a
    run gives what the evaluation of the tree as it was built gives, in an environment
    in which nothing has been done but setting the variables, or it fails because a
    variable is of another kind than the code expects. The environment of the session
    is that environment but for the journal. And if there is code, then until it is
    discarded no action changes anything about the expression, neither its code nor
    its counts nor what its nodes remember. -/
theorem run_eq_evaluate_or_otherKind_of_immediate (t : Tree) (warmup maxFailures : Nat)
    (env : Environment) (actions : List Action) :
    let s := (start t ⟨.immediate, warmup, maxFailures⟩ env).after actions
    let current := assigned { env with depth := 0 } actions
    ((s.expression.run s.env).result = (t.fresh.evaluate current).result.mapError .ofEvalError ∨
        ∃ expected found,
          (s.expression.run s.env).result = .error (.runtime (.otherKind expected found))) ∧
      current.SameButJournal s.env ∧
      (s.expression.isCompiled = true → ∀ more, .discard ∉ more →
        (s.after more).expression = s.expression) := by
  intro s current
  have h : s.Coherent t ⟨.immediate, warmup, maxFailures⟩ current :=
    (coherent_start t _ env).after actions
  refine ⟨?_, h.agrees, fun hcompiled more hmore => ?_⟩
  · rw [← h.result_evaluate]
    exact h.result_run_or_otherKind.imp_right And.right
  · refine expression_after_of_isCompiled hcompiled ?_ hmore
    rw [h.options]
    exact AdaptiveMode.noConfusion

/-- The code that is kept expects an integer. The runs with a float fail, and the code
    is there for the next integer. -/
theorem run_eq_evaluate_or_otherKind_of_immediate_tripled :
    let actions := [.set "x" (.scalar (.int32 5)), .run, .run]
    let more := [.set "x" (.scalar (.float64 ⟨0⟩)), .run, .compile, .run]
    let s := (start Tree.tripled ⟨.immediate, 7, 1⟩ {}).after actions
    s.expression.isCompiled = true ∧ Action.discard ∉ more ∧
      (s.after more).expression = s.expression ∧
      ((s.after more).expression.run (s.after more).env).result =
        .error (.runtime (.otherKind .int32 (.scalar .float64))) := by
  intro actions more s
  have hcompiled : s.expression.isCompiled = true := by cbv
  have hmore : Action.discard ∉ more := by simp [more]
  obtain ⟨_, _, hfrozen⟩ := run_eq_evaluate_or_otherKind_of_immediate Tree.tripled 7 1 {} actions
  exact ⟨hcompiled, hmore, hfrozen hcompiled more hmore, by cbv⟩

end Session

end AdaptiveArith
