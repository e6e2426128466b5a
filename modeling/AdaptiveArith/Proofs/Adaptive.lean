import AdaptiveArith.Adaptive
import AdaptiveArith.Proofs.Evaluation
import AdaptiveArith.Proofs.Lowering

/-!
# What an adaptive expression does

Rules for the operations on an adaptive expression, one for each thing that can
happen: an attempt to compile (`AdaptiveExpr.Tries`), an interpretation
(`AdaptiveExpr.Interprets`) and a run (`AdaptiveExpr.Runs`).

The users of an expression give it commands, in any order. Interpretations change
what the nodes of the tree have observed, and with it the code that the tree would
be compiled to. Yet the code that an expression keeps is always up to date
(`AdaptiveExpr.UpToDate`), because the tree is never interpreted while code is
kept.
-/

namespace AdaptiveArith

namespace AdaptiveExpr

/-! ### Rules -/

/-- An attempt to compile the expression ends with a verdict and an expression. -/
inductive Tries (x : AdaptiveExpr) : Bool × AdaptiveExpr → Prop
  /-- There is code already. -/
  | kept {code : Code} : x.compiled? = some code → Tries x (true, x)
  /-- Too many attempts have failed. -/
  | givenUp : x.compiled? = none → x.options.maxFailures ≤ x.failures → Tries x (false, x)
  /-- The tree is compiled. -/
  | compiled {code : Code} : x.compiled? = none → x.failures < x.options.maxFailures →
      x.root.compile = .ok code → Tries x (true, { x with compiled? := some code })
  /-- The tree cannot be compiled. -/
  | refused {e : CompileError} : x.compiled? = none → x.failures < x.options.maxFailures →
      x.root.compile = .error e → Tries x (false, { x with failures := x.failures + 1 })

/-- The expression after its tree has been interpreted. -/
def observed (x : AdaptiveExpr) (env : Environment) : AdaptiveExpr :=
  { x with root := (x.root.evaluate env).tree }

/-- The expression after its tree has been interpreted and has given a value. -/
def counted (x : AdaptiveExpr) (env : Environment) : AdaptiveExpr :=
  { x.observed env with interpretations := x.interpretations + 1 }

/-- An interpretation of the expression ends with an outcome. -/
inductive Interprets (x : AdaptiveExpr) (env : Environment) : AdaptiveRun → Prop
  /-- The interpretation fails. -/
  | failed {e : EvalError} : (x.root.evaluate env).result = .error e →
      Interprets x env ⟨.error (.ofEvalError e), x.observed env, (x.root.evaluate env).env⟩
  /-- The interpretation gives a value, and no attempt to compile is due. -/
  | early {v : Value} : (x.root.evaluate env).result = .ok v → (x.counted env).isDue = false →
      Interprets x env ⟨.ok v, x.counted env, (x.root.evaluate env).env⟩
  /-- The interpretation gives a value, and an attempt to compile follows. -/
  | due {v : Value} : (x.root.evaluate env).result = .ok v → (x.counted env).isDue = true →
      Interprets x env ⟨.ok v, (x.counted env).tryCompile.2, (x.root.evaluate env).env⟩

/-- A run of the expression ends with an outcome. -/
inductive Runs (x : AdaptiveExpr) (env : Environment) : AdaptiveRun → Prop
  /-- Without code, the expression is interpreted. -/
  | interpreted : x.compiled? = none → Runs x env (x.interpret env)
  /-- The outcome of the code is that of the run. -/
  | executed {code : Code} : x.compiled? = some code →
      (∀ e, code.execute env = .error e → x.options.mode ≠ .mixed) →
      Runs x env ⟨(code.execute env).mapError .ofEvalError, x, env⟩
  /-- The code fails and is discarded, and the expression is interpreted. -/
  | fellBack {code : Code} {e : EvalError} : x.compiled? = some code → x.options.mode = .mixed →
      code.execute env = .error e → Runs x env (x.discard.interpret env)

variable {x : AdaptiveExpr} {env : Environment} {run : AdaptiveRun} {code : Code}
  {attempt : Bool × AdaptiveExpr}

theorem tries (x : AdaptiveExpr) : x.Tries x.tryCompile := by
  fun_cases tryCompile x
  case case1 h =>
    obtain ⟨code, hcode⟩ := Option.isSome_iff_exists.1 h
    exact .kept hcode
  case case2 h hfailures => exact .givenUp (Option.not_isSome_iff_eq_none.1 h) hfailures
  case case3 h hfailures code hcompile =>
    exact .compiled (Option.not_isSome_iff_eq_none.1 h) (Nat.lt_of_not_le hfailures) hcompile
  case case4 h hfailures e hcompile =>
    exact .refused (Option.not_isSome_iff_eq_none.1 h) (Nat.lt_of_not_le hfailures) hcompile

theorem interprets (x : AdaptiveExpr) (env : Environment) : x.Interprets env (x.interpret env) := by
  fun_cases interpret x env
  case case1 e hresult => exact .failed hresult
  case case2 v hresult hcounted =>
    by_cases hdue : (x.counted env).isDue = true
    · exact if_pos hdue ▸ .due hresult hdue
    · exact if_neg hdue ▸ .early hresult (Bool.eq_false_iff.2 hdue)

theorem runs (x : AdaptiveExpr) (env : Environment) : x.Runs env (x.run env) := by
  fun_cases run x env
  case case1 hcode => exact .interpreted hcode
  case case2 code hcode v hexecute =>
    have hrun : x.Runs env ⟨(code.execute env).mapError .ofEvalError, x, env⟩ :=
      .executed hcode fun e he => by rw [hexecute] at he; cases he
    rwa [hexecute] at hrun
  case case3 code hcode e hexecute hmode => exact .fellBack hcode hmode hexecute
  case case4 code hcode e hexecute hmode =>
    have hrun : x.Runs env ⟨(code.execute env).mapError .ofEvalError, x, env⟩ :=
      .executed hcode fun _ _ => hmode
    rwa [hexecute] at hrun

/-! ### What operations keep -/

theorem Tries.root_eq (h : x.Tries attempt) : attempt.2.root = x.root := by
  cases h <;> rfl

theorem Tries.options_eq (h : x.Tries attempt) : attempt.2.options = x.options := by
  cases h <;> rfl

@[simp]
theorem root_tryCompile (x : AdaptiveExpr) : x.tryCompile.2.root = x.root := x.tries.root_eq

@[simp]
theorem options_tryCompile (x : AdaptiveExpr) : x.tryCompile.2.options = x.options :=
  x.tries.options_eq

theorem Interprets.result_eq (h : x.Interprets env run) :
    run.result = (x.root.evaluate env).result.mapError .ofEvalError := by
  cases h with
  | failed hresult | early hresult | due hresult => rw [hresult]; rfl

theorem Interprets.env_eq (h : x.Interprets env run) : run.env = (x.root.evaluate env).env := by
  cases h <;> rfl

theorem Interprets.root_eq (h : x.Interprets env run) :
    run.expression.root = (x.root.evaluate env).tree := by
  cases h with
  | failed | early => rfl
  | due => exact (x.counted env).root_tryCompile

theorem Interprets.options_eq (h : x.Interprets env run) :
    run.expression.options = x.options := by
  cases h with
  | failed | early => rfl
  | due => exact (x.counted env).options_tryCompile

theorem Runs.options_eq (h : x.Runs env run) : run.expression.options = x.options := by
  cases h with
  | interpreted => exact (x.interprets env).options_eq
  | executed => rfl
  | fellBack => exact (x.discard.interprets env).options_eq

/-! ### Expressions with code -/

/-- Where there is code, an attempt to compile does nothing. -/
theorem tryCompile_of_isCompiled (h : x.isCompiled = true) : x.tryCompile.2 = x := by
  rw [isCompiled] at h
  rw [tryCompile, if_pos h]

/-- A run by code leaves the expression as it was, whatever the code comes to, unless
    the mode is one that falls back. -/
theorem expression_run_of_isCompiled (h : x.isCompiled = true) (hmode : x.options.mode ≠ .mixed) :
    (x.run env).expression = x := by
  have hruns := x.runs env
  generalize x.run env = run at hruns ⊢
  cases hruns with
  | interpreted hcode =>
    rw [isCompiled, hcode] at h
    cases h
  | executed => rfl
  | fellBack _ hmixed => exact absurd hmixed hmode

/-! ### Code that is kept -/

/-- The code that is kept is what the tree would be compiled to now. -/
def UpToDate (x : AdaptiveExpr) : Prop :=
  ∀ code, x.compiled? = some code → x.root.compile = .ok code

theorem upToDate_of_compiled?_eq_none (h : x.compiled? = none) : x.UpToDate := by
  intro code hcode
  rw [h] at hcode
  cases hcode

theorem Tries.upToDate (h : x.Tries attempt) (hx : x.UpToDate) : attempt.2.UpToDate := by
  cases h with
  | kept | givenUp => exact hx
  | compiled _ _ hcompile =>
    intro code hcode
    rw [← Option.some.inj hcode]
    exact hcompile
  | refused hcode => exact upToDate_of_compiled?_eq_none hcode

/-- An interpretation observes anew, which is safe while there is no code. -/
theorem Interprets.upToDate (h : x.Interprets env run) (hcode : x.compiled? = none) :
    run.expression.UpToDate := by
  cases h with
  | failed | early => exact upToDate_of_compiled?_eq_none hcode
  | due => exact (x.counted env).tries.upToDate (upToDate_of_compiled?_eq_none hcode)

/-- A run either leaves the tree alone or is without code when it interprets it. -/
theorem Runs.upToDate (h : x.Runs env run) (hx : x.UpToDate) : run.expression.UpToDate := by
  cases h with
  | interpreted hcode => exact (x.interprets env).upToDate hcode
  | executed => exact hx
  | fellBack => exact (x.discard.interprets env).upToDate rfl

/-! ### Commands -/

/-- What the users of an expression can ask of it. -/
inductive Command
  /-- A run in an environment. -/
  | run (env : Environment)
  /-- An attempt to compile. -/
  | compile
  /-- The code is discarded. -/
  | discard
  /-- Other options. -/
  | withOptions (options : AdaptiveOptions)

/-- The expression after a command. -/
def perform (x : AdaptiveExpr) : Command → AdaptiveExpr
  | .run env => (x.run env).expression
  | .compile => x.tryCompile.2
  | .discard => x.discard
  | .withOptions options => x.withOptions options

/-- The expression after a number of commands. -/
def performAll (x : AdaptiveExpr) (commands : List Command) : AdaptiveExpr :=
  commands.foldl perform x

/-- No command changes the options. -/
def KeepsOptions (commands : List Command) : Prop := ∀ options, .withOptions options ∉ commands

theorem KeepsOptions.of_mem {command : Command} {commands : List Command}
    (h : KeepsOptions commands) (hmem : command ∈ commands) : KeepsOptions [command] := by
  intro options hoptions
  exact h options (List.mem_singleton.1 hoptions ▸ hmem)

theorem options_perform {command : Command} (h : KeepsOptions [command]) :
    (x.perform command).options = x.options := by
  cases command with
  | run env => exact (x.runs env).options_eq
  | compile => exact x.options_tryCompile
  | discard => rfl
  | withOptions options => exact absurd (List.mem_singleton_self _) (h options)

theorem options_performAll {commands : List Command} (h : KeepsOptions commands) :
    (x.performAll commands).options = x.options := by
  refine List.foldlRecOn (motive := fun y : AdaptiveExpr => y.options = x.options)
    commands _ rfl ?_
  intro y hy command hmem
  exact (options_perform (h.of_mem hmem)).trans hy

theorem UpToDate.perform (h : x.UpToDate) (command : Command) : (x.perform command).UpToDate := by
  cases command with
  | run env => exact (x.runs env).upToDate h
  | compile => exact x.tries.upToDate h
  | discard => exact upToDate_of_compiled?_eq_none rfl
  | withOptions => exact h

theorem UpToDate.performAll (h : x.UpToDate) (commands : List Command) :
    (x.performAll commands).UpToDate :=
  List.foldlRecOn (motive := AdaptiveExpr.UpToDate) commands _ h fun _ hy command _ =>
    hy.perform command

/-- Whatever commands a new expression has been given, in whatever environments
    and with whatever outcomes: if it keeps code, then its tree would be compiled
    to the same code now. -/
theorem compile_root_of_compiled (t : Tree) (commands : List Command)
    (h : (performAll { root := t } commands).compiled? = some code) :
    (performAll { root := t } commands).root.compile = .ok code :=
  (upToDate_of_compiled?_eq_none rfl).performAll commands code h

/-- The last run fails, and the code is kept. -/
theorem compile_root_of_compiled_tripled :
    let env := Environment.set {} "x" (.scalar (.int32 5))
    let commands := [.withOptions { mode := .immediate }, .run env, .run env, .run {}]
    (performAll { root := Tree.tripled.fresh } commands).compiled? = some Code.tripled ∧
      (performAll { root := Tree.tripled.fresh } commands).root.compile = .ok Code.tripled := by
  intro env commands
  have hcode : (performAll { root := Tree.tripled.fresh } commands).compiled? =
      some Code.tripled := by cbv
  exact ⟨hcode, compile_root_of_compiled _ commands hcode⟩

end AdaptiveExpr

end AdaptiveArith
