import AdaptiveArith.Proofs.Adaptive

/-!
# Interpretations that are counted

An adaptive expression counts the interpretations that have given a value since code was
last discarded. To say so, we record what an expression does on each command
(`AdaptiveExpr.Act`): a run by code that falls back discards the code first and then
interprets the tree. The count is the number of successes in this history since the last
time that code was discarded (`AdaptiveExpr.interpretations_eq_successes`).

An expression that is left to compile by itself has code only while the count exceeds
what its mode asks for (`AdaptiveExpr.Runs.isDue`): discarding the code takes the count
away as well. A run that fails counts for nothing (`AdaptiveExpr.Runs.of_error`).
-/

namespace AdaptiveArith

namespace AdaptiveExpr

variable {x : AdaptiveExpr} {env : Environment} {run : AdaptiveRun} {command : Command}
  {commands : List Command}

/-! ### The history of an expression -/

/-- What an expression does. -/
inductive Act
  /-- It discards its code. -/
  | discards
  /-- It runs its code, the outcome of which is that of the run. -/
  | executes
  /-- It interprets its tree, in a run that gives a value or fails. -/
  | interprets (succeeds : Bool)
  deriving DecidableEq

/-- What the expression does on a command. -/
def acts (x : AdaptiveExpr) : Command → List Act
  | .run env =>
    match x.compiled? with
    | none => [.interprets (x.run env).result.isOk]
    | some code =>
      if x.options.mode = .mixed ∧ (code.execute env).isOk = false then
        [.discards, .interprets (x.run env).result.isOk]
      else [.executes]
  | .discard => [.discards]
  | .compile | .withOptions _ => []

/-- What the expression does on a number of commands. -/
def history (x : AdaptiveExpr) : List Command → List Act
  | [] => []
  | command :: commands => x.acts command ++ (x.perform command).history commands

/-- The number of interpretations with a value since code was last discarded, or since
    the beginning. -/
def successes (acts : List Act) : Nat :=
  (acts.reverse.takeWhile (· ≠ .discards)).count (.interprets true)

/-- The number of successes after another act. -/
def Act.tally (successes : Nat) : Act → Nat
  | discards => 0
  | executes | interprets false => successes
  | interprets true => successes + 1

theorem successes_concat (acts : List Act) (act : Act) :
    successes (acts ++ [act]) = act.tally (successes acts) := by
  rw [successes, List.reverse_concat, successes]
  cases act with
  | discards => simp [Act.tally]
  | executes => simp [Act.tally]
  | interprets succeeds => cases succeeds <;> simp [Act.tally]

theorem foldl_tally (acts : List Act) : acts.foldl Act.tally 0 = successes acts := by
  induction acts using List.reverseRecOn with
  | nil => rfl
  | append_singleton acts act ih => rw [List.foldl_append, ih, successes_concat]; rfl

/-! ### The count -/

theorem Tries.interpretations_eq {attempt : Bool × AdaptiveExpr} (h : x.Tries attempt) :
    attempt.2.interpretations = x.interpretations := by
  cases h <;> rfl

theorem Interprets.interpretations_eq (h : x.Interprets env run) :
    run.expression.interpretations =
      (Act.interprets run.result.isOk).tally x.interpretations := by
  cases h with
  | failed => rfl
  | early => rfl
  | due => exact (x.counted env).tries.interpretations_eq

/-- The acts of a run account for the count after it. -/
theorem interpretations_run (x : AdaptiveExpr) (env : Environment) :
    (x.run env).expression.interpretations =
      (x.acts (.run env)).foldl Act.tally x.interpretations := by
  have hruns := x.runs env
  rw [acts]
  generalize x.run env = run at hruns ⊢
  cases hruns with
  | interpreted hcode =>
    rw [hcode]
    exact (x.interprets env).interpretations_eq
  | @executed code hcode hfails =>
    have hexecutes : ¬(x.options.mode = .mixed ∧ (code.execute env).isOk = false) := by
      rintro ⟨hmode, hexecute⟩
      cases he : code.execute env with
      | ok v => rw [he] at hexecute; cases hexecute
      | error e => exact hfails e he hmode
    rw [hcode]
    simp only [if_neg hexecutes]
    rfl
  | fellBack hcode hmode hexecute =>
    simp only [hcode, hmode, hexecute]
    exact (x.discard.interprets env).interpretations_eq

/-- The acts on a command account for the count after it. -/
theorem interpretations_perform (x : AdaptiveExpr) (command : Command) :
    (x.perform command).interpretations = (x.acts command).foldl Act.tally x.interpretations := by
  cases command with
  | run env => exact x.interpretations_run env
  | compile => exact x.tries.interpretations_eq
  | discard | withOptions => rfl

theorem interpretations_eq_foldl (x : AdaptiveExpr) (commands : List Command) :
    (x.performAll commands).interpretations =
      (x.history commands).foldl Act.tally x.interpretations := by
  induction commands generalizing x with
  | nil => rfl
  | cons command commands ih =>
    rw [history, List.foldl_append, ← interpretations_perform]
    exact ih (x.perform command)

/-- An expression that has counted nothing yet goes on to count its successes since code
    was last discarded. -/
theorem interpretations_eq_successes (h : x.interpretations = 0) (commands : List Command) :
    (x.performAll commands).interpretations = successes (x.history commands) := by
  rw [interpretations_eq_foldl, h, foldl_tally]

/-! ### Code that was due -/

theorem isDue_tryCompile (x : AdaptiveExpr) : x.tryCompile.2.isDue = x.isDue := by
  rw [isDue, isDue, options_tryCompile, x.tries.interpretations_eq]

/-- Code that comes from an interpretation was due. -/
theorem Interprets.isDue (h : x.Interprets env run) (hcode : x.compiled? = none)
    (hcompiled : run.expression.isCompiled = true) : run.expression.isDue = true := by
  cases h with
  | failed | early => simp [isCompiled, observed, counted, hcode] at hcompiled
  | due _ hdue => exact (isDue_tryCompile _).trans hdue

/-- Runs keep code only while it is due. -/
theorem Runs.isDue (h : x.Runs env run) (hx : x.isCompiled = true → x.isDue = true)
    (hcompiled : run.expression.isCompiled = true) : run.expression.isDue = true := by
  cases h with
  | interpreted hcode => exact (x.interprets env).isDue hcode hcompiled
  | executed => exact hx hcompiled
  | fellBack => exact (x.discard.interprets env).isDue rfl hcompiled

/-- The commands run the expression or discard its code, and nothing else. -/
def RunOrDiscard (commands : List Command) : Prop :=
  ∀ command ∈ commands, command = .discard ∨ ∃ env, command = .run env

theorem RunOrDiscard.keepsOptions (h : RunOrDiscard commands) : KeepsOptions commands := by
  intro options hmem
  rcases h _ hmem with h | ⟨_, h⟩ <;> cases h

theorem isDue_performAll (hx : x.isCompiled = true → x.isDue = true) (h : RunOrDiscard commands) :
    (x.performAll commands).isCompiled = true → (x.performAll commands).isDue = true := by
  refine List.foldlRecOn (motive := fun y : AdaptiveExpr => y.isCompiled = true → y.isDue = true)
    commands _ hx ?_
  intro y hy command hmem
  rcases h command hmem with rfl | ⟨env, rfl⟩
  · exact fun hcompiled => by simp [perform, discard, isCompiled] at hcompiled
  · exact (y.runs env).isDue hy

/-! ### Runs that fail -/

theorem Interprets.of_error {e : Failure} (h : x.Interprets env run) (he : run.result = .error e) :
    run.expression = x.observed env := by
  cases h with
  | failed => rfl
  | early | due => cases he

/-- A run that fails adds to no count and does not make code. -/
theorem Runs.of_error {e : Failure} (h : x.Runs env run) (he : run.result = .error e) :
    run.expression.interpretations ≤ x.interpretations ∧ run.expression.failures ≤ x.failures ∧
      ∀ code, run.expression.compiled? = some code → x.compiled? = some code := by
  cases h with
  | interpreted =>
    rw [(x.interprets env).of_error he]
    exact ⟨le_rfl, le_rfl, fun _ => id⟩
  | executed => exact ⟨le_rfl, le_rfl, fun _ => id⟩
  | fellBack =>
    rw [(x.discard.interprets env).of_error he]
    exact ⟨Nat.zero_le _, le_rfl, fun _ h => nomatch h⟩

/-- Code appears only after enough interpretations. Whenever a new expression has been run,
    in any environments, and its code discarded, in any order:

    * its count is the number of runs that have interpreted the tree and given a value
      since the beginning, since code was last discarded on command, or since a `mixed`
      expression last fell back, whichever is the latest; the interpretation to which it
      fell back is among them;
    * if there is code, then the expression is not `off`, and the count exceeds one for an
      `immediate` expression and the warm-up for a `mixed` one;
    * a run that fails adds to no count and does not make code. -/
theorem interpretations_performAll (t : Tree) (options : AdaptiveOptions)
    (commands : List Command) (h : RunOrDiscard commands) :
    let start : AdaptiveExpr := { root := t, options }
    let x := start.performAll commands
    x.interpretations = successes (start.history commands) ∧
      (x.isCompiled = true → options.mode ≠ .off ∧
        (options.mode = .immediate → 1 < x.interpretations) ∧
        (options.mode = .mixed → options.warmup < x.interpretations)) ∧
      ∀ env e, (x.run env).result = .error e →
        (x.run env).expression.interpretations ≤ x.interpretations ∧
          (x.run env).expression.failures ≤ x.failures ∧
          ∀ code, (x.run env).expression.compiled? = some code → x.compiled? = some code := by
  intro start x
  refine ⟨interpretations_eq_successes rfl commands, fun hcompiled => ?_,
    fun env _ he => (x.runs env).of_error he⟩
  have hoptions : x.options = options := options_performAll h.keepsOptions
  have hdue : x.isDue = true := isDue_performAll (nofun) h hcompiled
  rw [isDue, hoptions] at hdue
  cases hmode : options.mode with
  | off => simp [hmode] at hdue
  | immediate => simpa [hmode] using hdue
  | mixed => simpa [hmode] using hdue

/-- The third run is by code, and the fourth one falls back to repeating a text. -/
theorem interpretations_performAll_tripled :
    let five := Environment.set {} "x" (.scalar (.int32 5))
    let word := Environment.set {} "x" (.text "a")
    let start : AdaptiveExpr := { root := Tree.tripled.fresh, options := ⟨.mixed, 1, 1⟩ }
    let warm := start.performAll [.run five, .run five]
    let fallen := start.performAll [.run five, .run five, .run five, .run word]
    RunOrDiscard [.run five, .run five] ∧ warm.isCompiled = true ∧ 1 < warm.interpretations ∧
      RunOrDiscard [.run five, .run five, .run five, .run word] ∧
      start.history [.run five, .run five, .run five, .run word] =
        [.interprets true, .interprets true, .executes, .discards, .interprets true] ∧
      fallen.interpretations = 1 ∧
      (fallen.run {}).result = .error (.runtime (.unbound "x")) ∧
      (fallen.run {}).expression.interpretations ≤ fallen.interpretations := by
  intro five word start warm fallen
  have hwarm : RunOrDiscard [.run five, .run five] := by simp [RunOrDiscard]
  have hfallen : RunOrDiscard [.run five, .run five, .run five, .run word] := by
    simp [RunOrDiscard]
  obtain ⟨_, hdue, _⟩ := interpretations_performAll Tree.tripled.fresh ⟨.mixed, 1, 1⟩ _ hwarm
  obtain ⟨hcount, _, hfails⟩ :=
    interpretations_performAll Tree.tripled.fresh ⟨.mixed, 1, 1⟩ _ hfallen
  have hcompiled : warm.isCompiled = true := by
    unfold warm start five
    cbv
  have hhistory : start.history [.run five, .run five, .run five, .run word] =
      [.interprets true, .interprets true, .executes, .discards, .interprets true] := by
    unfold start five word
    cbv
  have hunbound : (fallen.run {}).result = .error (.runtime (.unbound "x")) := by
    unfold fallen start five word
    cbv
  refine ⟨hwarm, hcompiled, (hdue hcompiled).2.2 rfl, hfallen, hhistory, ?_, hunbound,
    (hfails _ _ hunbound).1⟩
  exact hcount.trans (by rw [hhistory]; rfl)

end AdaptiveExpr

end AdaptiveArith
