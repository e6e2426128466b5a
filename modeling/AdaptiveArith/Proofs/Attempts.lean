import AdaptiveArith.Proofs.Adaptive

/-!
# Attempts to compile

An adaptive expression counts the attempts to compile that have failed, whatever
they have failed for and whoever has asked for them. A command adds at most one to
the count and takes nothing away (`AdaptiveExpr.failures_perform`). Two bounds hold
after every command (`AdaptiveExpr.Capped`): no more attempts have failed than the
options allow, and fewer than that if there is code.

So an expression that has used up its attempts is without code. As neither a run nor
discarding code gives an attempt back, it stays without code from then on
(`AdaptiveExpr.failures_performAll`).
-/

namespace AdaptiveArith

namespace AdaptiveExpr

variable {x : AdaptiveExpr} {env : Environment} {run : AdaptiveRun} {commands : List Command}
  {attempt : Bool × AdaptiveExpr}

/-! ### How the count grows -/

theorem Tries.failures (h : x.Tries attempt) :
    x.failures ≤ attempt.2.failures ∧ attempt.2.failures ≤ x.failures + 1 := by
  cases h with
  | kept | givenUp | compiled => exact ⟨le_rfl, Nat.le_succ _⟩
  | refused => exact ⟨Nat.le_succ _, le_rfl⟩

theorem Interprets.failures (h : x.Interprets env run) :
    x.failures ≤ run.expression.failures ∧ run.expression.failures ≤ x.failures + 1 := by
  cases h with
  | failed | early => exact ⟨le_rfl, Nat.le_succ _⟩
  | due => exact (x.counted env).tries.failures

theorem Runs.failures (h : x.Runs env run) :
    x.failures ≤ run.expression.failures ∧ run.expression.failures ≤ x.failures + 1 := by
  cases h with
  | interpreted => exact (x.interprets env).failures
  | executed => exact ⟨le_rfl, Nat.le_succ _⟩
  | fellBack => exact (x.discard.interprets env).failures

/-- A command gives no attempt back, and at most one attempt fails. -/
theorem failures_perform (x : AdaptiveExpr) (command : Command) :
    x.failures ≤ (x.perform command).failures ∧
      (x.perform command).failures ≤ x.failures + 1 := by
  cases command with
  | run env => exact (x.runs env).failures
  | compile => exact x.tries.failures
  | discard | withOptions => exact ⟨le_rfl, Nat.le_succ _⟩

theorem failures_le_performAll (x : AdaptiveExpr) (commands : List Command) :
    x.failures ≤ (x.performAll commands).failures :=
  List.foldlRecOn (motive := fun y : AdaptiveExpr => x.failures ≤ y.failures) commands _ le_rfl
    fun y hy command _ => hy.trans (y.failures_perform command).1

/-! ### The cap -/

/-- No more attempts have failed than the options allow, and there is one left if there
    is code. -/
structure Capped (x : AdaptiveExpr) : Prop where
  le : x.failures ≤ x.options.maxFailures
  lt_of_isCompiled : x.isCompiled = true → x.failures < x.options.maxFailures

theorem capped_of_compiled?_eq_none (hcode : x.compiled? = none)
    (hle : x.failures ≤ x.options.maxFailures) : x.Capped :=
  ⟨hle, fun h => by simp [isCompiled, hcode] at h⟩

theorem Tries.capped (h : x.Tries attempt) (hx : x.Capped) : attempt.2.Capped := by
  cases h with
  | kept | givenUp => exact hx
  | compiled _ hlt => exact ⟨hx.le, fun _ => hlt⟩
  | refused hcode hlt => exact capped_of_compiled?_eq_none hcode hlt

theorem Capped.discard (h : x.Capped) : x.discard.Capped :=
  capped_of_compiled?_eq_none rfl h.le

theorem Interprets.capped (h : x.Interprets env run) (hx : x.Capped) :
    run.expression.Capped := by
  have hcounted : (x.counted env).Capped := ⟨hx.le, hx.lt_of_isCompiled⟩
  cases h with
  | failed => exact ⟨hx.le, hx.lt_of_isCompiled⟩
  | early => exact hcounted
  | due => exact (x.counted env).tries.capped hcounted

theorem Runs.capped (h : x.Runs env run) (hx : x.Capped) : run.expression.Capped := by
  cases h with
  | interpreted => exact (x.interprets env).capped hx
  | executed => exact hx
  | fellBack => exact (x.discard.interprets env).capped hx.discard

theorem Capped.perform (h : x.Capped) {command : Command} (hcommand : KeepsOptions [command]) :
    (x.perform command).Capped := by
  cases command with
  | run env => exact (x.runs env).capped h
  | compile => exact x.tries.capped h
  | discard => exact h.discard
  | withOptions options => exact absurd (List.mem_singleton_self _) (hcommand options)

theorem Capped.performAll (h : x.Capped) (hcommands : KeepsOptions commands) :
    (x.performAll commands).Capped :=
  List.foldlRecOn (motive := AdaptiveExpr.Capped) commands _ h fun _ hy _ hmem =>
    hy.perform (hcommands.of_mem hmem)

/-- A capped expression that has used up its attempts is without code. -/
theorem Capped.compiled?_eq_none (h : x.Capped) (hfailures : x.failures = x.options.maxFailures) :
    x.compiled? = none := by
  refine Option.not_isSome_iff_eq_none.1 fun hcompiled => ?_
  exact absurd (h.lt_of_isCompiled hcompiled) hfailures.not_lt

/-- Without code and without attempts left, an attempt to compile is not made. -/
theorem tryCompile_of_le (hcode : x.compiled? = none) (h : x.options.maxFailures ≤ x.failures) :
    x.tryCompile = (false, x) := by
  simp [AdaptiveExpr.tryCompile, hcode, h]

/-- The verdict of an attempt is whether there is code afterwards. -/
theorem Tries.fst_eq_true_iff (h : x.Tries attempt) :
    attempt.1 = true ↔ attempt.2.isCompiled = true := by
  cases h with
  | kept hcode => simp [isCompiled, hcode]
  | givenUp hcode | refused hcode => simp [isCompiled, hcode]
  | compiled => simp [isCompiled]

/-- Attempts that have failed are capped, and giving up is permanent. Whatever commands a
    new expression has been given that leave its options as they are:

    * no more attempts have failed than the options allow, and fewer if there is code;
    * a command adds at most one to the count and takes nothing away;
    * once the attempts are used up, there is no code, and whatever commands follow,
      there is none and no attempt succeeds;
    * the verdict of an attempt is whether there is code afterwards. -/
theorem failures_performAll (t : Tree) (options : AdaptiveOptions) (commands : List Command)
    (h : KeepsOptions commands) :
    let x := performAll { root := t, options } commands
    x.failures ≤ options.maxFailures ∧
      (x.isCompiled = true → x.failures < options.maxFailures) ∧
      (∀ command, x.failures ≤ (x.perform command).failures ∧
        (x.perform command).failures ≤ x.failures + 1) ∧
      (x.failures = options.maxFailures → ∀ more, KeepsOptions more →
        (x.performAll more).failures = options.maxFailures ∧
          (x.performAll more).compiled? = none ∧ (x.performAll more).tryCompile.1 = false) ∧
      (x.tryCompile.1 = true ↔ x.tryCompile.2.isCompiled = true) := by
  intro x
  have hoptions : x.options = options := options_performAll h
  have hcapped : x.Capped :=
    (capped_of_compiled?_eq_none rfl (Nat.zero_le _)).performAll h
  refine ⟨hoptions ▸ hcapped.le, hoptions ▸ hcapped.lt_of_isCompiled, x.failures_perform, ?_,
    x.tries.fst_eq_true_iff⟩
  intro hfailures more hmore
  -- The count can neither fall below the cap again nor rise above it.
  have hoptions' : (x.performAll more).options = options :=
    (options_performAll hmore).trans hoptions
  have hcapped' := hcapped.performAll hmore
  have heq : (x.performAll more).failures = (x.performAll more).options.maxFailures :=
    hcapped'.le.antisymm (hoptions' ▸ hfailures ▸ x.failures_le_performAll more)
  have hcode := hcapped'.compiled?_eq_none heq
  exact ⟨heq.trans (by rw [hoptions']), hcode, by rw [tryCompile_of_le hcode heq.ge]⟩

/-- The only attempt is made too early, before anything has been observed. With an attempt
    more, the same commands end with code. -/
theorem failures_performAll_tripled :
    let env := Environment.set {} "x" (.scalar (.int32 5))
    let commands := [.compile, .run env, .run env, .run env]
    let hasty := performAll { root := Tree.tripled.fresh, options := ⟨.mixed, 1, 1⟩ } commands
    let patient := performAll { root := Tree.tripled.fresh, options := ⟨.mixed, 1, 2⟩ } commands
    KeepsOptions commands ∧ hasty.failures = 1 ∧ KeepsOptions [.discard] ∧
      (hasty.performAll [.discard]).failures = 1 ∧
      (hasty.performAll [.discard]).compiled? = none ∧
      (hasty.performAll [.discard]).tryCompile.1 = false ∧
      patient.isCompiled = true ∧ patient.failures < 2 := by
  intro env commands hasty patient
  have hcommands : KeepsOptions commands := fun options => by simp [commands]
  have hdiscard : KeepsOptions [.discard] := fun options => by simp
  obtain ⟨_, _, _, hgivenUp, _⟩ :=
    failures_performAll Tree.tripled.fresh ⟨.mixed, 1, 1⟩ commands hcommands
  obtain ⟨_, hlt, _⟩ := failures_performAll Tree.tripled.fresh ⟨.mixed, 1, 2⟩ commands hcommands
  have hfailures : hasty.failures = 1 := rfl
  have hcompiled : patient.isCompiled = true := by
    unfold patient
    cbv
  obtain ⟨hstays, hcode, hverdict⟩ := hgivenUp hfailures [.discard] hdiscard
  exact ⟨hcommands, hfailures, hdiscard, hstays, hcode, hverdict, hcompiled, hlt hcompiled⟩

end AdaptiveExpr

end AdaptiveArith
