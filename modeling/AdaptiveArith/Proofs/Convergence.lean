import AdaptiveArith.Proofs.Adaptive
import AdaptiveArith.Proofs.Homogeneous
import AdaptiveArith.Proofs.Postorder

/-!
# Runs on values of one kind lead to code

An expression may have seen anything before: its nodes may remember any kinds, and it may
have counted, failed and fallen back any number of times. Yet runs that find the leaves of
its tree to be of one kind, and give values, lead to code
(`AdaptiveExpr.isCompiled_of_runsOnKind`):

* each interpretation makes the whole tree settle on the kind, whatever its nodes
  remembered, so that no attempt to compile fails (`AdaptiveExpr.Interprets.ready`);
* the code that comes of it meets the kind it expects and is kept
  (`AdaptiveExpr.Runs.expression_eq_of_ready`);
* until there is code, each run is counted, and the count comes to exceed what the mode
  asks for.
-/

namespace AdaptiveArith

namespace AdaptiveExpr

variable {x : AdaptiveExpr} {env : Environment} {envs first : List Environment}
  {run : AdaptiveRun} {k : ScalarKind} {code : Code} {v : Value}

/-- The expression after runs in a number of environments. -/
def runAll (x : AdaptiveExpr) (envs : List Environment) : AdaptiveExpr :=
  x.performAll (envs.map .run)

/-- The runs in the environments, one after the other, all give values, and in the
    environment of each of them the leaves of the tree are of the kind. -/
def RunsOnKind (k : ScalarKind) : AdaptiveExpr → List Environment → Prop
  | _, [] => True
  | x, env :: envs =>
    x.root.LeavesOfKind env k ∧ (∃ v, (x.run env).result = .ok v) ∧
      RunsOnKind k (x.run env).expression envs

theorem RunsOnKind.of_prefix (h : x.RunsOnKind k envs) (hfirst : first <+: envs) :
    x.RunsOnKind k first := by
  induction first generalizing x envs with
  | nil => trivial
  | cons env first ih =>
    obtain ⟨rest, rfl⟩ := hfirst
    exact ⟨h.1, h.2.1, ih h.2.2 (List.prefix_append _ _)⟩

/-! ### Expressions ready for a kind -/

/-- An attempt to compile can be made and finds room in the tables, and if there is code
    already, it is up to date and of the given kind. -/
structure Ready (k : ScalarKind) (x : AdaptiveExpr) : Prop where
  lt : x.compiled? = none → x.failures < x.options.maxFailures
  bounded : (Tables.ofLeaves x.root.leaves).Bounded
  upToDate : x.UpToDate
  settledOn : x.isCompiled = true → x.root.SettledOn k

theorem ready_of_compiled?_eq_none (hcode : x.compiled? = none)
    (hlt : x.failures < x.options.maxFailures)
    (hbounded : (Tables.ofLeaves x.root.leaves).Bounded) : x.Ready k :=
  ⟨fun _ => hlt, hbounded, upToDate_of_compiled?_eq_none hcode,
    fun h => by simp [isCompiled, hcode] at h⟩

theorem Ready.counted (h : x.Ready k) (hcode : x.compiled? = none) (env : Environment) :
    (x.counted env).Ready k := by
  refine ready_of_compiled?_eq_none hcode (h.lt hcode) ?_
  change (Tables.ofLeaves (x.root.evaluate env).tree.leaves).Bounded
  rw [Tree.leaves_evaluate]
  exact h.bounded

/-- An attempt to compile a tree that has settled on the kind gives code and no failure. -/
theorem Tries.ready {attempt : Bool × AdaptiveExpr} (h : x.Tries attempt) (hx : x.Ready k)
    (hcode : x.compiled? = none) (hsettled : x.root.SettledOn k) :
    attempt.2.Ready k ∧ attempt.2.isCompiled = true ∧ attempt.2.failures = x.failures := by
  obtain ⟨code, hcompile⟩ := (Tree.exists_compile_eq_ok_iff hsettled.isCompilable).2 hx.bounded
  have hupToDate := h.upToDate hx.upToDate
  cases h with
  | kept hkept => rw [hcode] at hkept; cases hkept
  | givenUp _ hle => exact absurd (hx.lt hcode) hle.not_gt
  | compiled => exact ⟨⟨nofun, hx.bounded, hupToDate, fun _ => hsettled⟩, rfl, rfl⟩
  | refused _ _ hrefused => rw [hcompile] at hrefused; cases hrefused

/-- An interpretation with leaves of the kind makes the tree settle on it. Either it is
    counted without an attempt to compile being due, or it leads to code. -/
theorem Interprets.ready (h : x.Interprets env run) (hx : x.Ready k) (hcode : x.compiled? = none)
    (ht : x.root.LeavesOfKind env k) (hv : run.result = .ok v) :
    run.expression.Ready k ∧ run.expression.failures = x.failures ∧
      (run.expression.isCompiled = true ∨ run.expression.isDue = false ∧
        run.expression.interpretations = x.interpretations + 1) := by
  have hcounted := hx.counted hcode env
  cases h with
  | failed => cases hv
  | early _ hdue => exact ⟨hcounted, rfl, .inr ⟨hdue, rfl⟩⟩
  | due hresult _ =>
    obtain ⟨hready, hcompiled, hfailures⟩ := (x.counted env).tries.ready hcounted hcode
      (((x.root.evaluates env).settledOn_iff hresult).2 ht)
    exact ⟨hready, hfailures, .inl hcompiled⟩

/-- Code for the kind is kept by a run with leaves of the kind that gives a value. -/
theorem Runs.expression_eq_of_ready (h : x.Runs env run) (hx : x.Ready k)
    (hcode : x.compiled? = some code) (ht : x.root.LeavesOfKind env k)
    (hv : run.result = .ok v) : run.expression = x := by
  cases h with
  | interpreted hnone => rw [hcode] at hnone; cases hnone
  | executed => rfl
  | @fellBack code' e hcode' _ hexecute =>
    obtain ⟨form, is, hsettled, _, hlowered⟩ := Tree.lowered_of_compile (hx.upToDate code' hcode')
    obtain rfl : form.kind = k :=
      hsettled.kind_eq (hx.settledOn (Option.isSome_iff_exists.2 ⟨code', hcode'⟩)).leavesKind
    -- The code has failed, so the tree has no outcome, but the interpretation has given a value.
    rw [hlowered.execute_eq_outcome ht] at hexecute
    rw [(x.discard.interprets env).result_eq] at hv
    change (x.root.evaluate env).result.mapError _ = .ok v at hv
    rcases (x.root.evaluates env).result_eq with houtcome | ⟨_, _, _, hdeep⟩
    · rw [houtcome, hexecute] at hv
      cases hv
    · rw [hdeep] at hv
      cases hv

/-! ### Counting up to code -/

/-- There is code, or no attempt to compile is due yet and so many interpretations have
    been counted. -/
def Nears (x : AdaptiveExpr) (count : Nat) : Prop :=
  x.isCompiled = true ∨ x.isDue = false ∧ count ≤ x.interpretations

/-- A run with leaves of the kind that gives a value leads to code or is counted, and no
    attempt to compile fails. -/
theorem Runs.ready (h : x.Runs env run) (hx : x.Ready k) (ht : x.root.LeavesOfKind env k)
    (hv : run.result = .ok v) {count : Nat}
    (hcount : x.isCompiled = true ∨ count ≤ x.interpretations) :
    run.expression.Ready k ∧ run.expression.failures = x.failures ∧
      run.expression.Nears (count + 1) := by
  cases hcode : x.compiled? with
  | some code =>
    rw [h.expression_eq_of_ready hx hcode ht hv]
    exact ⟨hx, rfl, .inl (Option.isSome_iff_exists.2 ⟨code, hcode⟩)⟩
  | none =>
    have hcount : count ≤ x.interpretations :=
      hcount.resolve_left fun hcompiled => by simp [isCompiled, hcode] at hcompiled
    cases h with
    | interpreted =>
      obtain ⟨hready, hfailures, hnears⟩ := (x.interprets env).ready hx hcode ht hv
      exact ⟨hready, hfailures, hnears.imp_right fun h => ⟨h.1, by omega⟩⟩
    | executed hsome | fellBack hsome => rw [hcode] at hsome; cases hsome

theorem Ready.runAll (hx : x.Ready k) (h : x.RunsOnKind k (env :: envs)) {count : Nat}
    (hcount : x.isCompiled = true ∨ count ≤ x.interpretations) :
    (x.runAll (env :: envs)).failures = x.failures ∧
      (x.runAll (env :: envs)).Nears (count + envs.length + 1) := by
  -- Whether an attempt to compile is due is known after a run, so that there has to be one.
  induction envs generalizing x env count with
  | nil =>
    obtain ⟨ht, ⟨v, hv⟩, _⟩ := h
    exact ((x.runs env).ready hx ht hv hcount).2
  | cons next envs ih =>
    obtain ⟨ht, ⟨v, hv⟩, hruns⟩ := h
    obtain ⟨hready, hfailures, hnears⟩ := (x.runs env).ready hx ht hv hcount
    obtain ⟨hfailures', hnears'⟩ := ih hready hruns (hnears.imp_right And.right)
    have hlength : count + (next :: envs).length + 1 = count + 1 + envs.length + 1 := by
      rw [List.length_cons]
      omega
    exact ⟨hfailures'.trans hfailures, hlength ▸ hnears'⟩

/-- An adaptive expression converges. In whatever state an expression without code is, if it
    may still attempt to compile and its tables have room for its leaves: after more runs
    than its warm-up, if it is `mixed`, or two runs, if it is `immediate`, all of which give
    values and find all literals and variables to be scalars of one kind, there is code.
    None of these runs adds to the attempts that have failed. -/
theorem isCompiled_of_runsOnKind (hcode : x.compiled? = none)
    (hfailures : x.failures < x.options.maxFailures)
    (htables : (Tables.ofLeaves x.root.leaves).Bounded) (hruns : x.RunsOnKind k envs)
    (hlength : x.options.mode = .mixed ∧ x.options.warmup + 1 ≤ envs.length ∨
      x.options.mode = .immediate ∧ 2 ≤ envs.length) :
    (x.runAll envs).isCompiled = true ∧
      ∀ first, first <+: envs → (x.runAll first).failures = x.failures := by
  have hready : x.Ready k := ready_of_compiled?_eq_none hcode hfailures htables
  constructor
  · have hoptions : (x.runAll envs).options = x.options :=
      options_performAll fun options => by simp
    cases envs with
    | nil => simp at hlength
    | cons env envs =>
      obtain ⟨_, hcompiled | ⟨hdue, hcount⟩⟩ := hready.runAll hruns (.inr (Nat.zero_le _))
      · exact hcompiled
      · -- So many runs have been counted that an attempt to compile is due.
        rw [isDue, hoptions] at hdue
        rw [List.length_cons] at hlength
        rcases hlength with ⟨hmode, hlength⟩ | ⟨hmode, hlength⟩
        · simp only [hmode, decide_eq_false_iff_not] at hdue
          omega
        · simp only [hmode, decide_eq_false_iff_not] at hdue
          omega
  · intro first hfirst
    cases first with
    | nil => rfl
    | cons env first => exact (hready.runAll (hruns.of_prefix hfirst) (.inr (Nat.zero_le _))).1

/-- The expression has been compiled for 32-bit integers and has fallen back, and an attempt
    to compile it for variables of different kinds has failed. -/
theorem isCompiled_of_runsOnKind_product :
    let ints := (Environment.set {} "x" (.scalar (.int32 5))).set "y" (.scalar (.int32 7))
    let longs := (Environment.set {} "x" (.scalar (.int64 5))).set "y" (.scalar (.int64 7))
    let start : AdaptiveExpr :=
      { root := .ofBinary .mul (.ofName "x") (.ofName "y"), options := ⟨.mixed, 1, 2⟩ }
    let x := start.performAll
      [.run ints, .run ints, .run (ints.set "y" (.scalar (.int64 7))), .compile]
    x.compiled? = none ∧ x.failures = 1 ∧ (Tables.ofLeaves x.root.leaves).Bounded ∧
      x.RunsOnKind .int64 [longs, longs] ∧ (x.runAll [longs, longs]).isCompiled = true ∧
      (x.runAll [longs, longs]).failures = 1 := by
  intro ints longs start x
  have hcode : x.compiled? = none := by
    unfold x start ints
    cbv
  have hfailures : x.failures = 1 := by
    unfold x start ints
    cbv
  have hleaves : x.root.leaves = [.reference "x", .reference "y"] := by
    unfold x start ints
    cbv
  have htables : (Tables.ofLeaves x.root.leaves).Bounded := by
    rw [hleaves]
    exact ⟨by decide, by decide⟩
  have hkind : ∀ t : Tree, t.leaves = [.reference "x", .reference "y"] →
      t.LeavesOfKind longs .int64 := by
    intro t ht
    rw [Tree.LeavesOfKind, ht, List.forall_mem_cons, List.forall_mem_singleton]
    exact ⟨⟨.int64 5, rfl, rfl⟩, ⟨.int64 7, rfl, rfl⟩⟩
  have hruns : x.RunsOnKind .int64 [longs, longs] := by
    refine ⟨hkind _ hleaves, ⟨.scalar (.int64 35), ?_⟩, hkind _ ?_, ⟨.scalar (.int64 35), ?_⟩,
      trivial⟩
    all_goals
      unfold x start ints longs
      cbv
  have hoptions : x.options = ⟨.mixed, 1, 2⟩ := options_performAll fun options => by simp
  obtain ⟨hcompiled, hsame⟩ := isCompiled_of_runsOnKind hcode
    (by rw [hfailures, hoptions]; decide) htables hruns
    (.inl (by rw [hoptions]; exact ⟨rfl, le_rfl⟩))
  exact ⟨hcode, hfailures, htables, hruns, hcompiled,
    (hsame _ (List.prefix_refl _)).trans hfailures⟩

end AdaptiveExpr

end AdaptiveArith
