import AdaptiveArith.Proofs.Evaluation
import AdaptiveArith.Proofs.Machine
import AdaptiveArith.Proofs.Texts

/-!
# How deep an evaluation goes

An evaluation leaves every operator that it has entered, whether it ends with a value or
with an error of whatever kind, so the environment afterwards has the depth of the one
before, and differs from it in the journal only. What has been added to the journal tells
how deep the evaluation was on the way (`Event.Between`, `Tree.Evaluates.goesBetween`):

* at no node deeper than the limit on nesting, and
* at every operator that it left deeper than where it had started, so never at depth zero.

If the error is that operators are nested too deeply, then the evaluation had just come
to an operator at the depth of the limit, and the error names this depth twice, or else
it is the answer of the overloader, which had just been asked (`Tree.Evaluates.of_tooDeep`).
No operator finds this error in its operands (`Operator.combine?_ne_tooDeep`).

`Tree.depths_evaluate` puts all of this together.
-/

namespace AdaptiveArith

/-! ### What happens between two depths -/

/-- The event happens between two depths, and not at the lower one if an operator is left. -/
def Event.Between (low high : Nat) : Event → Prop
  | visited depth => low ≤ depth ∧ depth ≤ high
  | left depth => low < depth ∧ depth ≤ high
  | consulted .. => True

theorem Event.Between.of_le {low low' high : Nat} {event : Event} (h : event.Between low' high)
    (hle : low ≤ low') : event.Between low high := by
  cases event with
  | visited => exact ⟨hle.trans h.1, h.2⟩
  | left => exact ⟨hle.trans_lt h.1, h.2⟩
  | consulted => trivial

namespace Environment

variable {env env' after : Environment} {low low' high : Nat} {event : Event}

/-- From one environment to the other, all that happens happens between two depths. -/
def GoesBetween (low high : Nat) (env after : Environment) : Prop :=
  ∃ events, after.journal = events ++ env.journal ∧ ∀ event ∈ events, event.Between low high

theorem GoesBetween.trans (h : env.GoesBetween low high env')
    (h' : env'.GoesBetween low high after) : env.GoesBetween low high after := by
  obtain ⟨events, hjournal, hevents⟩ := h
  obtain ⟨events', hjournal', hevents'⟩ := h'
  refine ⟨events' ++ events, by rw [hjournal', hjournal, List.append_assoc], ?_⟩
  exact List.forall_mem_append.2 ⟨hevents', hevents⟩

theorem GoesBetween.of_le (h : env.GoesBetween low' high after) (hle : low ≤ low') :
    env.GoesBetween low high after := by
  obtain ⟨events, hjournal, hevents⟩ := h
  exact ⟨events, hjournal, fun event hevent => (hevents event hevent).of_le hle⟩

/-- A single event happens. -/
theorem goesBetween_of_journal (hjournal : after.journal = event :: env.journal)
    (hevent : event.Between low high) : env.GoesBetween low high after :=
  ⟨[event], hjournal, List.forall_mem_singleton.2 hevent⟩

theorem goesBetween_visit (h : env.depth ≤ high) : env.GoesBetween env.depth high env.visit :=
  goesBetween_of_journal rfl ⟨le_rfl, h⟩

theorem goesBetween_combine (env : Environment) (op : Operator) (l r : Value) :
    env.GoesBetween low high (env.combine op l r).2 := by
  unfold combine
  split
  · exact ⟨[], rfl, List.forall_mem_nil _⟩
  · have hevent : (Event.consulted op l.kind r.kind).Between low high := trivial
    exact goesBetween_of_journal rfl hevent

/-- An operator is entered, its operands go on from its depth, and it is left. -/
theorem GoesBetween.leave (h : env.inside.GoesBetween env.inside.depth high after)
    (hsame : env.inside.SameButJournal after) (hdepth : env.depth < high) :
    env.GoesBetween env.depth high after.leave := by
  have hvisit : env.GoesBetween env.depth high env.inside := goesBetween_visit hdepth.le
  have hleft : (Event.left after.depth).Between env.depth high := by
    rw [hsame.depth]
    exact ⟨Nat.lt_succ_self _, hdepth⟩
  exact (hvisit.trans (h.of_le (Nat.le_succ _))).trans (goesBetween_of_journal rfl hleft)

/-! ### What happened last -/

/-- What happened last, apart from operators being left. -/
def latest? (env : Environment) : Option Event :=
  env.journal.find? fun event => match event with
    | .left _ => false
    | .visited _ | .consulted .. => true

@[simp]
theorem latest?_visit (env : Environment) : env.visit.latest? = some (.visited env.depth) := rfl

@[simp]
theorem latest?_leave (env : Environment) : env.leave.latest? = env.latest? := rfl

end Environment

/-! ### The limits operators know -/

namespace Operator

variable {op : Operator} {v : Value} {e : LimitError}

/-- An operator on two values does not know how deeply operators are nested. -/
theorem combine?_ne_tooDeep (op : Operator) (maxLength : Option Nat) (l r : Value)
    (depth maxDepth : Nat) :
    op.combine? maxLength l r ≠ some (.error (.limit (.tooDeep depth maxDepth))) := by
  intro h
  unfold combine? at h
  split at h
  next m n _ _ => cases hresult : op.onNumbers m n <;> rw [hresult] at h <;> cases h
  next =>
    split at h
    next s count _ =>
      exact Text.repeated_ne_tooDeep _ _ _ _ _ (map_eq_error_iff.1 (Option.some.inj h))
    next s t _ =>
      exact (Text.makes_joined _ _ _).ne_tooDeep _ _ (map_eq_error_iff.1 (Option.some.inj h))
    next => cases h

/-- An operator on one value knows no limit. -/
theorem onValue_ne_limit : op.onValue v ≠ .error (.limit e) := by
  intro h
  unfold onValue at h
  split at h
  · cases h
  · split at h
    next p _ => cases hresult : op.onScalar p <;> rw [hresult] at h <;> cases h
    next => cases h
    next => cases h

end Operator

/-! ### Evaluations -/

namespace Environment

/-- If a combination fails because operators are nested too deeply, the overloader was
    asked, and said so. -/
theorem consulted_of_tooDeep {env : Environment} {op : Operator} {l r : Value}
    {depth maxDepth : Nat}
    (h : (env.combine op l r).1 = .error (.limit (.tooDeep depth maxDepth))) :
    (env.combine op l r).2.latest? = some (.consulted op l.kind r.kind) ∧
      env.overloader op l r = .error (.limit (.tooDeep depth maxDepth)) := by
  unfold combine at h ⊢
  split at h
  next result hresult =>
    change result = _ at h
    rw [h] at hresult
    exact absurd hresult (op.combine?_ne_tooDeep _ _ _ _ _)
  next => exact ⟨rfl, h⟩

end Environment

namespace Tree

variable {t t' : Tree} {env env' : Environment} {result : Except EvalError Value}

/-- Nodes are visited from where the evaluation starts down to the limit. -/
theorem Evaluates.goesBetween (h : t.Evaluates env result t' env')
    (hdepth : env.depth ≤ env.limits.maxDepth) :
    env.GoesBetween env.depth env.limits.maxDepth env' := by
  induction h with
  | literal | bound | unbound | unaryTooDeep | binaryTooDeep =>
    exact Environment.goesBetween_visit hdepth
  | operandFails _ _ hlt hinner ih | unary _ _ hlt hinner ih | leftFails _ _ _ hlt hinner ih =>
    exact (ih hlt).leave hinner.sameButJournal hlt
  | rightFails op seen hlt hl hr ihl ihr =>
    -- The right operand starts where the left one has started.
    have hsame := hl.sameButJournal
    rw [hsame.depth, hsame.limits] at ihr
    exact ((ihl hlt).trans (ihr hlt)).leave (hsame.trans hr.sameButJournal) hlt
  | @binary _ _ _ _ _ _ env'' l r op _ hlt hl hr ihl ihr =>
    have hsame := hl.sameButJournal
    rw [hsame.depth, hsame.limits] at ihr
    have hoperands := (ihl hlt).trans (ihr hlt)
    exact (hoperands.trans (env''.goesBetween_combine op l r)).leave
      ((hsame.trans hr.sameButJournal).trans (env''.sameButJournal_combine op l r)) hlt

/-- Where the error comes from that operators are nested too deeply. -/
theorem Evaluates.of_tooDeep {depth maxDepth : Nat} (h : t.Evaluates env result t' env')
    (hdepth : env.depth ≤ env.limits.maxDepth)
    (hresult : result = .error (.limit (.tooDeep depth maxDepth))) :
    (env'.latest? = some (.visited env.limits.maxDepth) ∧ depth = env.limits.maxDepth ∧
      maxDepth = env.limits.maxDepth) ∨
    ∃ op l r, env'.latest? = some (.consulted op l.kind r.kind) ∧
      env.overloader op l r = .error (.limit (.tooDeep depth maxDepth)) := by
  induction h with
  | literal | bound | unbound => cases hresult
  | unaryTooDeep _ _ _ hle | binaryTooDeep _ _ _ _ hle =>
    cases hresult
    have heq := Nat.le_antisymm hdepth hle
    rw [Environment.latest?_visit, heq]
    exact .inl ⟨rfl, rfl, rfl⟩
  | operandFails _ _ hlt _ ih | leftFails _ _ _ hlt _ ih =>
    rw [Environment.latest?_leave]
    exact ih hlt hresult
  | unary => exact absurd hresult Operator.onValue_ne_limit
  | rightFails _ _ hlt hl _ _ ihr =>
    have hsame := hl.sameButJournal
    rw [hsame.depth, hsame.limits, hsame.overloader] at ihr
    rw [Environment.latest?_leave]
    exact ihr hlt hresult
  | binary op _ _ hl hr =>
    obtain ⟨hlatest, hoverloader⟩ := Environment.consulted_of_tooDeep hresult
    rw [(hl.sameButJournal.trans hr.sameButJournal).overloader] at hoverloader
    exact .inr ⟨op, _, _, hlatest, hoverloader⟩

/-- An evaluation leaves its environment as it was, up to the journal, and goes between its
    depth and the limit. If it ends because operators are nested too deeply, it has reached
    the limit, and names it as the depth, unless the overloader says so. -/
theorem depths_evaluate (t : Tree) (h : env.depth ≤ env.limits.maxDepth) :
    env.SameButJournal (t.evaluate env).env ∧
    env.GoesBetween env.depth env.limits.maxDepth (t.evaluate env).env ∧
    ∀ depth maxDepth, (t.evaluate env).result = .error (.limit (.tooDeep depth maxDepth)) →
      ((t.evaluate env).env.latest? = some (.visited env.limits.maxDepth) ∧
        depth = env.limits.maxDepth ∧ maxDepth = env.limits.maxDepth) ∨
      ∃ op l r, (t.evaluate env).env.latest? = some (.consulted op l.kind r.kind) ∧
        env.overloader op l r = .error (.limit (.tooDeep depth maxDepth)) := by
  have hrules := t.evaluates env
  refine ⟨hrules.sameButJournal, hrules.goesBetween h, fun depth maxDepth hresult => ?_⟩
  exact hrules.of_tooDeep h hresult

/-- The right operand of an operator is nested too deeply, and the operator is left again. -/
theorem depths_evaluate_rightTooDeep :
    let env : Environment := { limits := { maxDepth := 4 }, depth := 3 }
    let run := (ofBinary .add (.literal (.scalar (.int32 1)))
      (ofUnary .sub (.literal (.scalar (.int32 2))))).evaluate env
    run.result = .error (.limit (.tooDeep 4 4)) ∧
      run.env.journal = [.left 4, .visited 4, .visited 4, .visited 3] ∧
      env.SameButJournal run.env ∧ env.GoesBetween 3 4 run.env :=
  ⟨rfl, rfl, (depths_evaluate _ (by decide)).1, (depths_evaluate _ (by decide)).2.1⟩

end Tree

end AdaptiveArith
