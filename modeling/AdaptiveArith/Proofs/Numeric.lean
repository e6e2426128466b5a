import AdaptiveArith.Environment.Overloads
import AdaptiveArith.Proofs.Leaves

/-!
# Numbers are not left to the host

The operators combine numbers themselves: the overloader of the environment is asked about
other operands only, and the limit on texts matters to texts only. An operator on numbers
gives a number again, if it gives a value. So if all leaves of a tree that have values have
numbers (`Tree.LeavesNumeric`), then all operands in its evaluation are numbers
(`Tree.Evaluates.isNumber`), and neither the overloader nor the limit on texts plays a part
in it (`Tree.evaluate_eq_of_leavesNumeric`): with others in their place
(`Environment.SameForNumbers`) the evaluation has the same result and leaves the same tree,
and no overloader is asked (`Environment.Unconsulted`).
-/

namespace AdaptiveArith

/-! ### What matters to numbers -/

namespace Environment

variable {env env' after : Environment}

/-- The two environments may differ in their overloaders, their limits on texts and their
    journals only. -/
structure SameForNumbers (env after : Environment) : Prop where
  «variables» : after.variables = env.variables
  maxDepth : after.limits.maxDepth = env.limits.maxDepth
  depth : after.depth = env.depth

theorem SameButJournal.sameForNumbers (h : env.SameButJournal after) : env.SameForNumbers after :=
  ⟨h.variables, congrArg Limits.maxDepth h.limits, h.depth⟩

theorem SameForNumbers.trans (h : env.SameForNumbers env') (h' : env'.SameForNumbers after) :
    env.SameForNumbers after :=
  ⟨h'.variables.trans h.variables, h'.maxDepth.trans h.maxDepth, h'.depth.trans h.depth⟩

theorem SameForNumbers.inside (h : env.SameForNumbers after) :
    env.inside.SameForNumbers after.inside :=
  ⟨h.variables, h.maxDepth, congrArg (· + 1) h.depth⟩

/-- Two environments stay the same for numbers, whatever happens in each of them. -/
theorem SameForNumbers.later (h : env.SameForNumbers after) {env' after' : Environment}
    (henv : env.SameButJournal env') (hafter : after.SameButJournal after') :
    env'.SameForNumbers after' :=
  (henv.symm.sameForNumbers.trans h).trans hafter.sameForNumbers

theorem SameForNumbers.lookup_eq (h : env.SameForNumbers after) (name : String) :
    after.lookup name = env.lookup name := by
  rw [lookup, lookup, get?, get?, h.variables]

/-- From one environment to the other, the overloader is never asked. -/
def Unconsulted (env after : Environment) : Prop :=
  ∃ events, after.journal = events ++ env.journal ∧ ∀ op l r, Event.consulted op l r ∉ events

theorem Unconsulted.trans (h : env.Unconsulted env') (h' : env'.Unconsulted after) :
    env.Unconsulted after := by
  obtain ⟨events, hjournal, hevents⟩ := h
  obtain ⟨events', hjournal', hevents'⟩ := h'
  refine ⟨events' ++ events, by rw [hjournal', hjournal, List.append_assoc], fun op l r hmem => ?_⟩
  rcases List.mem_append.1 hmem with hmem | hmem
  · exact hevents' op l r hmem
  · exact hevents op l r hmem

theorem unconsulted_visit (env : Environment) : env.Unconsulted env.visit :=
  ⟨[.visited env.depth], rfl, by simp⟩

/-- An operator is entered, and left without a question. -/
theorem Unconsulted.leave (h : env.inside.Unconsulted after) : env.Unconsulted after.leave := by
  have hvisit : env.Unconsulted env.inside := env.unconsulted_visit
  have hleave : after.Unconsulted after.leave := ⟨[.left after.depth], rfl, by simp⟩
  exact (hvisit.trans h).trans hleave

end Environment

/-! ### Operators on numbers -/

namespace Operator

variable {op : Operator} {l r v w : Value}

/-- An operator on one value gives nothing but numbers. -/
theorem isNumber_of_onValue (h : op.onValue w = .ok v) : v.isNumber = true := by
  unfold onValue at h
  split at h
  · cases h
  · split at h
    next =>
      obtain ⟨_, _, rfl⟩ := exists_of_map_eq_ok (eq_ok_of_mapError_eq_ok h)
      rfl
    next =>
      cases h
      rfl
    next => cases h

/-- An operator on two numbers gives nothing but numbers. -/
theorem isNumber_of_onNumbers {m n : Number} (h : op.onNumbers m n = .ok v) :
    v.isNumber = true := by
  unfold onNumbers at h
  split at h
  next =>
    obtain ⟨_, _, rfl⟩ := exists_of_map_eq_ok h
    rfl
  next =>
    obtain ⟨_, _, h⟩ := exists_of_bind_eq_ok h
    obtain ⟨_, _, h⟩ := exists_of_bind_eq_ok h
    obtain ⟨_, _, h⟩ := exists_of_bind_eq_ok h
    cases h
    rfl

/-- Whatever the limit on texts, an operator combines two numbers, and gives a number or an
    error. -/
theorem combine?_of_isNumber (op : Operator) (hl : l.isNumber = true) (hr : r.isNumber = true) :
    ∃ result : Except EvalError Value, (∀ maxLength, op.combine? maxLength l r = some result) ∧
      ∀ v, result = .ok v → v.isNumber = true := by
  obtain ⟨m, hm⟩ := Option.isSome_iff_exists.1 hl
  obtain ⟨n, hn⟩ := Option.isSome_iff_exists.1 hr
  refine ⟨(op.onNumbers m n).mapError .runtime, fun _ => ?_, fun v hv => ?_⟩
  · simp only [combine?, hm, hn]
  · exact isNumber_of_onNumbers (eq_ok_of_mapError_eq_ok hv)

end Operator

/-- Two numbers are combined alike in all environments, and these stay as they are. -/
theorem Environment.combine_of_isNumber {l r : Value} (op : Operator) (hl : l.isNumber = true)
    (hr : r.isNumber = true) :
    ∃ result : Except EvalError Value, (∀ env, combine env op l r = (result, env)) ∧
      ∀ v, result = .ok v → v.isNumber = true := by
  obtain ⟨result, hresult, hnumber⟩ := op.combine?_of_isNumber hl hr
  exact ⟨result, fun env => by rw [combine, hresult], hnumber⟩

/-! ### Trees over numbers -/

namespace Tree

variable {t t' left right operand : Tree} {env env' after : Environment} {op : Operator}
  {seen : Observation} {v : Value} {result : Except EvalError Value}

/-- All leaves of the tree that have values in the environment have numbers. -/
def LeavesNumeric (t : Tree) (env : Environment) : Prop :=
  ∀ leaf ∈ t.leaves, ∀ v, leaf.value? env = some v → v.isNumber = true

theorem LeavesNumeric.congr (ht : t.LeavesNumeric env) (h : after.variables = env.variables) :
    t.LeavesNumeric after := by
  intro leaf hleaf v hv
  refine ht leaf hleaf v ?_
  cases leaf with
  | literal => exact hv
  | reference =>
    rw [Leaf.value?, Environment.get?, h] at hv
    exact hv

theorem LeavesNumeric.of_unary (ht : (unary op seen operand).LeavesNumeric env) :
    operand.LeavesNumeric env.inside :=
  LeavesNumeric.congr (t := operand) ht rfl

theorem LeavesNumeric.of_binary (ht : (binary op seen left right).LeavesNumeric env) :
    left.LeavesNumeric env.inside ∧ right.LeavesNumeric env.inside := by
  obtain ⟨hleft, hright⟩ := List.forall_mem_append.1 ht
  exact ⟨LeavesNumeric.congr hleft rfl, LeavesNumeric.congr hright rfl⟩

/-- All values in the evaluation of a tree over numbers are numbers. -/
theorem Evaluates.isNumber (h : t.Evaluates env result t' env') (ht : t.LeavesNumeric env)
    (hresult : result = .ok v) : v.isNumber = true := by
  induction h generalizing v with
  | literal w =>
    cases hresult
    exact ht _ (List.mem_singleton_self _) _ rfl
  | bound _ hlookup =>
    cases hresult
    exact ht _ (List.mem_singleton_self _) _ (Leaf.value?_of_lookup hlookup)
  | unary => exact Operator.isNumber_of_onValue hresult
  | binary op _ _ hl _ ihl ihr =>
    obtain ⟨htl, htr⟩ := ht.of_binary
    obtain ⟨_, hcombined, hnumber⟩ := Environment.combine_of_isNumber op (ihl htl rfl)
      (ihr (htr.congr hl.sameButJournal.variables) rfl)
    rw [hcombined] at hresult
    exact hnumber v hresult
  | unbound | unaryTooDeep | operandFails | binaryTooDeep | leftFails | rightFails => cases hresult

/-- The values of two operands over numbers are combined alike in all environments. -/
theorem LeavesNumeric.combine {left' right' : Tree} {env'' : Environment} {l r : Value}
    (ht : (binary op seen left right).LeavesNumeric env)
    (hl : left.Evaluates env.inside (.ok l) left' env')
    (hr : right.Evaluates env' (.ok r) right' env'') :
    ∃ result, ∀ after, Environment.combine after op l r = (result, after) := by
  obtain ⟨htl, htr⟩ := ht.of_binary
  obtain ⟨result, hresult, _⟩ := Environment.combine_of_isNumber op (hl.isNumber htl rfl)
    (hr.isNumber (htr.congr hl.sameButJournal.variables) rfl)
  exact ⟨result, hresult⟩

/-- An evaluation of a tree over numbers asks no overloader. -/
theorem Evaluates.unconsulted (h : t.Evaluates env result t' env') (ht : t.LeavesNumeric env) :
    env.Unconsulted env' := by
  induction h with
  | literal | bound | unbound | unaryTooDeep | binaryTooDeep =>
    exact Environment.unconsulted_visit _
  | operandFails _ _ _ _ ih | unary _ _ _ _ ih => exact (ih ht.of_unary).leave
  | leftFails _ _ _ _ _ ih => exact (ih ht.of_binary.1).leave
  | rightFails _ _ _ hl _ ihl ihr =>
    obtain ⟨htl, htr⟩ := ht.of_binary
    exact ((ihl htl).trans (ihr (htr.congr hl.sameButJournal.variables))).leave
  | binary _ _ _ hl hr ihl ihr =>
    obtain ⟨htl, htr⟩ := ht.of_binary
    obtain ⟨_, hcombined⟩ := ht.combine hl hr
    rw [hcombined]
    exact ((ihl htl).trans (ihr (htr.congr hl.sameButJournal.variables))).leave

theorem transfers_leavesNumeric :
    Transfers (fun t env other => t.LeavesNumeric env ∧ env.SameForNumbers other)
      fun _ => False where
  lookup_eq h := h.2.lookup_eq
  maxDepth h := h.2.maxDepth
  depth h := h.2.depth
  operand h := ⟨h.1.of_unary, h.2.inside⟩
  left h := ⟨h.1.of_binary.1, h.2.inside⟩
  right h henv hother := ⟨h.1.of_binary.2.congr henv.variables, h.2.inside.later henv hother⟩
  combine h hl hr _ := by
    obtain ⟨_, hcombined⟩ := h.1.combine hl hr
    exact .inr (by rw [hcombined, hcombined])

/-- A tree over numbers goes through the same evaluation with another overloader, another
    limit on texts and another journal. -/
theorem Evaluates.of_sameForNumbers (h : t.Evaluates env result t' env')
    (ht : t.LeavesNumeric env) {other : Environment} (hother : env.SameForNumbers other) :
    ∃ other', t.Evaluates other result t' other' :=
  h.transfer_unstopped transfers_leavesNumeric ⟨ht, hother⟩

/-- If all leaves that have values have numbers, neither the overloader nor the limit on
    texts plays a part in an evaluation, and the overloader is never asked. -/
theorem evaluate_eq_of_leavesNumeric (ht : t.LeavesNumeric env)
    (hsame : env.SameForNumbers env') :
    (t.evaluate env').result = (t.evaluate env).result ∧
      (t.evaluate env').tree = (t.evaluate env).tree ∧
      env.Unconsulted (t.evaluate env).env ∧ env'.Unconsulted (t.evaluate env').env := by
  have hrules := t.evaluates env
  obtain ⟨after, hother⟩ := hrules.of_sameForNumbers ht hsame
  refine ⟨by rw [hother.evaluate_eq], by rw [hother.evaluate_eq], hrules.unconsulted ht, ?_⟩
  exact (t.evaluates env').unconsulted (ht.congr hsame.variables)

/-- A decimal is divided by zero. One overloader would answer and the other one refuse, and
    no text is short enough for the limit of the second environment. -/
theorem evaluate_eq_of_leavesNumeric_quotient :
    let t := ofBinary .div (ofBinary .mul (.literal (.decimal ⟨250, 2⟩)) (ofName "x"))
      (ofUnary .sub (ofName "y"))
    let env : Environment :=
      { «variables» := .insert (.insert .empty "x" (.scalar (.int64 3))) "y" (.decimal ⟨0, 1⟩)
        overloader := .takeLeft }
    let env' : Environment :=
      { env with
        overloader := .failing (.runtime (.refused "no"))
        limits := { maxTextLength := some 0 } }
    t.LeavesNumeric env ∧ env.SameForNumbers env' ∧
      (t.evaluate env).result = .error (.runtime .divisionByZero) ∧
      (t.evaluate env').result = (t.evaluate env).result ∧
      (t.evaluate env').tree = (t.evaluate env).tree ∧
      env.Unconsulted (t.evaluate env).env ∧ env'.Unconsulted (t.evaluate env').env := by
  intro t env env'
  have ht : t.LeavesNumeric env := by
    intro leaf hleaf v hv
    fin_cases hleaf <;> cases hv <;> rfl
  have hsame : env.SameForNumbers env' := ⟨rfl, rfl, rfl⟩
  exact ⟨ht, hsame, by cbv, evaluate_eq_of_leavesNumeric ht hsame⟩

end Tree

end AdaptiveArith
