import AdaptiveArith.Proofs.StackTyping

/-!
# The declared size of the stack is exact

An instruction of any code asks for the size of the stack at its end only, when it pushes its
result (`Code.asksSizeLast_step`). So code with a larger stack does the same, unless the
smaller stack overflows (`Code.runFrom_withMaxStack`), and no run holds more slots than
declared (`Code.Reaches.length_le`).

Compiled code declares what its tree needs (`Tree.need`). It does need all of it: at some point
of the code the typing of the stack has as many forms (`Tree.Lowers.exists_peak`), and a run
that gives a value comes to this point. A smaller stack cannot hold what is there, so the run
overflows, and as the code never overflows the stack that it declares, a larger one makes no
difference (`Code.maxStack_exact_of_compile`).
-/

namespace AdaptiveArith

namespace Code

variable {code : Code} {env : Environment} {i : Instruction} {is js : List Instruction}
  {forms forms' : List Form} {stack stack' : List Slot} {m n : Nat} {v : Value}

/-- The code with another declared size of the stack. -/
def withMaxStack (code : Code) (m : Nat) : Code := { code with maxStack := m }

/-! ### When the size is asked for -/

/-- A stack is left, unless it has more slots than given. -/
def leaveWithin (m : Nat) (stack : List Slot) : Except EvalError Effect :=
  if stack.length ≤ m then .ok (.next stack) else .error (.code (.stackOverflow m))

/-- What is done for each size of the stack is the same up to its end: a stack is left within
    the size, or the size plays no part. -/
inductive AsksSizeLast : (Nat → Except EvalError Effect) → Prop
  | leaves (stack : List Slot) : AsksSizeLast fun m => leaveWithin m stack
  | fails (e : EvalError) : AsksSizeLast fun _ => .error e
  | returns (v : Value) : AsksSizeLast fun _ => .ok (.returned v)

namespace AsksSizeLast

variable {f : Nat → Except EvalError Effect}

/-- What comes first may fail, but does not know the size. -/
theorem bind {α : Type} (x : Except EvalError α) {f : α → Nat → Except EvalError Effect}
    (h : ∀ a, AsksSizeLast (f a)) : AsksSizeLast fun m => x >>= fun a => f a m := by
  cases x with
  | error e => exact .fails e
  | ok a => exact h a

theorem length_le (h : AsksSizeLast f) (hm : f m = .ok (.next stack)) : stack.length ≤ m := by
  cases h with
  | leaves left =>
    simp only [leaveWithin] at hm
    split at hm
    next hle =>
      cases hm
      exact hle
    next => cases hm
  | fails | returns => cases hm

/-- More room makes no difference, unless there is too little. -/
theorem eq_or_overflows (h : AsksSizeLast f) (hle : m ≤ n) :
    f n = f m ∨ f m = .error (.code (.stackOverflow m)) := by
  cases h with
  | leaves left =>
    by_cases hfits : left.length ≤ m
    · exact .inl ((if_pos (hfits.trans hle)).trans (if_pos hfits).symm)
    · exact .inr (if_neg hfits)
  | fails | returns => exact .inl rfl

end AsksSizeLast

theorem map_push (code : Code) (m : Nat) (slot : Slot) (rest : List Slot) :
    ((code.withMaxStack m).push slot rest).map .next = leaveWithin m (slot :: rest) := by
  change (if rest.length < m then _ else _ : Except EvalError (List Slot)).map _ =
    if rest.length < m then _ else _
  split <;> rfl

theorem asksSizeLast_push (slot : Slot) (rest : List Slot) :
    AsksSizeLast fun m => do return .next (← (code.withMaxStack m).push slot rest) := by
  have hpush (m : Nat) : (do return .next (← (code.withMaxStack m).push slot rest)) =
      leaveWithin m (slot :: rest) := by
    rw [← map_push]
    cases (code.withMaxStack m).push slot rest <;> rfl
  simp only [hpush]
  exact .leaves _

/-- An instruction asks for the size of the stack at its end only, when it pushes its result. -/
theorem asksSizeLast_step (code : Code) (env : Environment) (i : Instruction)
    (stack : List Slot) : AsksSizeLast fun m => (code.withMaxStack m).step env i stack := by
  cases i with
  | halt => exact .fails _
  | loadConstant index =>
    have hconstants (m : Nat) : (code.withMaxStack m).constants = code.constants := rfl
    simp only [step, map_push, hconstants]
    cases code.constants[index.toNat]? with
    | none => exact .fails _
    | some p => exact .leaves _
  | loadVariable index =>
    have hvariables (m : Nat) : (code.withMaxStack m).variables = code.variables := rfl
    simp only [step, map_push, hvariables]
    cases code.variables[index.toNat]? with
    | none => exact .fails _
    | some name =>
      dsimp only
      cases env.lookup name with
      | error e => exact .fails _
      | ok v => exact .leaves _
  | unbox byte =>
    simp only [step]
    cases ScalarKind.ofByte? byte with
    | none => exact .fails _
    | some kind =>
      refine .bind _ ?_
      rintro ⟨slot, rest⟩
      exact .bind _ fun _ => asksSizeLast_push _ _
  | binary kind byte =>
    simp only [step]
    cases Operator.ofByte? byte with
    | none => exact .fails _
    | some op =>
      refine .bind _ ?_
      rintro ⟨r, rest⟩
      refine .bind _ ?_
      rintro ⟨l, rest⟩
      dsimp only
      cases ScalarPair.ofSameKind? l r with
      | none => exact .fails _
      | some pair => exact .bind _ fun _ => asksSizeLast_push _ _
  | negate kind =>
    refine .bind _ ?_
    rintro ⟨operand, rest⟩
    exact .bind _ fun _ => asksSizeLast_push _ _
  | ret =>
    have hform (m : Nat) : (code.withMaxStack m).checkForm = code.checkForm := rfl
    simp only [step, hform]
    refine .bind _ ?_
    rintro ⟨slot, rest⟩
    exact .bind _ fun _ => .returns _

/-! ### Runs with stacks of different sizes -/

/-- A run goes on from wherever it comes to. -/
theorem Reaches.execute_eq (h : code.Reaches env is stack) :
    code.execute env = code.runFrom env is stack := by
  induction h with
  | start => rfl
  | next _ hstep ih => exact ih.trans (runFrom_of_next hstep)

/-- No run holds more slots than declared. -/
theorem Reaches.length_le (h : code.Reaches env is stack) : stack.length ≤ code.maxStack := by
  cases h with
  | start => exact Nat.zero_le _
  | next _ hstep => exact (code.asksSizeLast_step env _ _).length_le hstep

/-- A larger stack makes no difference to a run, unless the smaller one overflows. -/
theorem runFrom_withMaxStack (code : Code) (env : Environment) (hle : m ≤ n)
    (is : List Instruction) (stack : List Slot) :
    (code.withMaxStack n).runFrom env is stack = (code.withMaxStack m).runFrom env is stack ∨
      (code.withMaxStack m).runFrom env is stack = .error (.code (.stackOverflow m)) := by
  induction is generalizing stack with
  | nil => exact .inl rfl
  | cons i is ih =>
    rcases (code.asksSizeLast_step env i stack).eq_or_overflows hle with hsame | hoverflow
    · rw [runFrom, runFrom, hsame]
      cases (code.withMaxStack m).step env i stack with
      | error e => exact .inl rfl
      | ok effect =>
        cases effect with
        | next stack' => exact ih stack'
        | returned v => exact .inl rfl
    · exact .inr (runFrom_of_error hoverflow)

/-- Wherever a run comes to, it comes with a smaller stack, unless this one overflows. -/
theorem Reaches.withMaxStack (hle : m ≤ n) (h : (code.withMaxStack n).Reaches env is stack) :
    (code.withMaxStack m).Reaches env is stack ∨
      (code.withMaxStack m).execute env = .error (.code (.stackOverflow m)) := by
  induction h with
  | start => exact .inl .start
  | @next i is stack stack' _ hstep ih =>
    rcases ih with hreaches | hoverflow
    · rcases (code.asksSizeLast_step env i stack).eq_or_overflows hle with hsame | hoverflow
      · exact .inl (hreaches.next (hsame.symm.trans hstep))
      · exact .inr (hreaches.execute_eq.trans (runFrom_of_error hoverflow))
    · exact .inr hoverflow

/-- A run that holds more slots than a smaller stack has overflows it. -/
theorem Reaches.overflows (h : code.Reaches env is stack) (hlt : m < stack.length) :
    (code.withMaxStack m).execute env = .error (.code (.stackOverflow m)) := by
  have hle : m ≤ code.maxStack := hlt.le.trans h.length_le
  have hdeclared : (code.withMaxStack code.maxStack).Reaches env is stack := h
  rcases hdeclared.withMaxStack hle with hreaches | hoverflow
  · exact absurd hreaches.length_le (not_le.2 hlt)
  · exact hoverflow

/-! ### The peak of compiled code -/

/-- A run that gives a value comes to the end of code that turns its stack. -/
theorem Reaches.turnsAll (hturns : code.TurnsAll js forms forms') (hv : code.execute env = .ok v)
    (h : code.Reaches env (js ++ is) stack) (hstack : code.Holds stack forms) :
    ∃ stack', code.Reaches env is stack' ∧ code.Holds stack' forms' := by
  induction hturns generalizing stack with
  | nil => exact ⟨stack, h, hstack⟩
  | cons hturn _ ih =>
    rcases hturn.step hstack with ⟨_, hnext, hstack'⟩ | ⟨_, herror, _⟩
    · exact ih (h.next hnext) hstack'
    · rw [h.execute_eq, List.cons_append, runFrom_of_error herror] at hv
      cases hv

end Code

/-- At some point of its code, the stack has all the slots that the tree needs. -/
theorem Tree.Lowers.exists_peak {t : Tree} {code : Code} {form : Form} {is : List Instruction}
    {forms : List Form} (h : t.Lowers code.tables form is)
    (hroom : forms.length + t.need ≤ code.maxStack) :
    ∃ js ks forms', is = js ++ ks ∧ code.TurnsAll js forms forms' ∧
      forms'.length = forms.length + t.need := by
  induction h generalizing forms with
  | literal hi => exact ⟨_, [], _, rfl, (Code.Turns.loadConstant hi hroom).all, rfl⟩
  | @reference _ k _ hi =>
    exact ⟨_, [], _, rfl, (Code.Turns.loadVariable k hi hroom).all, rfl⟩
  | plus _ ih => exact ih hroom
  | unboxed _ ih | minus _ ih =>
    obtain ⟨js, ks, forms', rfl, hturns, hlength⟩ := ih hroom
    exact ⟨js, ks ++ _, forms', List.append_assoc .., hturns, hlength⟩
  | @binary op left right k ls rs hl _ ihl ihr =>
    rw [need] at hroom ⊢
    -- The peak is that of the operand that needs more slots, with the left value below the right.
    rcases le_total (right.need + 1) left.need with hle | hle
    · obtain ⟨js, ks, forms', rfl, hturns, hlength⟩ := @ihl forms (by omega)
      exact ⟨js, ks ++ rs ++ [.binary k op.byte], forms', by simp, hturns, by omega⟩
    · have hleft : code.TurnsAll ls forms (.bare k :: forms) := hl.turnsAll (by omega)
      obtain ⟨js, ks, forms', rfl, hturns, hlength⟩ :=
        @ihr (.bare k :: forms) (by rw [List.length_cons]; omega)
      rw [List.length_cons] at hlength
      exact ⟨ls ++ js, ks ++ [.binary k op.byte], forms', by simp, hleft.append hturns, by omega⟩

namespace Code

variable {t : Tree} {code : Code} {form : Form} {is : List Instruction} {env : Environment}
  {v : Value}

/-- A run that gives a value holds all the slots that the tree needs at some point. -/
theorem exists_reaches_need (ht : t.Lowered code form is) (hv : code.execute env = .ok v) :
    ∃ js stack, code.Reaches env js stack ∧ stack.length = t.need := by
  have hroom : ([] : List Form).length + t.need ≤ code.maxStack := by simp [ht.maxStack]
  obtain ⟨js, ks, forms, rfl, hturns, hlength⟩ := ht.lowers.exists_peak hroom
  have hstart : code.Reaches env (js ++ (ks ++ [.ret])) [] := by
    rw [← List.append_assoc, ← ht.instructions]
    exact .start
  obtain ⟨stack, hreaches, hstack⟩ := hstart.turnsAll hturns hv ⟨.nil, Nat.zero_le _⟩
  exact ⟨_, stack, hreaches, by simpa [hlength] using hstack.forms.length_eq⟩

/-- Compiled code declares the size of the stack that its tree needs. A run that gives a value
    holds as many slots at its peak and overflows any smaller stack, and a larger stack makes
    no difference in any environment. -/
theorem maxStack_exact_of_compile (h : t.compile = .ok code) (env : Environment) :
    code.maxStack = t.need ∧
    (∀ v, code.execute env = .ok v →
      (∀ js stack, code.Reaches env js stack → stack.length ≤ t.need) ∧
      (∃ js stack, code.Reaches env js stack ∧ stack.length = t.need) ∧
      ∀ m < t.need, (code.withMaxStack m).execute env = .error (.code (.stackOverflow m))) ∧
    ∀ m, t.need ≤ m → (code.withMaxStack m).execute env = code.execute env := by
  obtain ⟨form, is, _, _, ht⟩ := Tree.lowered_of_compile h
  refine ⟨ht.maxStack, fun v hv => ?_, fun m hm => ?_⟩
  · obtain ⟨js, stack, hpeak, hlength⟩ := exists_reaches_need ht hv
    refine ⟨fun _ _ hreaches => ht.maxStack ▸ hreaches.length_le, ⟨js, stack, hpeak, hlength⟩, ?_⟩
    exact fun m hm => hpeak.overflows (hm.trans_eq hlength.symm)
  · rw [← ht.maxStack] at hm
    rcases runFrom_withMaxStack code env hm code.instructions.toList [] with hsame | hoverflow
    · exact hsame
    · -- A run of compiled code fails for reasons that lie in the inputs only.
      have hinputs := (ht.lowers.turnsAll (by simp [ht.maxStack])).dependsOnInputs ht.form
        ⟨.nil, Nat.zero_le _⟩ (ht.instructions ▸ hoverflow)
      cases hinputs

/-- Three times a variable needs two slots: one is too few and three are no better. -/
theorem maxStack_exact_of_compile_tripled :
    let env : Environment := .set {} "x" (.scalar (.int32 5))
    Tree.tripled.compile = .ok tripled ∧ tripled.maxStack = 2 ∧
      tripled.execute env = .ok (.scalar (.int32 15)) ∧
      (∃ js stack, tripled.Reaches env js stack ∧ stack.length = 2) ∧
      (tripled.withMaxStack 1).execute env = .error (.code (.stackOverflow 1)) ∧
      (tripled.withMaxStack 3).execute env = .ok (.scalar (.int32 15)) := by
  intro env
  obtain ⟨hmax, hpeak, hlarger⟩ := maxStack_exact_of_compile Tree.compile_tripled env
  obtain ⟨_, hreaches, hsmaller⟩ := hpeak _ rfl
  exact ⟨Tree.compile_tripled, hmax, rfl, hreaches, hsmaller 1 (by decide), hlarger 3 (by decide)⟩

end Code

end AdaptiveArith
