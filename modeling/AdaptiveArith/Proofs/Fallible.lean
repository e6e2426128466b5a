import AdaptiveArith.Proofs.StackSize

/-!
# Which instructions can fail

`Instruction.mayFail` is a table of the instructions that can fail in well-formed code. It is
kept apart from the machine and from the operators, so that it could be wrong; it is not. In
compiled code the operands that an instruction expects are on the stack, in the forms it expects
and with room for its result. What can still go wrong is a look-up, an unboxing, or a division of
integers by zero, and each of these is in the table (`Code.Turns.mayFail_of_error`). So wherever a
run of compiled code stops with an error, it stops at an instruction that may fail.

An instruction that is not in the table does not look at the environment
(`Code.step_eq_of_not_mayFail`). Compiled code without any that may fail therefore has one value,
in all environments (`Code.mayFail_of_compile`).
-/

namespace AdaptiveArith

/-- The table has the divisions of integers. -/
theorem Instruction.mayFail_binary {op : Operator} {pair : ScalarPair} (hop : op.divides = true)
    (hzero : pair.hasZeroDivisor = true) : (binary pair.kind op.byte).mayFail = true := by
  cases pair with
  | int32 | int64 =>
    cases op with
    | add | sub | mul => cases hop
    | div | mod => rfl
  | float32 | float64 => cases hzero

namespace Code

variable {code : Code} {env env' : Environment} {i : Instruction} {is is' : List Instruction}
  {forms forms' : List Form} {form : Form} {stack : List Slot} {e : EvalError} {t : Tree}

/-! ### Where runs stop -/

/-- A run that comes to instructions comes to the end of the code with them. -/
theorem Reaches.suffix (h : code.Reaches env is stack) : is <:+ code.instructions.toList := by
  induction h with
  | start => exact List.suffix_refl _
  | next _ _ ih => exact (List.suffix_cons _ _).trans ih

/-- A run that fails comes to an instruction that fails, or to the end of the code. -/
theorem Reaches.failed (h : code.Reaches env is stack)
    (hrun : code.runFrom env is stack = .error e) :
    (∃ i is' stack', code.Reaches env (i :: is') stack' ∧ code.step env i stack' = .error e) ∨
      ∃ stack', code.Reaches env [] stack' := by
  induction is generalizing stack with
  | nil => exact .inr ⟨stack, h⟩
  | cons i is ih =>
    rw [runFrom] at hrun
    split at hrun
    next hstep =>
      obtain rfl := Except.error.inj hrun
      exact .inl ⟨i, is, stack, h, hstep⟩
    next => cases hrun
    next hstep => exact ih (h.next hstep) hrun

/-! ### Instructions that fail -/

/-- An instruction that finds the forms it expects fails only if the table says that it may. -/
theorem Turns.mayFail_of_error (h : code.Turns i forms forms') (hstack : code.Holds stack forms)
    (he : code.step env i stack = .error e) : i.mayFail = true := by
  obtain ⟨hforms, hroom⟩ := hstack
  cases h with
  | loadConstant hi hlt =>
    rw [← hforms.length_eq] at hlt
    rw [step_loadConstant hi hlt] at he
    cases he
  | loadVariable | unbox => rfl
  | binary op k =>
    obtain ⟨r, stack, rfl, hr, hforms⟩ := Slot.exists_bare_of_forall₂ hforms
    obtain ⟨l, rest, rfl, hl, -⟩ := Slot.exists_bare_of_forall₂ hforms
    rw [step_binary op hl hr (Nat.lt_of_succ_lt hroom), map_eq_error_iff] at he
    cases hpair : op.onPair (.widen l r) with
    | ok p =>
      rw [hpair] at he
      cases he
    | error e' =>
      obtain ⟨hop, hzero, -⟩ := Operator.onPair_eq_error_iff.1 hpair
      rw [← ScalarPair.kind_widen_of_kind_eq hl hr]
      exact Instruction.mayFail_binary hop hzero
  | negate k =>
    obtain ⟨p, rest, rfl, rfl, -⟩ := Slot.exists_bare_of_forall₂ hforms
    rw [step_negate rfl hroom] at he
    cases he

/-- Wherever a run of compiled code fails, it fails at an instruction that may. -/
theorem Reaches.mayFail_of_error (ht : t.Lowered code form is)
    (h : code.Reaches env (i :: is') stack) (he : code.step env i stack = .error e) :
    i.mayFail = true := by
  obtain ⟨js, forms, hjs, hturns, hholds⟩ := h.holds_of_lowered ht
  cases hturns with
  | nil =>
    -- The result is returned in its form, which does not fail.
    obtain ⟨rfl, rfl⟩ := List.cons.inj hjs
    obtain ⟨slot, rfl, hslot⟩ := hholds.exists_slot
    rw [step_ret_of_hasForm ht.form hslot] at he
    cases he
  | cons hturn _ =>
    obtain ⟨rfl, rfl⟩ := List.cons.inj hjs
    exact hturn.mayFail_of_error hholds he

/-- Compiled code does not come to its end. -/
theorem not_reaches_nil (ht : t.Lowered code form is) : ¬code.Reaches env [] stack := by
  intro h
  obtain ⟨js, forms, hjs, -⟩ := h.holds_of_lowered ht
  simp at hjs

/-! ### Instructions that do not fail -/

/-- The environment plays no part in what cannot fail. -/
theorem step_eq_of_not_mayFail (hi : i.mayFail = false) (stack : List Slot) :
    code.step env i stack = code.step env' i stack := by
  cases i with
  | loadVariable index => cases hi
  | halt | loadConstant | unbox | binary | negate | ret => rfl

theorem runFrom_eq_of_not_mayFail (his : ∀ i ∈ is, i.mayFail = false) (stack : List Slot) :
    code.runFrom env is stack = code.runFrom env' is stack := by
  induction is generalizing stack with
  | nil => rfl
  | cons i is ih =>
    obtain ⟨hi, his⟩ := List.forall_mem_cons.1 his
    have hstep : code.step env i stack = code.step env' i stack := step_eq_of_not_mayFail hi stack
    rw [runFrom, runFrom, hstep]
    cases code.step env' i stack with
    | error => rfl
    | ok effect =>
      cases effect with
      | returned => rfl
      | next stack => exact ih his stack

/-- If compiled code fails, it stops at an instruction that may fail. So code without such
    instructions has the same value in all environments. -/
theorem mayFail_of_compile (h : t.compile = .ok code) :
    (∀ env e, code.execute env = .error e → ∃ i is stack, code.Reaches env (i :: is) stack ∧
      code.step env i stack = .error e ∧ i.mayFail = true) ∧
    (∀ env i is stack e, code.Reaches env (i :: is) stack → code.step env i stack = .error e →
      i.mayFail = true) ∧
    ((∀ i ∈ code.instructions, i.mayFail = false) → ∃ v, ∀ env, code.execute env = .ok v) := by
  obtain ⟨form, body, _, _, ht⟩ := Tree.lowered_of_compile h
  have hstops (env : Environment) (e : EvalError) (he : code.execute env = .error e) :
      ∃ i is stack, code.Reaches env (i :: is) stack ∧ code.step env i stack = .error e := by
    rcases Reaches.start.failed he with hfailed | ⟨stack, hend⟩
    · exact hfailed
    · exact absurd hend (not_reaches_nil ht)
  refine ⟨fun env e he => ?_, fun env i is stack e hreaches hstep => ?_, fun hnone => ?_⟩
  · obtain ⟨i, is, stack, hreaches, hstep⟩ := hstops env e he
    exact ⟨i, is, stack, hreaches, hstep, hreaches.mayFail_of_error ht hstep⟩
  · exact hreaches.mayFail_of_error ht hstep
  · cases hvalue : code.execute {} with
    | ok v =>
      refine ⟨v, fun env => ?_⟩
      rw [← hvalue]
      exact runFrom_eq_of_not_mayFail (fun i hi => hnone i (Array.mem_toList_iff.1 hi)) []
    | error e =>
      obtain ⟨i, is, stack, hreaches, hstep⟩ := hstops {} e hvalue
      have hmem : i ∈ code.instructions :=
        Array.mem_toList_iff.1 (hreaches.suffix.subset List.mem_cons_self)
      have hmay := hreaches.mayFail_of_error ht hstep
      rw [hnone i hmem] at hmay
      cases hmay

/-- A variable that is not bound stops a run; the negated quotient of two floats, here by zero, has
    a value without any instruction that may fail. -/
theorem mayFail_of_compile_quotient :
    let quotient : Tree := .unary .sub (.scalar .float64) (.binary .div (.scalar .float64)
      (.literal (.scalar (.float64 ⟨0x3ff8000000000000⟩))) (.literal (.scalar (.float64 ⟨0⟩))))
    let code : Code :=
      { constants := #[.float64 ⟨0x3ff8000000000000⟩, .float64 ⟨0⟩]
        «variables» := #[]
        instructions := #[.loadConstant 0, .loadConstant 1, .binary .float64 0x2f,
          .negate .float64, .ret]
        maxStack := 2
        form? := some (.bare .float64) }
    (Tree.tripled.compile = .ok tripled ∧
      tripled.execute {} = .error (.runtime (.unbound "x")) ∧
      ∃ i is stack, tripled.Reaches {} (i :: is) stack ∧
        tripled.step {} i stack = .error (.runtime (.unbound "x")) ∧ i.mayFail = true) ∧
    quotient.compile = .ok code ∧ (∀ i ∈ code.instructions, i.mayFail = false) ∧
      ∃ v, ∀ env, code.execute env = .ok v := by
  intro quotient code
  have hcode : quotient.compile = .ok code := by cbv
  have hnone : ∀ i ∈ code.instructions, i.mayFail = false := by
    simp only [code]
    decide
  exact ⟨⟨Tree.compile_tripled, rfl, (mayFail_of_compile Tree.compile_tripled).1 _ _ rfl⟩, hcode,
    hnone, (mayFail_of_compile hcode).2.2 hnone⟩

end Code

end AdaptiveArith
