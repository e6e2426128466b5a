import AdaptiveArith.Proofs.StackSize

/-!
# Malformed code is contained

Code of any origin may hold any bytes, and nothing foretells what is on the stack when one of
its instructions is executed. Still an instruction has few ways to go on (`Code.Does`). It takes
slots off the stack and pushes one, within the declared size, and the slot that it pushes is a
bare scalar or the value of a variable that the code names. Only `ret` returns, and what it
returns is in a slot of the stack (`Code.does_of_step`).

The machine is a loop that fetches the instruction at an address (`Code.turn`), and a run is a
list of configurations (`Code.Passes`). Each code has one run (`Code.exists_passes`,
`Code.Passes.unique`), whose addresses are `0`, `1`, `2` and so on (`Code.Passes.addresses`).
What holds of every stack of it is `Code.Contained`, which a turn keeps (`Code.Contained.turn`).
So code does no harm, whatever it holds (`Code.execute_contained`): no instruction is executed
twice, the stack does not outgrow its declared size, and the only values that can come out of a
run, apart from scalars, are those that went in.
-/

namespace AdaptiveArith

/-- Where a slot on the stack can come from: a bare scalar from anywhere, and a boxed value from
    a variable that the code names. -/
inductive Slot.Sourced (code : Code) (env : Environment) : Slot → Prop
  | bare (p : Scalar) : Sourced code env (.bare p)
  | boxed {name : String} {v : Value} :
      name ∈ code.variables → env.get? name = some v → Sourced code env (.boxed v)

theorem Environment.get?_eq_of_lookup {env : Environment} {name : String} {v : Value}
    (h : env.lookup name = .ok v) : env.get? name = some v := by
  rw [lookup] at h
  split at h
  next hget => rw [hget, Except.ok.inj h]
  next => cases h

namespace Code

variable {code : Code} {env : Environment} {i : Instruction} {slot : Slot}
  {stack stack' rest : List Slot} {p : Scalar} {k : ScalarKind} {v : Value}

/-! ### What an instruction can do -/

/-- What an instruction can do on a stack: take slots off it and push one that the declared size
    has room for, or return what a slot holds. -/
inductive Does (code : Code) (env : Environment) (i : Instruction) (stack : List Slot) :
    Effect → Prop
  | pushes {slot : Slot} {rest : List Slot} :
      rest <:+ stack → rest.length < code.maxStack → slot.Sourced code env →
      Does code env i stack (.next (slot :: rest))
  | returns {slot : Slot} {v : Value} :
      i = .ret → slot ∈ stack → code.checkForm slot = .ok v → Does code env i stack (.returned v)

theorem does_of_push (hpush : code.push slot rest = .ok stack') (hrest : rest <:+ stack)
    (hslot : slot.Sourced code env) : code.Does env i stack (.next stack') := by
  rw [push] at hpush
  split at hpush
  next hlt =>
    obtain rfl := Except.ok.inj hpush
    exact .pushes hrest hlt hslot
  next => cases hpush

theorem eq_of_pop (h : pop stack = .ok (slot, rest)) : stack = slot :: rest := by
  cases stack with
  | nil => cases h
  | cons =>
    cases h
    rfl

theorem eq_of_popBare {mnemonic : String} (h : popBare mnemonic k stack = .ok (p, rest)) :
    stack = .bare p :: rest := by
  obtain ⟨⟨slot, below⟩, hpop, hpopped⟩ := exists_of_bind_eq_ok h
  obtain rfl := eq_of_pop hpop
  cases slot with
  | boxed => cases hpopped
  | bare q =>
    dsimp only at hpopped
    split at hpopped
    · cases hpopped
      rfl
    · cases hpopped

/-- An instruction of any code does nothing else, whatever its operand and the stack are. -/
theorem does_of_step {effect : Effect} (h : code.step env i stack = .ok effect) :
    code.Does env i stack effect := by
  cases i with
  | halt => cases h
  | loadConstant index =>
    simp only [step] at h
    split at h
    next => cases h
    next p _ =>
      obtain ⟨_, hpush, rfl⟩ := exists_of_map_eq_ok h
      exact does_of_push hpush (List.suffix_refl _) (.bare p)
  | loadVariable index =>
    simp only [step] at h
    split at h
    next => cases h
    next name hname =>
      split at h
      next => cases h
      next v hlookup =>
        obtain ⟨_, hpush, rfl⟩ := exists_of_map_eq_ok h
        exact does_of_push hpush (List.suffix_refl _)
          (.boxed (Array.mem_of_getElem? hname) (Environment.get?_eq_of_lookup hlookup))
  | unbox byte =>
    simp only [step] at h
    split at h
    next => cases h
    next =>
      obtain ⟨⟨slot, rest⟩, hpop, hunboxed⟩ := exists_of_bind_eq_ok h
      obtain ⟨p, _, hnext⟩ := exists_of_bind_eq_ok hunboxed
      obtain ⟨_, hpush, heffect⟩ := exists_of_bind_eq_ok hnext
      cases heffect
      obtain rfl := eq_of_pop hpop
      exact does_of_push hpush (List.suffix_cons _ _) (.bare p)
  | binary kind byte =>
    simp only [step] at h
    split at h
    next => cases h
    next =>
      obtain ⟨⟨r, below⟩, hright, hleft⟩ := exists_of_bind_eq_ok h
      obtain ⟨⟨l, rest⟩, hleft, hpair⟩ := exists_of_bind_eq_ok hleft
      obtain rfl := eq_of_popBare hright
      obtain rfl := eq_of_popBare hleft
      dsimp only at hpair
      split at hpair
      next => cases hpair
      next =>
        obtain ⟨p, _, hnext⟩ := exists_of_bind_eq_ok hpair
        obtain ⟨_, hpush, heffect⟩ := exists_of_bind_eq_ok hnext
        cases heffect
        exact does_of_push hpush ((List.suffix_cons _ _).trans (List.suffix_cons _ _)) (.bare p)
  | negate kind =>
    obtain ⟨⟨operand, rest⟩, hoperand, hnegated⟩ := exists_of_bind_eq_ok h
    obtain ⟨p, _, hnext⟩ := exists_of_bind_eq_ok hnegated
    obtain ⟨_, hpush, heffect⟩ := exists_of_bind_eq_ok hnext
    cases heffect
    obtain rfl := eq_of_popBare hoperand
    exact does_of_push hpush (List.suffix_cons _ _) (.bare p)
  | ret =>
    obtain ⟨⟨slot, rest⟩, hpop, hchecked⟩ := exists_of_bind_eq_ok h
    obtain ⟨v, hform, heffect⟩ := exists_of_bind_eq_ok hchecked
    cases heffect
    obtain rfl := eq_of_pop hpop
    exact .returns rfl List.mem_cons_self hform

/-! ### Runs by address -/

/-- Where a run is: the address of the instruction that comes next, and the stack. -/
structure Configuration where
  /-- The address of the next instruction. -/
  address : Nat
  /-- The stack, topmost slot first. -/
  stack : List Slot

/-- Where a run begins. -/
def Configuration.start : Configuration := ⟨0, []⟩

/-- The instruction at the address is executed: the run goes on with another configuration, or
    returns a value. -/
def turn (code : Code) (env : Environment) (c : Configuration) :
    Except EvalError (Configuration ⊕ Value) :=
  match code.instructions[c.address]? with
  | none => .error (.code .unterminated)
  | some i =>
    match code.step env i c.stack with
    | .error e => .error e
    | .ok (.next stack) => .ok (.inl ⟨c.address + 1, stack⟩)
    | .ok (.returned v) => .ok (.inr v)

/-- From a configuration on, the run passes through configurations, the first of them included,
    and ends with a result. -/
inductive Passes (code : Code) (env : Environment) :
    Configuration → List Configuration → Except EvalError Value → Prop
  | fails {c : Configuration} {e : EvalError} :
      code.turn env c = .error e → Passes code env c [c] (.error e)
  | returns {c : Configuration} {v : Value} :
      code.turn env c = .ok (.inr v) → Passes code env c [c] (.ok v)
  | goesOn {c c' : Configuration} {cs : List Configuration} {result : Except EvalError Value} :
      code.turn env c = .ok (.inl c') → Passes code env c' cs result →
      Passes code env c (c :: cs) result

variable {c c' : Configuration} {cs cs' : List Configuration}
  {result result' : Except EvalError Value}

theorem exists_of_turn_eq_inl (h : code.turn env c = .ok (.inl c')) :
    ∃ i, code.instructions[c.address]? = some i ∧ c'.address = c.address + 1 ∧
      code.step env i c.stack = .ok (.next c'.stack) := by
  rw [turn] at h
  split at h
  next => cases h
  next i hi =>
    split at h
    next => cases h
    next hstep =>
      cases h
      exact ⟨i, hi, rfl, hstep⟩
    next => cases h

theorem exists_of_turn_eq_inr (h : code.turn env c = .ok (.inr v)) :
    ∃ i, code.instructions[c.address]? = some i ∧ code.step env i c.stack = .ok (.returned v) := by
  rw [turn] at h
  split at h
  next => cases h
  next i hi =>
    split at h
    next => cases h
    next => cases h
    next hstep =>
      cases h
      exact ⟨i, hi, hstep⟩

/-- No run takes two courses. -/
theorem Passes.unique (h : code.Passes env c cs result) (h' : code.Passes env c cs' result') :
    cs' = cs ∧ result' = result := by
  induction h generalizing cs' result' with
  | fails hturn | returns hturn => cases h' <;> simp_all
  | goesOn hturn _ ih =>
    cases h' with
    | fails hturn' | returns hturn' => simp_all
    | goesOn hturn' hpasses =>
      rw [hturn] at hturn'
      cases hturn'
      obtain ⟨rfl, rfl⟩ := ih hpasses
      exact ⟨rfl, rfl⟩

/-- The instructions from an address on are executed as the loop executes them. -/
theorem exists_passes (code : Code) (env : Environment) (c : Configuration) :
    ∃ cs, code.Passes env c cs
      (code.runFrom env (code.instructions.toList.drop c.address) c.stack) := by
  generalize hleft : code.instructions.toList.drop c.address = is
  -- Induction on the instructions that are left.
  induction is generalizing c with
  | nil =>
    have hend : code.instructions[c.address]? = none := by
      rw [← Array.getElem?_toList, ← List.head?_drop, hleft, List.head?_nil]
    exact ⟨[c], .fails (by rw [turn, hend])⟩
  | cons i is ih =>
    have hi : code.instructions[c.address]? = some i := by
      rw [← Array.getElem?_toList, ← List.head?_drop, hleft, List.head?_cons]
    have hrest : code.instructions.toList.drop (c.address + 1) = is := by
      rw [← List.tail_drop, hleft, List.tail_cons]
    cases hstep : code.step env i c.stack with
    | error e =>
      rw [runFrom_of_error hstep]
      exact ⟨[c], .fails (by rw [turn, hi]; simp only [hstep])⟩
    | ok effect =>
      cases effect with
      | next stack =>
        rw [runFrom_of_next hstep]
        obtain ⟨cs, hpasses⟩ := ih ⟨c.address + 1, stack⟩ hrest
        exact ⟨c :: cs, .goesOn (by rw [turn, hi]; simp only [hstep]) hpasses⟩
      | returned v =>
        rw [runFrom, hstep]
        exact ⟨[c], .returns (by rw [turn, hi]; simp only [hstep])⟩

/-- The addresses of a run follow each other. -/
theorem Passes.addresses (h : code.Passes env c cs result) :
    cs.map Configuration.address = List.range' c.address cs.length := by
  induction h with
  | fails | returns => rfl
  | goesOn hturn _ ih =>
    obtain ⟨_, _, haddress, _⟩ := exists_of_turn_eq_inl hturn
    rw [List.map_cons, ih, haddress, List.length_cons, List.range'_succ]

/-- A run that gives a value gives it at its end. -/
theorem Passes.exists_getLast? (h : code.Passes env c cs (.ok v)) :
    ∃ c', cs.getLast? = some c' ∧ code.turn env c' = .ok (.inr v) := by
  generalize hresult : Except.ok v = result at h
  induction h with
  | fails => cases hresult
  | returns hturn =>
    cases hresult
    exact ⟨_, rfl, hturn⟩
  | goesOn _ _ ih =>
    obtain ⟨c', hlast, hturn⟩ := ih hresult
    exact ⟨c', by rw [List.getLast?_cons, hlast, Option.getD_some], hturn⟩

/-! ### What a run can hold -/

/-- The address is one of the code or the one after its end, the stack has no more slots than
    declared, and each of them has its source. -/
structure Contained (code : Code) (env : Environment) (c : Configuration) : Prop where
  address : c.address ≤ code.instructions.size
  room : c.stack.length ≤ code.maxStack
  sourced : ∀ slot ∈ c.stack, slot.Sourced code env

theorem contained_start : code.Contained env .start :=
  ⟨Nat.zero_le _, Nat.zero_le _, by simp [Configuration.start]⟩

theorem Contained.turn (h : code.Contained env c) (hturn : code.turn env c = .ok (.inl c')) :
    code.Contained env c' := by
  obtain ⟨i, hi, haddress, hstep⟩ := exists_of_turn_eq_inl hturn
  have hlt := (Array.getElem?_eq_some_iff.1 hi).1
  have hdoes := does_of_step hstep
  obtain ⟨address, stack⟩ := c'
  cases hdoes with
  | pushes hrest hroom hslot =>
    refine ⟨by rw [haddress]; exact hlt, hroom, ?_⟩
    exact List.forall_mem_cons.2 ⟨hslot, fun other hmem => h.sourced other (hrest.subset hmem)⟩

theorem Contained.passes (h : code.Contained env c) (hpasses : code.Passes env c cs result) :
    ∀ c' ∈ cs, code.Contained env c' := by
  induction hpasses with
  | fails | returns => exact List.forall_mem_singleton.2 h
  | goesOn hturn _ ih => exact List.forall_mem_cons.2 ⟨h, ih (h.turn hturn)⟩

/-- What is returned is the value of the slot, and a bare scalar if one is declared. -/
theorem of_checkForm (h : code.checkForm slot = .ok v) :
    v = slot.value ∧ ∀ k, code.form? = some (.bare k) → v.scalarKind? = some k := by
  rw [checkForm] at h
  split at h
  next kind hform =>
    cases slot with
    | boxed => cases h
    | bare p =>
      dsimp only at h
      split at h
      next hp =>
        obtain rfl := Except.ok.inj h
        refine ⟨rfl, fun k hk => ?_⟩
        rw [hform] at hk
        cases hk
        exact congrArg some hp
      next => cases h
  next hform =>
    obtain rfl := Except.ok.inj h
    exact ⟨rfl, fun k hk => by rw [hform] at hk; cases hk⟩
  next hform =>
    obtain rfl := Except.ok.inj h
    exact ⟨rfl, fun k hk => by rw [hform] at hk; cases hk⟩

theorem Contained.returned (h : code.Contained env c) (hturn : code.turn env c = .ok (.inr v)) :
    code.instructions[c.address]? = some .ret ∧
      (∀ k, code.form? = some (.bare k) → v.scalarKind? = some k) ∧
      (v.scalar? = none → ∃ name ∈ code.variables, env.get? name = some v) := by
  obtain ⟨i, hi, hstep⟩ := exists_of_turn_eq_inr hturn
  cases does_of_step hstep with
  | @returns slot _ hret hslot hform =>
    obtain ⟨rfl, hkind⟩ := of_checkForm hform
    refine ⟨hret ▸ hi, hkind, fun hnone => ?_⟩
    cases h.sourced slot hslot with
    | bare p => cases hnone
    | boxed hname hget => exact ⟨_, hname, hget⟩

/-- The addresses of a run are those of the code, and at most the one after its end. -/
theorem Contained.length_le (h : code.Contained env .start)
    (hpasses : code.Passes env .start cs result) : cs.length ≤ code.instructions.size + 1 := by
  by_contra hlong
  have hmem : code.instructions.size + 1 ∈ cs.map Configuration.address := by
    rw [hpasses.addresses]
    exact List.mem_range'_1.2 ⟨Nat.zero_le _, by change _ < 0 + _; omega⟩
  obtain ⟨c, hc, haddress⟩ := List.mem_map.1 hmem
  have hle := (h.passes hpasses c hc).address
  omega

/-- Whatever code is executed, its run goes through its addresses in order, each at most once, with
    no more slots than declared. A value is returned by `ret`, in the declared form, and is a
    scalar or what a variable holds that the code names. -/
theorem execute_contained (code : Code) (env : Environment) :
    ∃ cs, (∀ cs' result, code.Passes env .start cs' result ↔
        cs' = cs ∧ result = code.execute env) ∧
      cs.map Configuration.address = List.range cs.length ∧
      cs.length ≤ code.instructions.size + 1 ∧
      (∀ c ∈ cs, c.stack.length ≤ code.maxStack) ∧
      ∀ v, code.execute env = .ok v →
        (∃ c, cs.getLast? = some c ∧ code.instructions[c.address]? = some .ret ∧
          code.turn env c = .ok (.inr v)) ∧
        (∀ k, code.form? = some (.bare k) → v.scalarKind? = some k) ∧
        (v.scalar? = none → ∃ name ∈ code.variables, env.get? name = some v) := by
  obtain ⟨cs, hpasses⟩ := exists_passes code env .start
  have hcontained := contained_start.passes hpasses
  refine ⟨cs, fun cs' result => ⟨hpasses.unique, ?_⟩, ?_, contained_start.length_le hpasses,
    fun c hc => (hcontained c hc).room, fun v hv => ?_⟩
  · rintro ⟨rfl, rfl⟩
    exact hpasses
  · rw [List.range_eq_range']
    exact hpasses.addresses
  · change code.Passes env .start cs (code.execute env) at hpasses
    rw [hv] at hpasses
    obtain ⟨c, hlast, hturn⟩ := hpasses.exists_getLast?
    obtain ⟨hret, hkind, hsource⟩ := (hcontained c (List.mem_of_getLast? hlast)).returned hturn
    exact ⟨⟨c, hlast, hret, hturn⟩, hkind, hsource⟩

/-- Code that was tampered with: it declares an integer to unbox and a larger stack, but returns a
    text, and goes on after `ret` with bytes that mean nothing. -/
theorem execute_contained_tampered :
    let code : Code :=
      { constants := #[]
        «variables» := #["x", "y"]
        instructions := #[.loadVariable 1, .ret, .unbox 0x5a, .binary .int64 0x5e]
        maxStack := 9
        form? := some (.boxed .int32) }
    let env : Environment := .set (.set {} "y" (.text "a")) "z" (.text "b")
    code.execute env = .ok (.text "a") ∧
      (∃ cs, code.Passes env .start cs (.ok (.text "a")) ∧
        cs.map Configuration.address = List.range cs.length ∧ cs.length ≤ 5 ∧
        ∀ c ∈ cs, c.stack.length ≤ 9) ∧
      ∃ name ∈ #["x", "y"], env.get? name = some (.text "a") := by
  intro code env
  have hvalue : code.execute env = .ok (.text "a") := rfl
  obtain ⟨cs, hrun, haddresses, hlength, hroom, hreturned⟩ := execute_contained code env
  exact ⟨hvalue, ⟨cs, (hrun _ _).2 ⟨rfl, hvalue.symm⟩, haddresses, hlength, hroom⟩,
    (hreturned _ hvalue).2.2 rfl⟩

end Code

end AdaptiveArith
