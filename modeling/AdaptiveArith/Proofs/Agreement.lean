import AdaptiveArith.Proofs.Evaluation
import AdaptiveArith.Proofs.StackTyping

/-!
# Interpretation and compiled code agree

The code of a tree computes the outcome of the tree, on any stack and whatever
comes after it: `Code.Follows` says what its run comes to, and
`Tree.Lowers.follows` proves it by induction on the lowering. Only variables can
make a difference, as compiled code expects of each the kind it last had.

The machine does not limit how deeply operators are nested, and so compiled code
agrees with the outcome of its tree (`Tree.Lowered.execute_eq`), and with an
interpretation as far as the limit lets it come. Agreement is meant literally, and
values that are equal are identical (`Value.identical_self`).
-/

namespace AdaptiveArith

/-! ### Identical values -/

@[simp]
theorem Scalar.identical_self (p : Scalar) : p.identical p = true := by
  cases p <;> exact beq_self_eq_true _

@[simp]
theorem Decimal.numEq_self (d : Decimal) : d.numEq d = true := by
  simp [numEq]

@[simp]
theorem Value.identical_self (v : Value) : v.identical v = true := by
  cases v with
  | scalar p => simp [identical]
  | decimal d => simp [identical]
  | text s => simp [identical]
  | host object => simp [identical, HostValue.same]

/-! ### The code of a tree -/

namespace Code

variable {code : Code} {env : Environment} {form form' : Form} {rest rest' : List Instruction}
  {stack stack' : List Slot} {outcome run : Except EvalError Value}

/-- The run is that of code that computes the outcome: it goes on with the rest and
    the value on top of the stack, or fails with the same error, or because a
    variable is of another kind. -/
inductive Follows (code : Code) (env : Environment) (form : Form) (rest : List Instruction)
    (stack : List Slot) : Except EvalError Value → Except EvalError Value → Prop
  | value {slot : Slot} : slot.HasForm form →
      Follows code env form rest stack (.ok slot.value) (code.runFrom env rest (slot :: stack))
  | error (e : EvalError) : Follows code env form rest stack (.error e) (.error e)
  | otherKind (outcome : Except EvalError Value) (k : ScalarKind) (found : ValueKind) :
      Follows code env form rest stack outcome (.error (.runtime (.otherKind k found)))

/-- Code is followed by what goes on with its value. -/
theorem Follows.bind {next : Value → Except EvalError Value}
    (h : code.Follows env form rest stack outcome run)
    (hnext : ∀ slot, slot.HasForm form → code.Follows env form' rest' stack' (next slot.value)
      (code.runFrom env rest (slot :: stack))) :
    code.Follows env form' rest' stack' (outcome.bind next) run := by
  cases h with
  | value hslot => exact hnext _ hslot
  | error e => exact .error e
  | otherKind _ k found => exact .otherKind _ k found

end Code

namespace Tree

variable {t : Tree} {code : Code} {env : Environment} {form : Form} {is : List Instruction}

/-- The code of a tree computes its outcome, on any stack with enough room and
    whatever comes after it. -/
theorem Lowers.follows (h : t.Lowers code.tables form is) (env : Environment) {stack : List Slot}
    (rest : List Instruction) (hroom : stack.length + t.need ≤ code.maxStack) :
    code.Follows env form rest stack (t.outcome env) (code.runFrom env (is ++ rest) stack) := by
  induction h generalizing stack rest with
  | @literal p i hi =>
    rw [List.singleton_append, Code.runFrom_of_next (Code.step_loadConstant hi hroom)]
    exact .value (.bare p)
  | @reference name k i hi =>
    have hstep : code.step env (.loadVariable i) stack = _ := Code.step_loadVariable hi hroom
    rw [List.singleton_append, outcome]
    cases hlookup : env.lookup name with
    | ok v =>
      rw [hlookup] at hstep
      rw [Code.runFrom_of_next hstep]
      exact .value (.boxed v k)
    | error e =>
      rw [hlookup] at hstep
      rw [Code.runFrom_of_error hstep]
      exact .error _
  | @unboxed t k is _ ih =>
    rw [List.append_assoc, ← bind_pure (t.outcome env)]
    refine (ih _ hroom).bind fun slot hslot => ?_
    obtain ⟨v, rfl⟩ := hslot.exists_boxed
    have hlt : stack.length < code.maxStack :=
      Nat.lt_of_lt_of_le (Nat.lt_add_of_pos_right t.need_pos) hroom
    have hstep : code.step env (.unbox k.byte) (.boxed v :: stack) = _ := Code.step_unbox v hlt
    rcases Code.unboxed_spec k v with ⟨p, rfl, rfl, hp⟩ | hmismatch
    · rw [hp] at hstep
      rw [List.singleton_append, Code.runFrom_of_next hstep]
      exact .value (.bare p)
    · rw [hmismatch] at hstep
      rw [List.singleton_append, Code.runFrom_of_error hstep]
      exact .otherKind _ _ _
  | @plus operand k is _ ih =>
    refine (ih _ hroom).bind fun slot hslot => ?_
    obtain ⟨p, rfl, rfl⟩ := hslot.exists_bare
    exact .value (.bare p)
  | @minus operand k is _ ih =>
    rw [List.append_assoc]
    refine (ih _ hroom).bind fun slot hslot => ?_
    obtain ⟨p, rfl, rfl⟩ := hslot.exists_bare
    have hlt : stack.length < code.maxStack :=
      Nat.lt_of_lt_of_le (Nat.lt_add_of_pos_right operand.need_pos) hroom
    rw [List.singleton_append, Code.runFrom_of_next (Code.step_negate rfl hlt)]
    exact .value (Slot.HasForm.of_kind p.kind_neg)
  | @binary op left right k ls rs _ _ ihl ihr =>
    rw [need] at hroom
    rw [List.append_assoc, List.append_assoc]
    -- The left operand stays on the stack while the code of the right one runs.
    refine (ihl _ (by omega)).bind fun slot hslot => ?_
    refine (ihr _ (by rw [List.length_cons]; omega)).bind fun slot' hslot' => ?_
    obtain ⟨l, rfl, hl⟩ := hslot.exists_bare
    obtain ⟨r, rfl, hr⟩ := hslot'.exists_bare
    have hlt : stack.length < code.maxStack := by omega
    have hstep : code.step env (.binary k op.byte) (.bare r :: .bare l :: stack) = _ :=
      Code.step_binary op hl hr hlt
    change Code.Follows _ _ _ _ _ (((op.onPair (.widen l r)).map .scalar).mapError .runtime) _
    rcases op.onPair_spec (.widen l r) with ⟨p, hp, hkind⟩ | hzero
    · rw [hp] at hstep ⊢
      rw [ScalarPair.kind_widen_of_kind_eq hl hr] at hkind
      rw [List.singleton_append, Code.runFrom_of_next hstep]
      exact .value (Slot.HasForm.of_kind hkind)
    · rw [hzero] at hstep ⊢
      rw [List.singleton_append, Code.runFrom_of_error hstep]
      exact .error _

/-- Compiled code gives the outcome of its tree, unless it meets a variable of
    another kind. -/
theorem Lowered.execute_eq (h : t.Lowered code form is) (env : Environment) :
    code.execute env = t.outcome env ∨
      ∃ k found, code.execute env = .error (.runtime (.otherKind k found)) := by
  have hrun : code.Follows env form [.ret] [] (t.outcome env)
      (code.runFrom env (is ++ [.ret]) []) := h.lowers.follows env [.ret] (by simp [h.maxStack])
  rw [Code.execute, h.instructions]
  generalize t.outcome env = outcome, code.runFrom env (is ++ [.ret]) [] = run at hrun ⊢
  cases hrun with
  | @value slot hslot =>
    left
    rw [Code.runFrom, Code.step_ret_of_hasForm h.form hslot]
  | error e => exact .inl rfl
  | otherKind _ k found => exact .inr ⟨k, found, rfl⟩

end Tree

/-! ### Agreement -/

namespace Code

variable {t : Tree} {code : Code}

/-- Compiled code and an interpretation of its tree, in whatever state its nodes
    are, end alike in every environment, unless the code meets a variable of
    another kind or the interpretation the limit on nesting. So a value of the code
    is that of the interpretation, if the limit lets it come to an end. -/
theorem agrees_of_compile (h : t.compile = .ok code) (env : Environment) :
    (code.execute env = (t.evaluate env).result ∨
      (∃ k found, code.execute env = .error (.runtime (.otherKind k found))) ∨
      ∃ depth maxDepth, (t.evaluate env).result = .error (.limit (.tooDeep depth maxDepth))) ∧
    ∀ v, code.execute env = .ok v →
      (∀ depth maxDepth, (t.evaluate env).result ≠ .error (.limit (.tooDeep depth maxDepth))) →
      ∃ w, (t.evaluate env).result = .ok w ∧ v.identical w = true := by
  obtain ⟨form, is, _, _, hlowered⟩ := Tree.lowered_of_compile h
  have hresult := (t.evaluates env).result_eq
  refine ⟨?_, fun v hv hfits => ⟨v, ?_, v.identical_self⟩⟩
  · rcases hlowered.execute_eq env with hexecute | hmismatch
    · rcases hresult with houtcome | ⟨_, hdeep⟩
      · exact .inl (hexecute.trans houtcome.symm)
      · exact .inr (.inr hdeep)
    · exact .inr (.inl hmismatch)
  · rcases hlowered.execute_eq env with hexecute | ⟨_, _, hmismatch⟩
    · rcases hresult with houtcome | ⟨_, depth, maxDepth, hdeep⟩
      · rw [houtcome, ← hexecute, hv]
      · exact absurd hdeep (hfits depth maxDepth)
    · rw [hmismatch] at hv
      cases hv

theorem agrees_of_compile_tripled : Tree.tripled.compile = .ok tripled ∧
    tripled.execute (.set {} "x" (.scalar (.int32 5))) = .ok (.scalar (.int32 15)) ∧
    ∃ w, (Tree.tripled.evaluate (.set {} "x" (.scalar (.int32 5)))).result = .ok w ∧
      (Value.scalar (.int32 15)).identical w = true :=
  ⟨Tree.compile_tripled, rfl,
    (agrees_of_compile Tree.compile_tripled _).2 _ rfl fun _ _ h => by cases h⟩

end Code

end AdaptiveArith
