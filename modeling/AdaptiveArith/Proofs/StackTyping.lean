import AdaptiveArith.Proofs.Lowering
import AdaptiveArith.Proofs.Machine

/-!
# Compiled code is type safe

The forms of the values on the stack can be foretold from the code alone:
`Code.Turns` says which forms an instruction expects on top of the stack and which
it leaves there, and `Code.TurnsAll` says it of a sequence of instructions. An
instruction that meets what it expects keeps the stack to its forms, or fails for
reasons that lie in the inputs (`Code.Turns.step`).

The code of a tree adds one value to whatever is on the stack
(`Tree.Lowers.turnsAll`). So a run of compiled code never finds a wrong operand,
and comes to its end with exactly the result on the stack
(`Code.Reaches.holds_of_lowered`).
-/

namespace AdaptiveArith

/-- The slot holds a value in the given form. -/
inductive Slot.HasForm : Slot → Form → Prop
  | bare (p : Scalar) : HasForm (.bare p) (.bare p.kind)
  | boxed (v : Value) (k : ScalarKind) : HasForm (.boxed v) (.boxed k)

namespace Slot

variable {slot : Slot} {stack : List Slot} {forms : List Form} {k : ScalarKind}

theorem HasForm.of_kind {p : Scalar} (h : p.kind = k) :
    (Slot.bare p).HasForm (.bare k) := by
  subst h
  exact .bare p

theorem HasForm.exists_bare (h : slot.HasForm (.bare k)) : ∃ p, slot = .bare p ∧ p.kind = k := by
  cases h with
  | bare p => exact ⟨p, rfl, rfl⟩

theorem HasForm.exists_boxed (h : slot.HasForm (.boxed k)) : ∃ v, slot = .boxed v := by
  cases h with
  | boxed v => exact ⟨v, rfl⟩

theorem exists_bare_of_forall₂ (h : List.Forall₂ HasForm stack (.bare k :: forms)) :
    ∃ p rest, stack = .bare p :: rest ∧ p.kind = k ∧ List.Forall₂ HasForm rest forms := by
  obtain ⟨slot, rest, hslot, hrest, rfl⟩ := List.forall₂_cons_right_iff.1 h
  obtain ⟨p, rfl, hp⟩ := hslot.exists_bare
  exact ⟨p, rest, rfl, hp, hrest⟩

theorem exists_boxed_of_forall₂ (h : List.Forall₂ HasForm stack (.boxed k :: forms)) :
    ∃ v rest, stack = .boxed v :: rest ∧ List.Forall₂ HasForm rest forms := by
  obtain ⟨slot, rest, hslot, hrest, rfl⟩ := List.forall₂_cons_right_iff.1 h
  obtain ⟨v, rfl⟩ := hslot.exists_boxed
  exact ⟨v, rest, rfl, hrest⟩

end Slot

namespace Code

variable {code : Code} {env : Environment} {i : Instruction} {is is' : List Instruction}
  {forms forms' forms'' : List Form} {stack : List Slot} {k : ScalarKind}

/-! ### Typing instructions -/

/-- The instruction turns a stack of values in the first forms, topmost first,
    into one of values in the second. -/
inductive Turns (code : Code) : Instruction → List Form → List Form → Prop
  | loadConstant {i : UInt8} {p : Scalar} {forms : List Form} :
      code.tables.constants[i.toNat]? = some p → forms.length < code.maxStack →
      Turns code (.loadConstant i) forms (.bare p.kind :: forms)
  | loadVariable {i : UInt8} {name : String} {forms : List Form} (k : ScalarKind) :
      code.tables.variables[i.toNat]? = some name → forms.length < code.maxStack →
      Turns code (.loadVariable i) forms (.boxed k :: forms)
  | unbox {m : ScalarKind} {forms : List Form} (k : ScalarKind) :
      Turns code (.unbox k.byte) (.boxed m :: forms) (.bare k :: forms)
  | binary {forms : List Form} (op : Operator) (k : ScalarKind) :
      Turns code (.binary k op.byte) (.bare k :: .bare k :: forms) (.bare k :: forms)
  | negate {forms : List Form} (k : ScalarKind) :
      Turns code (.negate k) (.bare k :: forms) (.bare k :: forms)

/-- The instructions, one after the other, turn a stack of values in the first
    forms into one of values in the second. -/
inductive TurnsAll (code : Code) : List Instruction → List Form → List Form → Prop
  | nil (forms : List Form) : TurnsAll code [] forms forms
  | cons {i : Instruction} {is : List Instruction} {forms forms' forms'' : List Form} :
      code.Turns i forms forms' → TurnsAll code is forms' forms'' →
      TurnsAll code (i :: is) forms forms''

theorem TurnsAll.append (h : code.TurnsAll is forms forms')
    (h' : code.TurnsAll is' forms' forms'') : code.TurnsAll (is ++ is') forms forms'' := by
  induction h with
  | nil => exact h'
  | cons hi _ ih => exact .cons hi (ih h')

theorem Turns.all (h : code.Turns i forms forms') : code.TurnsAll [i] forms forms' :=
  .cons h (.nil _)

end Code

/-- The code of a tree leaves one more value on the stack, in its form. -/
theorem Tree.Lowers.turnsAll {t : Tree} {code : Code} {form : Form} {is : List Instruction}
    {forms : List Form} (h : t.Lowers code.tables form is)
    (hroom : forms.length + t.need ≤ code.maxStack) : code.TurnsAll is forms (form :: forms) := by
  induction h generalizing forms with
  | literal hi => exact (Code.Turns.loadConstant hi hroom).all
  | reference hi => exact (Code.Turns.loadVariable _ hi hroom).all
  | unboxed _ ih => exact (ih hroom).append (Code.Turns.unbox _).all
  | plus _ ih => exact ih hroom
  | minus _ ih => exact (ih hroom).append (Code.Turns.negate _).all
  | @binary op left right k _ _ _ _ ihl ihr =>
    rw [need] at hroom
    have hleft : code.TurnsAll _ forms (.bare k :: forms) := ihl (by omega)
    have hright : code.TurnsAll _ (.bare k :: forms) (.bare k :: .bare k :: forms) :=
      ihr (by rw [List.length_cons]; omega)
    exact (hleft.append hright).append (Code.Turns.binary op k).all

/-! ### Safety -/

namespace Code

variable {code : Code} {env : Environment} {i : Instruction} {is is' : List Instruction}
  {forms forms' forms'' : List Form} {stack : List Slot} {k : ScalarKind}

/-- The stack holds values in the given forms, and no more than it has room for. -/
structure Holds (code : Code) (stack : List Slot) (forms : List Form) : Prop where
  forms : List.Forall₂ Slot.HasForm stack forms
  room : stack.length ≤ code.maxStack

/-- An instruction that finds the forms it expects leaves the forms it promises,
    unless it fails because of the inputs. -/
theorem Turns.step (h : code.Turns i forms forms') (hstack : code.Holds stack forms) :
    (∃ stack', code.step env i stack = .ok (.next stack') ∧ code.Holds stack' forms') ∨
      ∃ e, code.step env i stack = .error e ∧ e.dependsOnInputs = true := by
  obtain ⟨hforms, hroom⟩ := hstack
  cases h with
  | @loadConstant i p _ hi hlt =>
    rw [← hforms.length_eq] at hlt
    exact .inl ⟨_, step_loadConstant hi hlt, .cons (.bare p) hforms, hlt⟩
  | @loadVariable i name _ k hi hlt =>
    rw [← hforms.length_eq] at hlt
    rw [step_loadVariable hi hlt]
    cases hlookup : env.lookup name with
    | ok v => exact .inl ⟨_, rfl, .cons (.boxed v k) hforms, hlt⟩
    | error e =>
      obtain rfl := Environment.eq_unbound_of_lookup hlookup
      exact .inr ⟨_, rfl, rfl⟩
  | unbox k =>
    obtain ⟨v, rest, rfl, hrest⟩ := Slot.exists_boxed_of_forall₂ hforms
    rw [step_unbox v hroom]
    rcases unboxed_spec k v with ⟨p, _, rfl, hp⟩ | hmismatch
    · rw [hp]
      exact .inl ⟨_, rfl, .cons (.bare p) hrest, hroom⟩
    · rw [hmismatch]
      exact .inr ⟨_, rfl, rfl⟩
  | binary op k =>
    obtain ⟨r, stack, rfl, hr, hforms⟩ := Slot.exists_bare_of_forall₂ hforms
    obtain ⟨l, rest, rfl, hl, hrest⟩ := Slot.exists_bare_of_forall₂ hforms
    have hlt : rest.length < code.maxStack := Nat.lt_of_succ_lt hroom
    rw [step_binary op hl hr hlt]
    rcases op.onPair_spec (.widen l r) with ⟨p, hp, hkind⟩ | hzero
    · rw [hp]
      rw [ScalarPair.kind_widen_of_kind_eq hl hr] at hkind
      exact .inl ⟨_, rfl, .cons (.of_kind hkind) hrest, hlt⟩
    · rw [hzero]
      exact .inr ⟨_, rfl, rfl⟩
  | negate k =>
    obtain ⟨p, rest, rfl, rfl, hrest⟩ := Slot.exists_bare_of_forall₂ hforms
    exact .inl ⟨_, step_negate rfl hroom, .cons (.of_kind p.kind_neg) hrest, hroom⟩

/-- A result in the declared form is returned. -/
theorem step_ret_of_hasForm {slot : Slot} {form : Form} (hform : code.form? = some form)
    (h : slot.HasForm form) : code.step env .ret [slot] = .ok (.returned slot.value) := by
  rw [step_ret, checkForm, hform]
  cases h with
  | bare p => simp only [if_pos]; rfl
  | boxed v k => rfl

theorem Holds.exists_slot {form : Form} (h : code.Holds stack [form]) :
    ∃ slot, stack = [slot] ∧ slot.HasForm form := by
  obtain ⟨slot, _, hslot, hrest, rfl⟩ := List.forall₂_cons_right_iff.1 h.forms
  obtain rfl := List.forall₂_nil_right_iff.1 hrest
  exact ⟨slot, rfl, hslot⟩

variable {t : Tree} {form : Form}

/-- Whatever a run of the code of a tree comes to, what is left of the code turns
    the stack into the result alone. -/
theorem Reaches.holds_of_lowered (ht : t.Lowered code form is) (h : code.Reaches env is' stack) :
    ∃ js forms, is' = js ++ [.ret] ∧ code.TurnsAll js forms [form] ∧ code.Holds stack forms := by
  induction h with
  | start =>
    exact ⟨is, [], ht.instructions, ht.lowers.turnsAll (by simp [ht.maxStack]), .nil,
      Nat.zero_le _⟩
  | @next i is' stack stack' _ hstep ih =>
    obtain ⟨js, forms, hjs, hturns, hholds⟩ := ih
    cases hturns with
    | nil =>
      -- What is left is `ret` alone, which does not go on.
      obtain ⟨rfl, rfl⟩ := List.cons.inj hjs
      obtain ⟨slot, rfl, hslot⟩ := hholds.exists_slot
      rw [step_ret_of_hasForm ht.form hslot] at hstep
      cases hstep
    | @cons j js _ forms' _ hturn hturns =>
      obtain ⟨rfl, rfl⟩ := List.cons.inj hjs
      rcases hturn.step hholds with ⟨_, hnext, hholds'⟩ | ⟨_, herror, _⟩
      · rw [hnext] at hstep
        cases hstep
        exact ⟨js, forms', rfl, hturns, hholds'⟩
      · rw [herror] at hstep
        cases hstep

theorem TurnsAll.dependsOnInputs {e : EvalError} (h : code.TurnsAll is forms [form])
    (hform : code.form? = some form) (hstack : code.Holds stack forms)
    (he : code.runFrom env (is ++ [.ret]) stack = .error e) : e.dependsOnInputs = true := by
  generalize hforms : [form] = result at h
  -- Induction on the code that is left: its first instruction goes on or fails.
  induction h generalizing stack with
  | nil =>
    subst hforms
    obtain ⟨slot, rfl, hslot⟩ := hstack.exists_slot
    rw [List.nil_append, runFrom, step_ret_of_hasForm hform hslot] at he
    cases he
  | cons hturn _ ih =>
    rcases hturn.step hstack with ⟨_, hnext, hstack'⟩ | ⟨e', herror, he'⟩
    · rw [List.cons_append, runFrom_of_next hnext] at he
      exact ih hstack' he hforms
    · rw [List.cons_append, runFrom_of_error herror] at he
      exact Except.error.inj he ▸ he'

/-- At the end, the result is all there is on the stack. -/
theorem Reaches.exists_slot_of_ret (ht : t.Lowered code form is)
    (h : code.Reaches env (.ret :: is') stack) :
    is' = [] ∧ ∃ slot, stack = [slot] ∧ slot.HasForm form := by
  obtain ⟨js, forms, hjs, hturns, hholds⟩ := h.holds_of_lowered ht
  cases hturns with
  | nil => exact ⟨(List.cons.inj hjs).2, hholds.exists_slot⟩
  | cons hturn _ =>
    obtain ⟨rfl, _⟩ := List.cons.inj hjs
    cases hturn

/-- Only the end of the code returns. -/
theorem Reaches.eq_ret_of_returned {v : Value} (ht : t.Lowered code form is)
    (h : code.Reaches env (i :: is') stack) (hv : code.step env i stack = .ok (.returned v)) :
    i = .ret := by
  obtain ⟨js, forms, hjs, hturns, hholds⟩ := h.holds_of_lowered ht
  cases hturns with
  | nil => exact (List.cons.inj hjs).1
  | cons hturn _ =>
    obtain ⟨rfl, _⟩ := List.cons.inj hjs
    rcases hturn.step hholds with ⟨_, hnext, _⟩ | ⟨_, herror, _⟩
    · rw [hnext] at hv
      cases hv
    · rw [herror] at hv
      cases hv

/-- Compiled code is type safe in every environment: it never fails for reasons
    that lie in the code, and when it returns, the stack holds the result and
    nothing else, as a bare scalar of the declared kind if one is declared. -/
theorem safe_of_compile (h : t.compile = .ok code) (env : Environment) :
    (∀ e, code.execute env = .error e → e.dependsOnInputs = true) ∧
    (∀ is stack, code.Reaches env (.ret :: is) stack → ∃ slot, stack = [slot] ∧
      ∀ k, code.form? = some (.bare k) → ∃ p, slot = .bare p ∧ p.kind = k) ∧
    ∀ v, code.execute env = .ok v → ∃ slot, code.Reaches env [.ret] [slot] ∧ slot.value = v := by
  obtain ⟨form, body, _, _, ht⟩ := Tree.lowered_of_compile h
  refine ⟨fun e he => ?_, fun is stack hreaches => ?_, fun v hv => ?_⟩
  · rw [execute, ht.instructions] at he
    exact (ht.lowers.turnsAll (by simp [ht.maxStack])).dependsOnInputs ht.form
      ⟨.nil, Nat.zero_le _⟩ he
  · obtain ⟨_, slot, rfl, hslot⟩ := hreaches.exists_slot_of_ret ht
    refine ⟨slot, rfl, fun k hk => ?_⟩
    obtain rfl := Option.some.inj (ht.form.symm.trans hk)
    exact hslot.exists_bare
  · obtain ⟨i, is', stack, hreaches, hreturned⟩ := Reaches.start.returned hv
    obtain rfl := hreaches.eq_ret_of_returned ht hreturned
    obtain ⟨rfl, slot, rfl, hslot⟩ := hreaches.exists_slot_of_ret ht
    rw [step_ret_of_hasForm ht.form hslot] at hreturned
    cases hreturned
    exact ⟨slot, hreaches, rfl⟩

theorem safe_of_compile_tripled : Tree.tripled.compile = .ok tripled ∧
    tripled.execute {} = .error (.runtime (.unbound "x")) ∧
    (EvalError.runtime (.unbound "x")).dependsOnInputs = true ∧
    ∃ slot, tripled.Reaches (.set {} "x" (.scalar (.int32 5))) [.ret] [slot] ∧
      (∃ p, slot = .bare p ∧ p.kind = .int32) ∧ slot.value = .scalar (.int32 15) := by
  have hsafe := safe_of_compile Tree.compile_tripled
  refine ⟨Tree.compile_tripled, rfl, (hsafe {}).1 _ rfl, ?_⟩
  obtain ⟨slot, hreaches, hvalue⟩ := (hsafe (.set {} "x" (.scalar (.int32 5)))).2.2 _ rfl
  obtain ⟨_, heq, hform⟩ := (hsafe _).2.1 _ _ hreaches
  obtain rfl := (List.cons.inj heq).1
  exact ⟨slot, hreaches, hform _ rfl, hvalue⟩

end Code

end AdaptiveArith
