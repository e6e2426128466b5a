import AdaptiveArith.Code.Machine
import AdaptiveArith.Proofs.Tables

/-!
# What the machine does with the operands it expects

Each instruction finds its operands on the stack in some form, and leaves its
result there. Given operands of the right form and a stack with room, an
instruction does one thing (`Code.step_loadConstant` and the like), and what can
still go wrong are the three errors of `EvalError.dependsOnInputs`: a variable may
be unbound or of another kind, and an integer may be divided by zero.

`Code.Reaches` says which instructions a run comes to, and with which stack.
-/

namespace AdaptiveArith

/-! ### Outcomes -/

section Outcomes

variable {ε α β : Type} {x : Except ε α} {b : β}

theorem exists_of_map_eq_ok {f : α → β} (h : x.map f = .ok b) : ∃ a, x = .ok a ∧ f a = b := by
  cases x with
  | ok a => exact ⟨a, rfl, Except.ok.inj h⟩
  | error => cases h

theorem map_eq_error_iff {f : α → β} {e : ε} : x.map f = .error e ↔ x = .error e := by
  cases x <;> simp [Except.map]

theorem exists_of_bind_eq_ok {f : α → Except ε β} (h : x >>= f = .ok b) :
    ∃ a, x = .ok a ∧ f a = .ok b := by
  cases x with
  | ok a => exact ⟨a, rfl, h⟩
  | error => cases h

theorem eq_ok_of_mapError_eq_ok {ε' : Type} {f : ε → ε'} {a : α} (h : x.mapError f = .ok a) :
    x = .ok a := by
  cases x with
  | ok => rw [Except.ok.inj h]
  | error => cases h

end Outcomes

/-! ### Errors -/

/-- The error is due to the values of variables and to what is computed from
    them, and not to the code. -/
def EvalError.dependsOnInputs : EvalError → Bool
  | .runtime (.unbound _) | .runtime (.otherKind _ _) | .runtime .divisionByZero => true
  | _ => false

theorem Environment.eq_unbound_of_lookup {env : Environment} {name : String} {e : RuntimeError}
    (h : env.lookup name = .error e) : e = .unbound name := by
  rw [lookup] at h
  split at h
  · cases h
  · exact (Except.error.inj h).symm

/-! ### Operators on scalars of one kind -/

namespace ScalarPair

theorem ofSameKind?_eq_widen {l r : Scalar} (h : l.kind = r.kind) :
    ofSameKind? l r = some (widen l r) := by
  cases l <;> cases r <;> simp only [Scalar.kind, reduceCtorEq] at h <;> rfl

theorem kind_widen_of_kind_eq {l r : Scalar} {k : ScalarKind} (hl : l.kind = k) (hr : r.kind = k) :
    (widen l r).kind = k := by
  rw [kind_widen, hl, hr]
  cases k <;> rfl

end ScalarPair

@[simp]
theorem Scalar.kind_neg (p : Scalar) : p.neg.kind = p.kind := by
  cases p <;> rfl

/-- The operator divides. -/
def Operator.divides : Operator → Bool
  | add | sub | mul => false
  | div | mod => true

/-- The pair is one of integers, and the second of them is zero. -/
def ScalarPair.hasZeroDivisor : ScalarPair → Bool
  | int32 _ r => r == 0
  | int64 _ r => r == 0
  | float32 .. | float64 .. => false

namespace Operator

variable {op : Operator} {pair : ScalarPair} {p : Scalar} {e : RuntimeError}

theorem onInt32_eq_error_iff {l r : Int32} :
    op.onInt32 l r = .error e ↔ op.divides = true ∧ r = 0 ∧ e = .divisionByZero := by
  cases op with
  | add | sub | mul => simp [onInt32, divides]
  | div | mod => by_cases hr : r = 0 <;> simp [onInt32, divides, hr, eq_comm]

theorem onInt64_eq_error_iff {l r : Int64} :
    op.onInt64 l r = .error e ↔ op.divides = true ∧ r = 0 ∧ e = .divisionByZero := by
  cases op with
  | add | sub | mul => simp [onInt64, divides]
  | div | mod => by_cases hr : r = 0 <;> simp [onInt64, divides, hr, eq_comm]

/-- Operators on scalars of one kind fail on integers that are divided by zero, and only there. -/
theorem onPair_eq_error_iff : op.onPair pair = .error e ↔
    op.divides = true ∧ pair.hasZeroDivisor = true ∧ e = .divisionByZero := by
  cases pair with
  | int32 l r =>
    rw [onPair, map_eq_error_iff, onInt32_eq_error_iff, ScalarPair.hasZeroDivisor, beq_iff_eq]
  | int64 l r =>
    rw [onPair, map_eq_error_iff, onInt64_eq_error_iff, ScalarPair.hasZeroDivisor, beq_iff_eq]
  | float32 l r | float64 l r => simp [onPair, ScalarPair.hasZeroDivisor]

theorem kind_of_onPair (h : op.onPair pair = .ok p) : p.kind = pair.kind := by
  cases pair with
  | int32 l r | int64 l r =>
    obtain ⟨_, _, rfl⟩ := exists_of_map_eq_ok h
    rfl
  | float32 l r | float64 l r =>
    cases h
    rfl

/-- Two scalars of one kind give a scalar of that kind, but for a division by zero. -/
theorem onPair_spec (op : Operator) (pair : ScalarPair) :
    (∃ p, op.onPair pair = .ok p ∧ p.kind = pair.kind) ∨
      op.onPair pair = .error .divisionByZero := by
  cases h : op.onPair pair with
  | ok p => exact .inl ⟨p, rfl, kind_of_onPair h⟩
  | error e =>
    obtain ⟨_, _, rfl⟩ := onPair_eq_error_iff.1 h
    exact .inr rfl

end Operator

/-! ### Single instructions -/

namespace Code

variable {code : Code} {env : Environment} {stack : List Slot} {i : UInt8} {k : ScalarKind}
  {p l r : Scalar}

theorem push_of_lt (slot : Slot) (h : stack.length < code.maxStack) :
    code.push slot stack = .ok (slot :: stack) := by
  rw [push, if_pos h]

theorem popBare_bare (mnemonic : String) (h : p.kind = k) :
    popBare mnemonic k (.bare p :: stack) = .ok (p, stack) := by
  simp only [popBare, pop, bind, Except.bind, h, if_true]
  rfl

/-- Unboxing gives the scalar in a value if it is of the expected kind. -/
theorem unboxed_spec (k : ScalarKind) (v : Value) :
    (∃ p, v = .scalar p ∧ p.kind = k ∧ unboxed k (.boxed v) = .ok p) ∨
      unboxed k (.boxed v) = .error (.runtime (.otherKind k v.kind)) := by
  cases v with
  | scalar p =>
    by_cases hp : p.kind = k
    · exact .inl ⟨p, rfl, hp, if_pos hp⟩
    · exact .inr (if_neg hp)
  | decimal _ | text _ | host _ => exact .inr rfl

theorem step_loadConstant (hi : code.tables.constants[i.toNat]? = some p)
    (h : stack.length < code.maxStack) :
    code.step env (.loadConstant i) stack = .ok (.next (.bare p :: stack)) := by
  have hget : code.constants[i.toNat]? = some p := by rwa [← Array.getElem?_toList]
  simp only [step, hget, push_of_lt _ h]
  rfl

theorem step_loadVariable {name : String} (hi : code.tables.variables[i.toNat]? = some name)
    (h : stack.length < code.maxStack) : code.step env (.loadVariable i) stack =
      ((env.lookup name).mapError .runtime).map fun v => .next (.boxed v :: stack) := by
  have hget : code.variables[i.toNat]? = some name := by rwa [← Array.getElem?_toList]
  simp only [step, hget, push_of_lt _ h]
  cases env.lookup name <;> rfl

theorem step_unbox (v : Value) (h : stack.length < code.maxStack) :
    code.step env (.unbox k.byte) (.boxed v :: stack) =
      (unboxed k (.boxed v)).map fun p => .next (.bare p :: stack) := by
  simp only [step, ScalarKind.ofByte?_byte, pop, bind, Except.bind]
  cases unboxed k (.boxed v) with
  | error e => rfl
  | ok p => simp only [push_of_lt _ h]; rfl

theorem step_binary (op : Operator) (hl : l.kind = k) (hr : r.kind = k)
    (h : stack.length < code.maxStack) :
    code.step env (.binary k op.byte) (.bare r :: .bare l :: stack) =
      ((op.onPair (.widen l r)).mapError .runtime).map fun p => .next (.bare p :: stack) := by
  simp only [step, Operator.ofByte?_byte, popBare_bare _ hl, popBare_bare _ hr, bind, Except.bind,
    ScalarPair.ofSameKind?_eq_widen (hl.trans hr.symm)]
  cases op.onPair (.widen l r) with
  | error e => rfl
  | ok p => simp only [Except.mapError, push_of_lt _ h]; rfl

theorem step_negate (hp : p.kind = k) (h : stack.length < code.maxStack) :
    code.step env (.negate k) (.bare p :: stack) = .ok (.next (.bare p.neg :: stack)) := by
  simp only [step, popBare_bare _ hp, bind, Except.bind, Operator.onScalar, Except.mapError,
    push_of_lt _ h]
  rfl

theorem step_ret (slot : Slot) :
    code.step env .ret (slot :: stack) = (code.checkForm slot).map .returned := by
  simp only [step, pop, bind, Except.bind]
  cases code.checkForm slot <;> rfl

/-! ### Runs -/

/-- A run comes to the instructions that are left, with a stack. -/
inductive Reaches (code : Code) (env : Environment) : List Instruction → List Slot → Prop
  | start : Reaches code env code.instructions.toList []
  | next {i : Instruction} {is : List Instruction} {stack stack' : List Slot} :
      Reaches code env (i :: is) stack → code.step env i stack = .ok (.next stack') →
      Reaches code env is stack'

variable {instruction : Instruction} {is : List Instruction} {stack' : List Slot} {v : Value}

theorem runFrom_of_next (h : code.step env instruction stack = .ok (.next stack')) :
    code.runFrom env (instruction :: is) stack = code.runFrom env is stack' := by
  rw [runFrom, h]

theorem runFrom_of_error {e : EvalError} (h : code.step env instruction stack = .error e) :
    code.runFrom env (instruction :: is) stack = .error e := by
  rw [runFrom, h]

/-- A run that gives a value comes to an instruction that returns it. -/
theorem Reaches.returned (h : code.Reaches env is stack)
    (hrun : code.runFrom env is stack = .ok v) :
    ∃ i is' stack', code.Reaches env (i :: is') stack' ∧
      code.step env i stack' = .ok (.returned v) := by
  induction is generalizing stack with
  | nil => cases hrun
  | cons i is ih =>
    rw [runFrom] at hrun
    split at hrun
    next => cases hrun
    next hstep =>
      obtain rfl := Except.ok.inj hrun
      exact ⟨i, is, stack, h, hstep⟩
    next hstep => exact ih (h.next hstep) hrun

end Code

end AdaptiveArith
