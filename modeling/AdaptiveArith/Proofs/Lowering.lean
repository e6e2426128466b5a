import AdaptiveArith.Proofs.Settled
import AdaptiveArith.Proofs.Tables
import AdaptiveArith.Tree.Compile

/-!
# Which code a tree is compiled to

`Tree.Lowers` relates a tree to the instructions that compute it, without
mentioning the emitter: the operands of an operator in order, each left as a bare
scalar, and then the operator. A variable is left boxed and is unboxed where it
is an operand. The relation is relative to the tables that the indices point
into, and holds relative to all larger tables.

* `Tree.emit_spec`: what the emitter adds for a tree lowers it, raises the stack by
  one slot, and needs `Tree.need` slots while it runs;
* `Tree.lowered_of_compile`: a compiled code is such a lowering followed by `ret`,
  declares the form of the tree and has exactly the slots it needs.
-/

namespace AdaptiveArith

/-! ### Lowering -/

namespace Tree

/-- The instructions leave the value of the tree in the given form. -/
inductive Lowers (tables : Tables) : Tree → Form → List Instruction → Prop
  | literal {p : Scalar} {i : UInt8} : tables.constants[i.toNat]? = some p →
      Lowers tables (.literal (.scalar p)) (.bare p.kind) [.loadConstant i]
  | reference {name : String} {k : ScalarKind} {i : UInt8} :
      tables.variables[i.toNat]? = some name →
      Lowers tables (.reference name (some k)) (.boxed k) [.loadVariable i]
  | unboxed {t : Tree} {k : ScalarKind} {is : List Instruction} : Lowers tables t (.boxed k) is →
      Lowers tables t (.bare k) (is ++ [.unbox k.byte])
  | plus {operand : Tree} {k : ScalarKind} {is : List Instruction} :
      Lowers tables operand (.bare k) is →
      Lowers tables (.unary .add (.scalar k) operand) (.bare k) is
  | minus {operand : Tree} {k : ScalarKind} {is : List Instruction} :
      Lowers tables operand (.bare k) is →
      Lowers tables (.unary .sub (.scalar k) operand) (.bare k) (is ++ [.negate k])
  | binary {op : Operator} {left right : Tree} {k : ScalarKind} {ls rs : List Instruction} :
      Lowers tables left (.bare k) ls → Lowers tables right (.bare k) rs →
      Lowers tables (.binary op (.scalar k) left right) (.bare k) (ls ++ rs ++ [.binary k op.byte])

variable {t left right operand : Tree} {k : ScalarKind} {form : Form} {op : Operator}
  {tables tables' : Tables} {is : List Instruction} {e e' e'' : Emitter}

/-- Larger tables hold the same entries at the same indices. -/
theorem Lowers.mono (h : t.Lowers tables form is) (htables : tables.Within tables') :
    t.Lowers tables' form is := by
  induction h with
  | literal hi => exact .literal (Tables.getElem?_of_prefix htables.constants hi)
  | reference hi => exact .reference (Tables.getElem?_of_prefix htables.variables hi)
  | unboxed _ ih => exact .unboxed ih
  | plus _ ih => exact .plus ih
  | minus _ ih => exact .minus ih
  | binary _ _ ihl ihr => exact .binary ihl ihr

/-- The number of slots of the stack that the code of the tree needs: the left
    operand of an operator stays there while the right one is computed. -/
def need : Tree → Nat
  | literal _ | reference _ _ => 1
  | unary _ _ operand => operand.need
  | binary _ _ left right => max left.need (right.need + 1)

theorem need_pos (t : Tree) : 0 < t.need := by
  induction t with
  | literal | reference => exact Nat.one_pos
  | unary _ _ _ ih => exact ih
  | binary _ _ _ _ ihl _ => exact Nat.lt_of_lt_of_le ihl (Nat.le_max_left _ _)

/-! ### Emission -/

/-- From the one emitter to the other, instructions are added that leave the value
    of the tree in the given form. -/
structure Emits (t : Tree) (form : Form) (e e' : Emitter) : Prop where
  within : e.tables.Within e'.tables
  bounded : e'.tables.Bounded
  depth : e'.depth = e.depth + 1
  maxDepth : e'.maxDepth = max e.maxDepth (e.depth + t.need)
  instructions : ∃ is, e'.instructions.toList = e.instructions.toList ++ is ∧
    t.Lowers e'.tables form is

/-- The forms of the values on the stack play no part in what is emitted. -/
theorem Emits.with_forms (h : t.Emits form e e') (forms : Forms) :
    t.Emits form e { e' with forms } :=
  ⟨h.within, h.bounded, h.depth, h.maxDepth, h.instructions⟩

theorem Emits.unbox (h : t.Emits (.boxed k) e e') : t.Emits (.bare k) e (e'.unbox k) := by
  obtain ⟨is, his, hlowers⟩ := h.instructions
  refine ⟨h.within, h.bounded, h.depth, h.maxDepth, _, ?_, hlowers.unboxed⟩
  rw [← List.append_assoc, ← his]
  exact Array.toList_push

theorem Emits.plus (h : operand.Emits (.bare k) e e') :
    (unary .add (.scalar k) operand).Emits (.bare k) e e' := by
  obtain ⟨is, his, hlowers⟩ := h.instructions
  exact ⟨h.within, h.bounded, h.depth, h.maxDepth, is, his, hlowers.plus⟩

theorem Emits.minus (h : operand.Emits (.bare k) e e') :
    (unary .sub (.scalar k) operand).Emits (.bare k) e (e'.negate k) := by
  obtain ⟨is, his, hlowers⟩ := h.instructions
  refine ⟨h.within, h.bounded, h.depth, h.maxDepth, _, ?_, hlowers.minus⟩
  rw [← List.append_assoc, ← his]
  exact Array.toList_push

theorem Emits.binary (hl : left.Emits (.bare k) e e') (hr : right.Emits (.bare k) e' e'') :
    (binary op (.scalar k) left right).Emits (.bare k) e (e''.binary op k) := by
  obtain ⟨ls, hls, hleft⟩ := hl.instructions
  obtain ⟨rs, hrs, hright⟩ := hr.instructions
  have hdepth : e''.depth - 2 + 1 = e.depth + 1 := by
    rw [hr.depth, hl.depth]
    omega
  refine ⟨hl.within.trans hr.within, hr.bounded, hdepth, ?_, _, ?_,
    .binary (hleft.mono hr.within) hright⟩
  · -- The operator itself raises the stack no further than its left operand has.
    change max e''.maxDepth (e''.depth - 2 + 1) = _
    have hneed := left.need_pos
    rw [hdepth, hr.maxDepth, hl.maxDepth, hl.depth, need]
    omega
  · rw [← List.append_assoc, ← List.append_assoc, ← hls, ← hrs]
    exact Array.toList_push

end Tree

namespace Emission

variable {emission : Emission} {next : Emitter → Emission}

theorem andThen_of_error?_eq_none (h : emission.error? = none) :
    emission.andThen next = next emission.emitter := by
  rw [andThen, h]

theorem error?_andThen_eq_none : (emission.andThen next).error? = none ↔
    emission.error? = none ∧ (next emission.emitter).error? = none := by
  cases h : emission.error? with
  | none => simp [andThen_of_error?_eq_none h]
  | some _ => simp [andThen, h]

/-- The emission has left the value of the tree as one of the given kind, in the
    form of the tree. -/
def Leaves (emission : Emission) (t : Tree) (k : ScalarKind) (e : Emitter) : Prop :=
  ∃ form, t.form? = some form ∧ form.kind = k ∧ t.Emits form e emission.emitter ∧
    emission.emitter.forms = e.forms.push form

/-- A value that becomes an operand is left as a bare scalar, and its form is
    forgotten. -/
theorem asOperand_spec {t : Tree} {k : ScalarKind} {e : Emitter}
    (hleaves : emission.error? = none → emission.Leaves t k e)
    (h : (emission.asOperand k).error? = none) :
    ∃ e', emission.asOperand k = done e' ∧ t.Emits (.bare k) e e' ∧ e'.forms = e.forms := by
  have herror := (error?_andThen_eq_none.1 h).1
  obtain ⟨form, _, hkind, hemits, hforms⟩ := hleaves herror
  rw [asOperand, andThen_of_error?_eq_none herror, Emitter.popForm, hforms]
  cases form with
  | bare m =>
    obtain rfl : m = k := hkind
    exact ⟨_, rfl, hemits.with_forms _, rfl⟩
  | boxed m =>
    obtain rfl : m = k := hkind
    exact ⟨_, rfl, (hemits.with_forms _).unbox, rfl⟩

end Emission

namespace Tree

variable {t left right operand : Tree} {k : ScalarKind} {op : Operator} {e : Emitter}

theorem emit_literal_spec {p : Scalar} (he : e.tables.Bounded)
    (h : ((literal (.scalar p)).emit e).error? = none) :
    ((literal (.scalar p)).emit e).Leaves (literal (.scalar p)) p.kind e := by
  cases hload : e.loadConstant p with
  | error error => simp [emit, Value.scalar?, hload, Emission.stopped] at h
  | ok e' =>
    obtain ⟨hwithin, hbounded, i, hi, heq⟩ := Emitter.loadConstant_eq_ok he hload
    refine ⟨.bare p.kind, rfl, rfl, ?_, ?_⟩ <;>
      simp only [emit, Value.scalar?, hload, Emission.done]
    · refine Emits.with_forms ⟨hwithin, hbounded, ?_, ?_, _, ?_, .literal hi⟩ _
      · rw [heq]; rfl
      · rw [heq]; rfl
      · rw [heq]; exact Array.toList_push
    · rw [heq]; rfl

theorem emit_reference_spec {name : String} (he : e.tables.Bounded)
    (h : ((reference name (some k)).emit e).error? = none) :
    ((reference name (some k)).emit e).Leaves (reference name (some k)) k e := by
  cases hload : e.loadVariable name with
  | error error => simp [emit, hload, Emission.stopped] at h
  | ok e' =>
    obtain ⟨hwithin, hbounded, i, hi, heq⟩ := Emitter.loadVariable_eq_ok he hload
    refine ⟨.boxed k, rfl, rfl, ?_, ?_⟩ <;> simp only [emit, hload, Emission.done]
    · refine Emits.with_forms ⟨hwithin, hbounded, ?_, ?_, _, ?_, .reference hi⟩ _
      · rw [heq]; rfl
      · rw [heq]; rfl
      · rw [heq]; exact Array.toList_push
    · rw [heq]; rfl

/-- The code of an operator on one operand is emitted after that of the operand. -/
theorem emit_unary (hoperand : operand.SettledOn k) (hop : op.isSign) :
    (unary op (.scalar k) operand).emit e = ((operand.emit e).asOperand k).andThen fun e =>
      .done ((if op = .sub then e.negate k else e).pushForm (.bare k)) := by
  rw [emit, operatingKind?_unary.2 ⟨rfl, hoperand.leavesKind, hop⟩]

/-- The code of an operator on two operands is emitted after those of the operands. -/
theorem emit_binary (hleft : left.SettledOn k) (hright : right.SettledOn k) :
    (binary op (.scalar k) left right).emit e = ((left.emit e).asOperand k).andThen fun e =>
      ((right.emit e).asOperand k).andThen fun e =>
        .done ((e.binary op k).pushForm (.bare k)) := by
  rw [emit, operatingKind?_binary.2 ⟨rfl, hleft.leavesKind, hright.leavesKind⟩]

/-- An emission that does not fail leaves the value of the tree in its form. -/
theorem emit_spec (ht : t.SettledOn k) (he : e.tables.Bounded) (h : (t.emit e).error? = none) :
    (t.emit e).Leaves t k e := by
  induction ht generalizing e with
  | literal hp => exact hp ▸ emit_literal_spec he h
  | reference => exact emit_reference_spec he h
  | @unary op operand hop hoperand ih =>
    rw [emit_unary hoperand hop] at h ⊢
    obtain ⟨e', he', hemits, hforms⟩ :=
      Emission.asOperand_spec (ih he) (Emission.error?_andThen_eq_none.1 h).1
    rw [he']
    cases op with
    | add => exact ⟨.bare k, rfl, rfl, hemits.plus.with_forms _, congrArg (Forms.push · _) hforms⟩
    | sub => exact ⟨.bare k, rfl, rfl, hemits.minus.with_forms _, congrArg (Forms.push · _) hforms⟩
    | mul | div | mod => cases hop
  | @binary op left right hleft hright ihl ihr =>
    rw [emit_binary hleft hright] at h ⊢
    obtain ⟨hfirst, hsecond⟩ := Emission.error?_andThen_eq_none.1 h
    obtain ⟨e', he', hemits, hforms⟩ := Emission.asOperand_spec (ihl he) hfirst
    rw [he'] at hsecond ⊢
    obtain ⟨e'', he'', hemits', hforms'⟩ := Emission.asOperand_spec (ihr hemits.bounded)
      (Emission.error?_andThen_eq_none.1 hsecond).1
    refine ⟨.bare k, rfl, rfl, ?_, ?_⟩ <;>
      rw [Emission.andThen_of_error?_eq_none rfl, Emission.done, he'']
    · exact (hemits.binary hemits').with_forms _
    · exact congrArg (Forms.push · _) (hforms'.trans hforms)

/-! ### Compilation -/

/-- The code of a tree: instructions that leave its value in a form, and `ret`. -/
structure Lowered (t : Tree) (code : Code) (form : Form) (is : List Instruction) : Prop where
  instructions : code.instructions.toList = is ++ [.ret]
  lowers : t.Lowers code.tables form is
  form : code.form? = some form
  maxStack : code.maxStack = t.need

/-- A tree that is compiled has settled on the kind of the form it is left in. -/
theorem lowered_of_compile {code : Code} (h : t.compile = .ok code) :
    ∃ form is, t.SettledOn form.kind ∧ t.form? = some form ∧ t.Lowered code form is := by
  rw [compile] at h
  split at h
  next hcompilable =>
    obtain ⟨k, hk⟩ := isCompilable_iff.1 hcompilable
    dsimp only at h
    split at h
    next => cases h
    next herror =>
      obtain ⟨form, hform, rfl, hemits, hforms⟩ :=
        emit_spec hk Emitter.tables_bounded_empty herror
      obtain ⟨is, his, hlowers⟩ := hemits.instructions
      obtain rfl := Except.ok.inj h
      refine ⟨form, is, hk, hform, ?_, hlowers, ?_, ?_⟩
      · exact Array.toList_push.trans (congrArg (· ++ [_]) his)
      · exact congrArg Forms.last? hforms
      · exact hemits.maxDepth.trans (by simp)
  next => cases h

/-- Three times a variable, observed to be a 32-bit integer. -/
def tripled : Tree :=
  .binary .mul (.scalar .int32) (.reference "x" (some .int32)) (.literal (.scalar (.int32 3)))

end Tree

/-- The code of `Tree.tripled`. -/
def Code.tripled : Code where
  constants := #[.int32 3]
  «variables» := #["x"]
  instructions := #[.loadVariable 0, .unbox 0x49, .loadConstant 0, .binary .int32 0x2a, .ret]
  maxStack := 2
  form? := some (.bare .int32)

theorem Tree.compile_tripled : tripled.compile = .ok Code.tripled := by cbv

end AdaptiveArith
