import AdaptiveArith.Proofs.Refusal

/-!
# Bookkeeping

While the code of a tree is emitted, the emitter counts the slots of the stack and remembers
the forms of the values on it, and it relies on both: an operand that is remembered in the
wrong form would be left boxed, or unboxed twice. What it relies on can be checked
(`Assertion`): that the form which is taken for an operand is there and is the form of this
operand, that no more slots are taken than there are, and that one form is left in the end.

`Tree.emitChecked` and `Tree.compileChecked` are the emission and the compilation with these
checks. None of them ever fails, whatever has been emitted before, and so the checks change
nothing (`Tree.emitChecked_eq`, `Tree.compileChecked_eq`). The reason is that the code of a
tree adds one slot and one form to those that are there (`Tree.Extends`), and touches none of
them on the way.
-/

namespace AdaptiveArith

/-! ### Checks -/

/-- What emitting relies on. -/
inductive Assertion
  /-- The form of an operand is the last one. -/
  | inSync
  /-- There are as many slots as are taken. -/
  | noUnderflow
  /-- No more than one form is left. -/
  | oneForm
  deriving DecidableEq

namespace Emitter

variable (e : Emitter)

/-- The stack is lower by a number of slots, which have to be there. -/
def lowerChecked (slots : Nat) : Except Assertion Emitter :=
  if slots ≤ e.depth then .ok (e.lower slots) else .error .noUnderflow

/-- The two topmost values, which have to be there, are combined. -/
def binaryChecked (op : Operator) (kind : ScalarKind) : Except Assertion Emitter :=
  ((e.add (.binary kind op.byte)).lowerChecked 2).map raise

/-- The topmost value, which has to be there, is returned. -/
def retChecked : Except Assertion Emitter := (e.add .ret).lowerChecked 1

/-- The code of the instructions so far, which leave no more than one value. -/
def toCodeChecked : Except Assertion Code :=
  if e.forms.size ≤ 1 then .ok e.toCode else .error .oneForm

end Emitter

namespace Emission

/-- The emission goes on with checks, unless it has stopped. -/
def andThenChecked (emission : Emission) (next : Emitter → Except Assertion Emission) :
    Except Assertion Emission :=
  match emission.error? with
  | some _ => .ok emission
  | none => next emission.emitter

/-- The emitted value of a tree becomes an operand. Its form has to be there and to be that
    of the tree. -/
def asOperandChecked (emission : Emission) (t : Tree) (kind : ScalarKind) :
    Except Assertion Emission :=
  emission.andThenChecked fun e =>
    match e.forms.last? with
    | some form => if t.form? = some form then .ok (emission.asOperand kind) else .error .inSync
    | none => .error .inSync

end Emission

namespace Tree

/-- The code of the tree is emitted with checks. -/
def emitChecked : Tree → Emitter → Except Assertion Emission
  | t@(literal _), e | t@(reference _ _), e => .ok (t.emit e)
  | t@(unary op _ operand), e =>
    match t.operatingKind? with
    | none => .ok (.stopped e t.refusal)
    | some kind => do
      let emitted ← operand.emitChecked e
      let taken ← emitted.asOperandChecked operand kind
      return taken.andThen fun e =>
        .done ((if op = .sub then e.negate kind else e).pushForm (.bare kind))
  | t@(binary op _ left right), e =>
    match t.operatingKind? with
    | none => .ok (.stopped e t.refusal)
    | some kind => do
      let emitted ← left.emitChecked e
      let taken ← emitted.asOperandChecked left kind
      taken.andThenChecked fun e => do
        let emitted ← right.emitChecked e
        let taken ← emitted.asOperandChecked right kind
        taken.andThenChecked fun e =>
          (e.binaryChecked op kind).map fun e => .done (e.pushForm (.bare kind))

/-- The code of the tree with checks. -/
def compileChecked (t : Tree) : Except Assertion (Except CompileError Code) :=
  if t.isCompilable then do
    let emission ← t.emitChecked {}
    match emission.error? with
    | some e => return .error e
    | none =>
      let returned ← emission.emitter.retChecked
      return .ok (← returned.toCodeChecked)
  else .ok (.error t.refusal)

end Tree

/-! ### Emission by calls -/

/-- The second emitter is what some calls make of the first. -/
def Emitter.CalledTo (e e' : Emitter) : Prop := ∃ calls, e' = e.performAll calls

namespace Emitter.CalledTo

variable {e e' e'' : Emitter}

theorem refl (e : Emitter) : e.CalledTo e := ⟨[], rfl⟩

theorem trans (h : e.CalledTo e') (h' : e'.CalledTo e'') : e.CalledTo e'' := by
  obtain ⟨calls, rfl⟩ := h
  obtain ⟨more, rfl⟩ := h'
  exact ⟨calls ++ more, List.foldl_append.symm⟩

theorem of_perform (call : EmitterCall) (h : e.perform call = .ok e') : e.CalledTo e' :=
  ⟨[call], by rw [performAll, List.foldl_cons, List.foldl_nil, h]; rfl⟩

end Emitter.CalledTo

namespace Emission

variable {emission : Emission} {next : Emitter → Emission} {e : Emitter}

theorem calledTo_andThen (h : e.CalledTo emission.emitter)
    (hnext : ∀ e' : Emitter, e'.CalledTo (next e').emitter) :
    e.CalledTo (emission.andThen next).emitter := by
  rw [andThen]
  split
  · exact h
  · exact h.trans (hnext _)

theorem calledTo_asOperand (h : e.CalledTo emission.emitter) (k : ScalarKind) :
    e.CalledTo (emission.asOperand k).emitter := by
  refine calledTo_andThen h fun e' => ?_
  have htaken : e'.CalledTo e'.popForm := .of_perform .popForm rfl
  have hunboxed : e'.CalledTo (e'.popForm.unbox k) := htaken.trans (.of_perform (.unbox k) rfl)
  dsimp only
  split
  · exact htaken
  · exact hunboxed
  · exact hunboxed

end Emission

/-- A tree is emitted by calls of the emitter, also if the emission stops. -/
theorem Tree.calledTo_emit (t : Tree) (e : Emitter) : e.CalledTo (t.emit e).emitter := by
  have hpush : ∀ (e : Emitter) (form : Form), e.CalledTo (e.pushForm form) := fun e form =>
    .of_perform (.pushForm form) rfl
  induction t generalizing e with
  | literal v =>
    unfold emit
    split
    · exact .refl e
    · split
      · exact .refl e
      next p _ _ e' he' =>
        exact (Emitter.CalledTo.of_perform (.loadConstant p) he').trans (hpush _ _)
  | reference name lastKind =>
    unfold emit
    split
    · exact .refl e
    · split
      · exact .refl e
      next e' he' =>
        exact (Emitter.CalledTo.of_perform (.loadVariable name) he').trans (hpush _ _)
  | unary op seen operand ih =>
    unfold emit
    split
    · exact .refl e
    next k _ =>
      refine Emission.calledTo_andThen (Emission.calledTo_asOperand (ih e) k) fun e' => ?_
      refine Emitter.CalledTo.trans ?_ (hpush _ _)
      split
      · exact .of_perform (.negate k) rfl
      · exact .refl e'
  | binary op seen left right ihl ihr =>
    unfold emit
    split
    · exact .refl e
    next k _ =>
      refine Emission.calledTo_andThen (Emission.calledTo_asOperand (ihl e) k) fun e' => ?_
      refine Emission.calledTo_andThen (Emission.calledTo_asOperand (ihr e') k) fun e'' => ?_
      exact (Emitter.CalledTo.of_perform (.binary op k) rfl).trans (hpush _ _)

/-! ### What an emission adds -/

namespace Tree

/-- From the one emitter to the other, the code of the tree has been added, with the slot and
    the form of its value. -/
structure Extends (t : Tree) (e e' : Emitter) : Prop where
  instructions : e.instructions.toList <+: e'.instructions.toList
  tables : e.tables.Within e'.tables
  forms : ∃ form, t.form? = some form ∧ e'.forms = e.forms.push form
  depth : e'.depth = e.depth + 1
  maxDepth : e'.maxDepth = max e.maxDepth (e.depth + t.need)

variable {t : Tree} {k : ScalarKind} {e : Emitter}

theorem extends_emit (he : e.tables.Bounded) (h : (t.emit e).error? = none) :
    t.Extends e (t.emit e).emitter := by
  obtain ⟨k, hk⟩ := isCompilable_iff.1 (isCompilable_of_emit h)
  obtain ⟨form, hform, _, hemits, hforms⟩ := emit_spec hk he h
  obtain ⟨is, his, _⟩ := hemits.instructions
  exact ⟨his ▸ List.prefix_append _ _, hemits.within, ⟨form, hform, hforms⟩, hemits.depth,
    hemits.maxDepth⟩

/-- A tree that becomes an operand of its kind is left as a bare scalar. -/
theorem asOperand_emit_spec (he : e.tables.Bounded) (hkind : t.leavesKind k = true)
    (h : ((t.emit e).asOperand k).error? = none) :
    ∃ e', (t.emit e).asOperand k = .done e' ∧ t.Emits (.bare k) e e' ∧ e'.forms = e.forms := by
  refine Emission.asOperand_spec (fun herror => ?_) h
  obtain ⟨m, hm⟩ := isCompilable_iff.1 (isCompilable_of_emit herror)
  obtain rfl := hm.kind_eq hkind
  exact emit_spec hm he herror

end Tree

/-! ### No check fails -/

namespace Emission

/-- What goes on without a failed check goes on as without checks. -/
theorem andThenChecked_eq {emission : Emission} {next : Emitter → Except Assertion Emission}
    {next' : Emitter → Emission}
    (h : emission.error? = none → next emission.emitter = .ok (next' emission.emitter)) :
    emission.andThenChecked next = .ok (emission.andThen next') := by
  rw [andThenChecked, andThen]
  cases herror : emission.error? with
  | none => exact h herror
  | some _ => rfl

end Emission

namespace Emitter

variable {e : Emitter}

theorem binaryChecked_eq (op : Operator) (kind : ScalarKind) (h : 2 ≤ e.depth) :
    e.binaryChecked op kind = .ok (e.binary op kind) := by
  rw [binaryChecked, lowerChecked, if_pos (show 2 ≤ (e.add _).depth from h)]
  rfl

/-- One value is not enough to combine. -/
example : ({} : Emitter).raise.binaryChecked .add .int32 = .error .noUnderflow := rfl

theorem retChecked_eq (h : 1 ≤ e.depth) : e.retChecked = .ok e.ret := by
  rw [retChecked, lowerChecked, if_pos (show 1 ≤ (e.add _).depth from h)]
  rfl

end Emitter

namespace Tree

variable {t : Tree} {e : Emitter}

/-- The form that is taken for an operand is the form of the operand. -/
theorem asOperandChecked_emit (he : e.tables.Bounded) (k : ScalarKind) :
    (t.emit e).asOperandChecked t k = .ok ((t.emit e).asOperand k) := by
  rw [Emission.asOperandChecked, Emission.andThenChecked]
  cases herror : (t.emit e).error? with
  | none =>
    obtain ⟨form, hform, hforms⟩ := (extends_emit he herror).forms
    simp [hform, hforms, Forms.last?, Forms.push]
  | some error => rw [Emission.asOperand, Emission.andThen, herror]

/-- The checks of an emission change nothing. -/
theorem emitChecked_eq (he : e.tables.Bounded) : t.emitChecked e = .ok (t.emit e) := by
  induction t generalizing e with
  | literal | reference => rfl
  | unary op seen operand ih =>
    rw [emitChecked, emit]
    cases (unary op seen operand).operatingKind? with
    | none => rfl
    | some k =>
      dsimp only
      rw [ih he]
      dsimp only [bind, Except.bind]
      rw [asOperandChecked_emit he]
      rfl
  | binary op seen left right ihl ihr =>
    rw [emitChecked, emit]
    cases hk : (binary op seen left right).operatingKind? with
    | none => rfl
    | some k =>
      obtain ⟨_, hl, hr⟩ := operatingKind?_binary.1 hk
      dsimp only
      rw [ihl he]
      dsimp only [bind, Except.bind]
      rw [asOperandChecked_emit he]
      refine Emission.andThenChecked_eq fun herrorl => ?_
      obtain ⟨e', he', hemitsl, _⟩ := asOperand_emit_spec he hl herrorl
      rw [he', Emission.done, ihr hemitsl.bounded]
      dsimp only [bind, Except.bind]
      rw [asOperandChecked_emit hemitsl.bounded]
      refine Emission.andThenChecked_eq fun herrorr => ?_
      obtain ⟨e'', he'', hemitsr, _⟩ := asOperand_emit_spec hemitsl.bounded hr herrorr
      -- Both operands are on the stack, whatever has been there before.
      have hdepth : 2 ≤ e''.depth := by rw [hemitsr.depth, hemitsl.depth]; omega
      rw [he'', Emission.done, Emitter.binaryChecked_eq op k hdepth]
      rfl

/-- The checks of a compilation change nothing. -/
theorem compileChecked_eq (t : Tree) : t.compileChecked = .ok t.compile := by
  rw [compileChecked, compile]
  split
  next =>
    rw [emitChecked_eq Emitter.tables_bounded_empty]
    dsimp only [bind, Except.bind]
    cases herror : (t.emit {}).error? with
    | some error => rfl
    | none =>
      have hextends := extends_emit Emitter.tables_bounded_empty herror
      obtain ⟨form, _, hforms⟩ := hextends.forms
      have hsize : (t.emit {}).emitter.ret.forms.size ≤ 1 := by
        rw [Emitter.ret, Emitter.lower, Emitter.add, hforms]
        exact le_rfl
      have hdepth : 1 ≤ (t.emit {}).emitter.depth := hextends.depth ▸ le_rfl
      rw [Emitter.retChecked_eq hdepth]
      dsimp only
      rw [Emitter.toCodeChecked, if_pos hsize]
      rfl
  next => rfl

/-- Whatever an emitter has been called for before, a tree that is emitted adds its code, one
    slot and its own form to what is there, and none of the checks fails on the way. The tree
    calls the emitter in its turn, so that this goes on after it. Nor does any of the checks
    fail when a tree is compiled. -/
theorem emit_keeps_books (t : Tree) (calls : List EmitterCall) :
    let e := Emitter.performAll {} calls
    ((t.emit e).error? = none → t.Extends e (t.emit e).emitter) ∧
      t.emitChecked e = .ok (t.emit e) ∧ e.CalledTo (t.emit e).emitter ∧
      t.compileChecked = .ok t.compile := by
  intro e
  obtain ⟨_, hbounded⟩ := Emitter.tables_performAll_sound calls
  exact ⟨extends_emit hbounded, emitChecked_eq hbounded, t.calledTo_emit e, t.compileChecked_eq⟩

/-- The constant and the name of the tree are in the tables already, and so are their values on
    the stack. -/
theorem emit_keeps_books_tripled :
    let e := Emitter.performAll {} [.loadVariable "x", .pushForm (.boxed .int32),
      .loadConstant (.int32 3), .pushForm (.bare .int32)]
    (tripled.emit e).error? = none ∧ tripled.Extends e (tripled.emit e).emitter ∧
      tripled.emitChecked e = .ok (tripled.emit e) ∧
      tripled.compileChecked = .ok (.ok .tripled) := by
  intro e
  have herror : (tripled.emit e).error? = none := by decide +kernel
  obtain ⟨hextends, hemit, _, hcompile⟩ := emit_keeps_books tripled _
  exact ⟨herror, hextends herror, hemit, by rw [hcompile, compile_tripled]⟩

end Tree

end AdaptiveArith
