import AdaptiveArith.Code.Emitter

/-!
# Compilation

`Tree.emit` emits the code of a tree into an emitter: the operands first, from
left to right, each unboxed if it is left boxed, and then the operator. Every
node checks itself; it refuses if it has not observed a kind to compute with.
What was emitted before a refusal stays emitted.

`Tree.compile` emits a compilable tree into a new emitter and returns its value.
-/

namespace AdaptiveArith

/-- What has been emitted, and the error that stopped it. -/
structure Emission where
  /-- The emitter afterwards. -/
  emitter : Emitter
  /-- The error, if there was one. -/
  error? : Option CompileError
  deriving DecidableEq

namespace Emission

/-- Everything has been emitted. -/
def done (emitter : Emitter) : Emission := ⟨emitter, none⟩

/-- The emission has stopped. -/
def stopped (emitter : Emitter) (e : CompileError) : Emission := ⟨emitter, some e⟩

/-- The emission goes on, unless it has stopped. -/
def andThen (emission : Emission) (next : Emitter → Emission) : Emission :=
  match emission.error? with
  | some _ => emission
  | none => next emission.emitter

/-- The emitted value becomes the operand of an operator: its form is taken, and
    it is unboxed unless it is left as a bare scalar. -/
def asOperand (emission : Emission) (kind : ScalarKind) : Emission :=
  emission.andThen fun e =>
    let taken := e.popForm
    match e.forms.last? with
    | some (.bare _) => done taken
    | some (.boxed _) | none => done (taken.unbox kind)

end Emission

namespace Tree

/-- The error that a tree cannot be compiled. -/
def refusal (t : Tree) : CompileError := .notCompilable t.display

/-- The code of the tree is emitted. -/
def emit : Tree → Emitter → Emission
  | t@(literal value), e =>
    match value.scalar? with
    | none => .stopped e t.refusal
    | some p =>
      match e.loadConstant p with
      | .error error => .stopped e error
      | .ok e => .done (e.pushForm (.bare p.kind))
  | t@(reference name lastKind), e =>
    match lastKind with
    | none => .stopped e t.refusal
    | some kind =>
      match e.loadVariable name with
      | .error error => .stopped e error
      | .ok e => .done (e.pushForm (.boxed kind))
  | t@(unary op _ operand), e =>
    match t.operatingKind? with
    | none => .stopped e t.refusal
    | some kind =>
      ((operand.emit e).asOperand kind).andThen fun e =>
        let e := if op = .sub then e.negate kind else e
        .done (e.pushForm (.bare kind))
  | t@(binary op _ left right), e =>
    match t.operatingKind? with
    | none => .stopped e t.refusal
    | some kind =>
      ((left.emit e).asOperand kind).andThen fun e =>
        ((right.emit e).asOperand kind).andThen fun e =>
          .done ((e.binary op kind).pushForm (.bare kind))

/-- The code of the tree. -/
def compile (t : Tree) : Except CompileError Code :=
  if t.isCompilable then
    let emission := t.emit {}
    match emission.error? with
    | some e => .error e
    | none => .ok emission.emitter.ret.toCode
  else .error t.refusal

end Tree

end AdaptiveArith
