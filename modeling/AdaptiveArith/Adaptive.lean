import AdaptiveArith.Code.Machine
import AdaptiveArith.Failure.Basic
import AdaptiveArith.Tree.Compile
import AdaptiveArith.Tree.Evaluate

/-!
# Adaptive expressions

An adaptive expression is a tree that is interpreted at first and compiled once
its nodes have observed what they compute with. Its mode says when:

* `off`: never;
* `immediate`: after more than one interpretation; errors of the compiled code
  are errors of the run;
* `mixed`: after more interpretations than the warm-up asks for; compiled code
  that fails is discarded, and the run goes on with an interpretation.

Only interpretations that give a value are counted. An attempt to compile that
fails is counted too, and none is made once `maxFailures` of them have been.
-/

namespace AdaptiveArith

/-- When an expression is compiled. -/
inductive AdaptiveMode
  | off
  | immediate
  | mixed
  deriving DecidableEq

/-- The name of a mode. -/
def AdaptiveMode.name : AdaptiveMode → String
  | off => "Off"
  | immediate => "Immediate"
  | mixed => "Mixed"

/-- When and how often an expression is compiled. -/
structure AdaptiveOptions where
  /-- The mode. -/
  mode : AdaptiveMode := .off
  /-- The number of interpretations after which a `mixed` expression is compiled. -/
  warmup : Nat := 100
  /-- The number of failed attempts after which no other is made. -/
  maxFailures : Nat := 100
  deriving DecidableEq

/-- An expression that is compiled when it has been observed long enough. -/
structure AdaptiveExpr where
  /-- The expression. -/
  root : Tree
  /-- When it is compiled. -/
  options : AdaptiveOptions := {}
  /-- The compiled code, if there is any. -/
  compiled? : Option Code := none
  /-- The interpretations that gave a value since code was last discarded. -/
  interpretations : Nat := 0
  /-- The attempts to compile that failed. -/
  failures : Nat := 0

/-- The outcome of a run. -/
structure AdaptiveRun where
  /-- The value, or the failure. -/
  result : Except Failure Value
  /-- The expression afterwards. -/
  expression : AdaptiveExpr
  /-- The environment afterwards. -/
  env : Environment

namespace AdaptiveExpr

variable (x : AdaptiveExpr)

/-- The expression with other options. -/
def withOptions (options : AdaptiveOptions) : AdaptiveExpr := { x with options }

/-- An attempt to compile is due. -/
def isDue : Bool :=
  match x.options.mode with
  | .off => false
  | .immediate => 1 < x.interpretations
  | .mixed => x.options.warmup < x.interpretations

/-- An attempt to compile, and whether there is code afterwards. There is nothing
    to do if there is code already, and no attempt is made after too many. -/
def tryCompile : Bool × AdaptiveExpr :=
  if x.compiled?.isSome then (true, x)
  else if x.options.maxFailures ≤ x.failures then (false, x)
  else
    match x.root.compile with
    | .ok code => (true, { x with compiled? := some code })
    | .error _ => (false, { x with failures := x.failures + 1 })

/-- There is compiled code. -/
def isCompiled : Bool := x.compiled?.isSome

/-- The compiled code is discarded. -/
def discard : AdaptiveExpr := { x with compiled? := none, interpretations := 0 }

/-- The expression is interpreted; an interpretation that gives a value is
    counted, and followed by an attempt to compile if one is due. -/
def interpret (env : Environment) : AdaptiveRun :=
  let evaluation := x.root.evaluate env
  let seen := { x with root := evaluation.tree }
  match evaluation.result with
  | .error e => ⟨.error (.ofEvalError e), seen, evaluation.env⟩
  | .ok v =>
    let counted := { seen with interpretations := seen.interpretations + 1 }
    ⟨.ok v, if counted.isDue then counted.tryCompile.2 else counted, evaluation.env⟩

/-- The expression is run: by its code if there is any, and else, or if a `mixed`
    expression's code fails, by interpretation. -/
def run (env : Environment) : AdaptiveRun :=
  match x.compiled? with
  | none => x.interpret env
  | some code =>
    match code.execute env with
    | .ok v => ⟨.ok v, x, env⟩
    | .error e =>
      if x.options.mode = .mixed then x.discard.interpret env
      else ⟨.error (.ofEvalError e), x, env⟩

/-- The outline of an expression. -/
def outline : Text.Outline :=
  .record "CompiledExpression"
    [("root", x.root.outline), ("mode", .word x.options.mode.name),
      ("compiled", .word (if x.isCompiled then "true" else "false")),
      ("interpreted_count", .word (toString x.interpretations)),
      ("failed_attempts", .word (toString x.failures))]

end AdaptiveExpr

end AdaptiveArith
