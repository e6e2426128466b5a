import AdaptiveArith.Code.Machine
import AdaptiveArith.Environment.Overloads

/-!
# Code of any origin

The machine executes any code: compiled from a tree, written by hand, or loaded from
bytes that somebody sent. What such code can find out about its environment is what the
variables hold that it names, and that others of them are unbound (`Code.execute_congr`).
It neither sees other variables nor the limits and the depth of the environment, and it
cannot ask the overloader.

This holds of each instruction on any stack (`Code.step_congr`), whatever its operand, and
so of any list of them, wherever the run ends (`Code.runFrom_congr`).
-/

namespace AdaptiveArith

/-- Each of the names is bound to the same value in the two environments, or unbound in
    both. -/
def Environment.AgreeOn (names : Array String) (env env' : Environment) : Prop :=
  ∀ name ∈ names, env.get? name = env'.get? name

theorem Environment.AgreeOn.lookup_eq {names : Array String} {env env' : Environment}
    {name : String} (h : AgreeOn names env env') (hname : name ∈ names) :
    env.lookup name = env'.lookup name := by
  rw [lookup, lookup, h name hname]

namespace Code

variable {code : Code} {env env' : Environment}

/-- An instruction does the same in environments that agree on the names of the code. -/
theorem step_congr (h : Environment.AgreeOn code.variables env env') (i : Instruction)
    (stack : List Slot) : code.step env i stack = code.step env' i stack := by
  cases i with
  | loadVariable index =>
    -- The only instruction that reads the environment looks up one of the names.
    cases hname : code.variables[index.toNat]? with
    | none => simp only [step, hname]
    | some name => simp only [step, hname, h.lookup_eq (Array.mem_of_getElem? hname)]
  | halt | loadConstant | unbox | binary | negate | ret => rfl

theorem runFrom_congr (h : Environment.AgreeOn code.variables env env')
    (instructions : List Instruction) (stack : List Slot) :
    code.runFrom env instructions stack = code.runFrom env' instructions stack := by
  induction instructions generalizing stack with
  | nil => rfl
  | cons i instructions ih =>
    rw [runFrom, runFrom, step_congr h]
    cases code.step env' i stack with
    | error => rfl
    | ok effect =>
      cases effect with
      | returned => rfl
      | next stack => exact ih stack

/-- The result of any code depends on nothing in the environment but the variables that the
    code names. -/
theorem execute_congr (h : Environment.AgreeOn code.variables env env') :
    code.execute env = code.execute env' :=
  runFrom_congr h _ _

/-- The environments differ in everything else, and the code has bytes that mean nothing. -/
theorem execute_congr_unknownKind :
    let code : Code := ⟨#[], #["x", "y"], #[.loadVariable 0, .unbox 0x5a], 1, none⟩
    let env : Environment := Environment.set {} "x" (.text "a")
    let env' : Environment :=
      { «variables» := .insert (.insert .empty "z" (.text "b")) "x" (.text "a")
        overloader := .takeLeft
        limits := { maxDepth := 0, maxTextLength := some 0 }
        depth := 7 }
    Environment.AgreeOn code.variables env env' ∧
      code.execute env = .error (.code (.unknownKind 0x5a)) ∧
      code.execute env = code.execute env' := by
  intro code env env'
  have h : Environment.AgreeOn code.variables env env' := by
    simp only [Environment.AgreeOn, code]
    decide
  exact ⟨h, rfl, execute_congr h⟩

end Code

end AdaptiveArith
