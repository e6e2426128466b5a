import AdaptiveArith.Proofs.Leaves
import AdaptiveArith.Proofs.Words

/-!
# Trees of integers

A tree of signs, sums, differences and products (`Tree.IsPolynomial`) has an exact value over
the integers, of any size (`Tree.exactValue?`). If all of its leaves are words of one width,
then each of its operators wraps its result around, on its own and whatever has been wrapped
around before. Wrapping around is a homomorphism, though (`Operator.bmod_onIntegers`), and so
the tree computes its exact value, wrapped around once (`Tree.result_evaluate_modulo`). Nothing
has been lost if the exact value fits, even if it took values to compute it that do not.
-/

namespace AdaptiveArith

open Width

/-! ### Exact values -/

/-- The integer that a value is, of either width. -/
def Value.integer? : Value → Option ℤ
  | .scalar (.int32 a) => some a.toInt
  | .scalar (.int64 a) => some a.toInt
  | _ => none

namespace Operator

/-- The operator on one integer of any size. -/
def onInteger? : Operator → ℤ → Option ℤ
  | add, n => some n
  | sub, n => some (-n)
  | mul, _ | div, _ | mod, _ => none

end Operator

namespace Tree

/-- The operators of the tree are signs, sums, differences and products. -/
def IsPolynomial : Tree → Prop
  | literal _ | reference _ _ => True
  | unary op _ operand => op.isSign = true ∧ operand.IsPolynomial
  | binary op _ left right => op.divides = false ∧ left.IsPolynomial ∧ right.IsPolynomial

/-- The value of the tree over the integers, if it is made of integers by signs, sums,
    differences and products. -/
def exactValue? (env : Environment) : Tree → Option ℤ
  | literal value => value.integer?
  | reference name _ => (env.get? name).bind Value.integer?
  | unary op _ operand => (operand.exactValue? env).bind op.onInteger?
  | binary op _ left right => do
    let m ← left.exactValue? env
    let n ← right.exactValue? env
    if op.divides then none else some (op.onIntegers m n)

end Tree

/-! ### Wrapping around is a homomorphism -/

variable {w : Width} {op : Operator} {env : Environment} {m n : ℤ} {a b : w.Word}

theorem Value.integer?_scalar (a : w.Word) :
    integer? (.scalar (Width.scalar a)) = some (toInt a) := by
  cases w <;> rfl

namespace Operator

/-- Sums, differences and products may be wrapped around first. -/
theorem bmod_onIntegers (hop : op.divides = false) (m n : ℤ) (size : ℕ) :
    (op.onIntegers (m.bmod size) (n.bmod size)).bmod size = (op.onIntegers m n).bmod size := by
  cases op with
  | add => rw [onIntegers, Int.bmod_add_bmod, Int.add_bmod_bmod, onIntegers]
  | sub => rw [onIntegers, Int.bmod_sub_bmod, Int.sub_bmod_bmod, onIntegers]
  | mul => rw [onIntegers, Int.bmod_mul_bmod, Int.mul_bmod_bmod, onIntegers]
  | div | mod => cases hop

/-- A sign gives a word the sign it gives the exact value. -/
theorem exists_onValue_eq (hop : op.isSign = true) (ha : toInt a = n.bmod (2 ^ w.bits)) :
    ∃ (n' : ℤ) (c : w.Word), op.onInteger? n = some n' ∧
      op.onValue (.scalar (scalar a)) = .ok (.scalar (scalar c)) ∧
      toInt c = n'.bmod (2 ^ w.bits) := by
  cases op with
  | add => exact ⟨n, a, rfl, rfl, ha⟩
  | sub =>
    obtain ⟨c, hc, hint⟩ := exists_neg_scalar a
    refine ⟨-n, c, rfl, congrArg (fun p => Except.ok (Value.scalar p)) hc, ?_⟩
    rw [hint, ha, Int.bmod_neg_bmod]
  | mul | div | mod => cases hop

end Operator

/-- A sum, a difference or a product of words is that of the exact values, wrapped around. -/
theorem Environment.exists_combine_eq (env : Environment) (hop : op.divides = false)
    (ha : toInt a = m.bmod (2 ^ w.bits)) (hb : toInt b = n.bmod (2 ^ w.bits)) :
    ∃ c : w.Word,
      (env.combine op (.scalar (scalar a)) (.scalar (scalar b))).1 = .ok (.scalar (scalar c)) ∧
      toInt c = (op.onIntegers m n).bmod (2 ^ w.bits) := by
  have hdivisor : op.divides = true → toInt b ≠ 0 := fun h => by rw [hop] at h; cases h
  obtain ⟨c, hc, hint⟩ := Operator.exists_onWords_eq (a := a) hdivisor
  refine ⟨c, ?_, by rw [hint, ha, hb, Operator.bmod_onIntegers hop]⟩
  change ((op.onPair (.widen (scalar a) (scalar b))).map Value.scalar).mapError _ = _
  rw [Operator.onPair_scalar, hc]
  rfl

/-! ### Trees -/

namespace Tree

variable {t : Tree}

/-- The outcome of a tree is its exact value, wrapped around. -/
theorem exists_outcome_eq (hpoly : t.IsPolynomial) (hleaves : t.LeavesOfKind env w.kind) :
    ∃ (n : ℤ) (c : w.Word), t.exactValue? env = some n ∧
      t.outcome env = .ok (.scalar (scalar c)) ∧ toInt c = n.bmod (2 ^ w.bits) := by
  induction t with
  | literal v =>
    obtain ⟨p, rfl, hp⟩ := Value.scalarKind?_eq_some.1 (leavesOfKind_literal.1 hleaves)
    obtain ⟨a, rfl⟩ := exists_scalar hp
    exact ⟨toInt a, a, Value.integer?_scalar a, rfl, (bmod_toInt a).symm⟩
  | reference name =>
    obtain ⟨p, hvalue, hp⟩ := hleaves _ (List.mem_singleton_self _)
    obtain ⟨a, rfl⟩ := exists_scalar hp
    have hget : env.get? name = some (.scalar (scalar a)) := hvalue
    refine ⟨toInt a, a, ?_, ?_, (bmod_toInt a).symm⟩
    · rw [exactValue?, hget]
      exact Value.integer?_scalar a
    · rw [outcome, Environment.lookup, hget]
      rfl
  | unary op _ operand ih =>
    obtain ⟨n, a, hexact, houtcome, hint⟩ := ih hpoly.2 hleaves
    obtain ⟨n', c, hn', hc, hint'⟩ := Operator.exists_onValue_eq hpoly.1 hint
    refine ⟨n', c, ?_, ?_, hint'⟩
    · rw [exactValue?, hexact]
      exact hn'
    · rw [outcome, houtcome]
      exact hc
  | binary op _ left right ihl ihr =>
    obtain ⟨hop, hpolyl, hpolyr⟩ := hpoly
    obtain ⟨hleavesl, hleavesr⟩ := leavesOfKind_binary.1 hleaves
    obtain ⟨m, a, hexactl, houtcomel, hintl⟩ := ihl hpolyl hleavesl
    obtain ⟨n, b, hexactr, houtcomer, hintr⟩ := ihr hpolyr hleavesr
    obtain ⟨c, hc, hint⟩ := env.exists_combine_eq hop hintl hintr
    refine ⟨op.onIntegers m n, c, ?_, ?_, hint⟩
    · simp [exactValue?, hexactl, hexactr, hop]
    · rw [outcome, houtcomel, houtcomer]
      exact hc

/-- A tree of signs, sums, differences and products, all of whose leaves are words of one
    width, is evaluated to the one word of that width that has the remainder of the exact
    value, provided that the limit on nesting admits its operators. This is the exact value
    itself if that fits. -/
theorem result_evaluate_modulo (w : Width) (hpoly : t.IsPolynomial)
    (hleaves : t.LeavesOfKind env w.kind) (hdepth : env.depth + t.height ≤ env.limits.maxDepth) :
    ∃ (n : ℤ) (c : w.Word), t.exactValue? env = some n ∧
      (t.evaluate env).result = .ok (.scalar (scalar c)) ∧
      (∀ c' : w.Word, toInt c' ≡ n [ZMOD 2 ^ w.bits] ↔ c' = c) ∧
      (w.Fits n → toInt c = n) := by
  obtain ⟨n, c, hexact, houtcome, hint⟩ := exists_outcome_eq hpoly hleaves
  refine ⟨n, c, hexact, (evaluate_result_of_height_le hdepth).trans houtcome, fun c' => ?_,
    fun hfits => hint.trans hfits.bmod_eq⟩
  have hremainder : toInt c' ≡ n [ZMOD 2 ^ w.bits] ↔ toInt c' = n.bmod (2 ^ w.bits) := by
    exact_mod_cast toInt_modEq_iff
  rw [hremainder, ← hint, toInt_inj]

/-- The sum does not fit and wraps around, but the difference fits. -/
theorem result_evaluate_modulo_sum :
    let env := Environment.set {} "x" (.scalar (.int32 2147483647))
    let sum := ofBinary .add (ofName "x") (ofName "x")
    let t := ofBinary .sub sum (ofName "x")
    (sum.evaluate env).result = .ok (.scalar (.int32 (-2))) ∧
      t.exactValue? env = some 2147483647 ∧
      (t.evaluate env).result = .ok (.scalar (.int32 2147483647)) := by
  intro env sum t
  have hleaves : t.LeavesOfKind env .int32 := fun leaf hleaf => by
    obtain rfl : leaf = .reference "x" := by simpa [t, sum, ofBinary, ofName, leaves] using hleaf
    exact ⟨_, rfl, rfl⟩
  have hpoly : t.IsPolynomial := ⟨rfl, ⟨rfl, trivial, trivial⟩, trivial⟩
  obtain ⟨n, c, hexact, hresult, _, hfits⟩ :=
    result_evaluate_modulo .short hpoly hleaves (by decide)
  obtain rfl : 2147483647 = n := Option.some.inj hexact
  obtain rfl : c = (2147483647 : Int32) := toInt_inj.1 (hfits ⟨by decide, by decide⟩)
  exact ⟨by cbv, hexact, hresult⟩

end Tree

end AdaptiveArith
