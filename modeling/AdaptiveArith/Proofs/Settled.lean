import AdaptiveArith.Tree.Compile
import Mathlib

/-!
# Trees that have settled on a kind

Whether a tree can be compiled is decided node by node: an operator compares the
kind it has observed with the forms its operands would be left in. A tree passes
if all of its nodes agree on *one* kind (`Tree.SettledOn`): every literal is a
scalar of the kind, every variable was last seen to hold one, and every operator
has observed it. This is what `Tree.isCompilable_iff` says.
-/

namespace AdaptiveArith

theorem Value.scalarKind?_eq_some {v : Value} {k : ScalarKind} :
    v.scalarKind? = some k ↔ ∃ p : Scalar, v = .scalar p ∧ p.kind = k := by
  cases v with
  | scalar p => simp [scalarKind?, scalar?]
  | decimal _ | text _ | host _ => simp [scalarKind?, scalar?]

namespace Tree

variable {t left right operand : Tree} {k m : ScalarKind} {op : Operator} {seen : Observation}

/-- All nodes of the tree agree on one kind. -/
inductive SettledOn (k : ScalarKind) : Tree → Prop
  | literal {p : Scalar} : p.kind = k → SettledOn k (.literal (.scalar p))
  | reference {name : String} : SettledOn k (.reference name (some k))
  | unary {op : Operator} {operand : Tree} : op.isSign → SettledOn k operand →
      SettledOn k (.unary op (.scalar k) operand)
  | binary {op : Operator} {left right : Tree} : SettledOn k left → SettledOn k right →
      SettledOn k (.binary op (.scalar k) left right)

theorem settledOn_literal {v : Value} : (literal v).SettledOn k ↔ v.scalarKind? = some k := by
  constructor
  · rintro ⟨rfl⟩
    rfl
  · intro h
    obtain ⟨p, rfl, hp⟩ := Value.scalarKind?_eq_some.1 h
    exact .literal hp

theorem settledOn_reference {name : String} {lastKind : Option ScalarKind} :
    (reference name lastKind).SettledOn k ↔ lastKind = some k := by
  constructor
  · rintro ⟨⟩
    rfl
  · rintro rfl
    exact .reference

theorem settledOn_unary : (unary op seen operand).SettledOn k ↔
    seen = .scalar k ∧ op.isSign = true ∧ operand.SettledOn k := by
  constructor
  · rintro (_ | _ | ⟨hop, h⟩)
    exact ⟨rfl, hop, h⟩
  · rintro ⟨rfl, hop, h⟩
    exact .unary hop h

theorem settledOn_binary : (binary op seen left right).SettledOn k ↔
    seen = .scalar k ∧ left.SettledOn k ∧ right.SettledOn k := by
  constructor
  · rintro (_ | _ | _ | ⟨hl, hr⟩)
    exact ⟨rfl, hl, hr⟩
  · rintro ⟨rfl, hl, hr⟩
    exact .binary hl hr

/-! ### Forms and kinds of nodes -/

theorem leavesKind_iff : t.leavesKind k = true ↔ ∃ form, t.form? = some form ∧ form.kind = k := by
  simp [leavesKind]

theorem SettledOn.leavesKind (h : t.SettledOn k) : t.leavesKind k = true := by
  rw [leavesKind_iff]
  cases h with
  | literal hp => exact ⟨_, rfl, hp⟩
  | reference => exact ⟨_, rfl, rfl⟩
  | unary _ _ => exact ⟨_, rfl, rfl⟩
  | binary _ _ => exact ⟨_, rfl, rfl⟩

/-- A tree settles on the kind its value would be left as, and on no other. -/
theorem SettledOn.kind_eq (h : t.SettledOn m) (hk : t.leavesKind k = true) : m = k := by
  obtain ⟨form, hform, rfl⟩ := leavesKind_iff.1 hk
  obtain ⟨form', hform', rfl⟩ := leavesKind_iff.1 h.leavesKind
  rw [Option.some.inj (hform.symm.trans hform')]

/-- An operator has a kind to compute with if the kind it has observed passes its test. -/
theorem guard_kind?_eq_some (fits : ScalarKind → Bool) :
    (seen.kind?.bind fun kind => if fits kind then some kind else none) = some k ↔
      seen = .scalar k ∧ fits k = true := by
  cases seen with
  | pending => simp [Observation.kind?]
  | dynamic => simp [Observation.kind?]
  | scalar m =>
    simp only [Observation.kind?, Option.bind_some, Option.ite_none_right_eq_some,
      Option.some.injEq, Observation.scalar.injEq]
    exact ⟨fun ⟨h, hm⟩ => ⟨hm, hm ▸ h⟩, fun ⟨hm, h⟩ => ⟨hm ▸ h, hm⟩⟩

theorem operatingKind?_unary :
    (unary op seen operand).operatingKind? = some k ↔
      seen = .scalar k ∧ operand.leavesKind k = true ∧ op.isSign = true := by
  rw [← Bool.and_eq_true]
  exact guard_kind?_eq_some fun kind => operand.leavesKind kind && op.isSign

theorem operatingKind?_binary :
    (binary op seen left right).operatingKind? = some k ↔
      seen = .scalar k ∧ left.leavesKind k = true ∧ right.leavesKind k = true := by
  rw [← Bool.and_eq_true]
  exact guard_kind?_eq_some fun kind => left.leavesKind kind && right.leavesKind kind

/-! ### Compilable trees -/

theorem SettledOn.isCompilable (h : t.SettledOn k) : t.isCompilable = true := by
  induction h with
  | literal _ => rfl
  | reference => rfl
  | unary hop h ih =>
    rw [Tree.isCompilable, operatingKind?_unary.2 ⟨rfl, h.leavesKind, hop⟩, ih]
    rfl
  | binary hl hr ihl ihr =>
    rw [Tree.isCompilable, operatingKind?_binary.2 ⟨rfl, hl.leavesKind, hr.leavesKind⟩, ihl, ihr]
    rfl

/-- The checks of the single nodes make all of them agree: an operator agrees
    with its operands, and these with all below them. -/
theorem exists_settledOn_of_isCompilable (h : t.isCompilable = true) : ∃ k, t.SettledOn k := by
  induction t with
  | literal v =>
    cases v with
    | scalar p => exact ⟨p.kind, .literal rfl⟩
    | decimal _ | text _ | host _ => cases h
  | reference name lastKind =>
    obtain ⟨k, rfl⟩ := Option.isSome_iff_exists.1 h
    exact ⟨k, .reference⟩
  | unary op seen operand ih =>
    obtain ⟨hk, ho⟩ := Bool.and_eq_true_iff.1 h
    obtain ⟨k, hk⟩ := Option.isSome_iff_exists.1 hk
    obtain ⟨rfl, hleft, hop⟩ := operatingKind?_unary.1 hk
    -- The kind that the operand settles on is the one that the operator has observed.
    obtain ⟨m, hm⟩ := ih ho
    obtain rfl := hm.kind_eq hleft
    exact ⟨m, .unary hop hm⟩
  | binary op seen left right ihl ihr =>
    obtain ⟨hk, hr⟩ := Bool.and_eq_true_iff.1 h
    obtain ⟨hk, hl⟩ := Bool.and_eq_true_iff.1 hk
    obtain ⟨k, hk⟩ := Option.isSome_iff_exists.1 hk
    obtain ⟨rfl, hkl, hkr⟩ := operatingKind?_binary.1 hk
    obtain ⟨m, hm⟩ := ihl hl
    obtain ⟨n, hn⟩ := ihr hr
    obtain rfl := hm.kind_eq hkl
    obtain rfl := hn.kind_eq hkr
    exact ⟨n, .binary hm hn⟩

/-- A tree can be compiled exactly if all of its nodes agree on one kind. -/
theorem isCompilable_iff : t.isCompilable = true ↔ ∃ k, t.SettledOn k :=
  ⟨exists_settledOn_of_isCompilable, fun ⟨_, h⟩ => h.isCompilable⟩

end Tree

end AdaptiveArith
