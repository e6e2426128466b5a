import AdaptiveArith.Proofs.Room
import AdaptiveArith.Tree.Position

/-!
# Refusals

Whether a tree can be compiled is asked of all of its nodes before anything is emitted. An
emission asks every node on its own, when it gets there, and by then it has entered leaves
into the tables, which may overflow. `Tree.refusing?` is the first node, in the order of
emission, that would refuse, and `Tree.reached` are the leaves before it. So emitting a tree
comes to entering these leaves and then refusing, if there is a node to refuse
(`Tree.entered_emit_eq`).

A tree has a node that refuses exactly if it cannot be compiled (`Tree.refusing?_eq_none_iff`).
Both questions have one answer, then, whatever has been emitted before, as long as there is
room for the leaves (`Tree.error?_emit_iff`).
-/

namespace AdaptiveArith

theorem Value.eq_scalar_of_scalar? {v : Value} {p : Scalar} (h : v.scalar? = some p) :
    v = .scalar p := by
  cases v with
  | scalar q => rw [Option.some.inj h]
  | decimal | text | host => cases h

namespace Tree

/-! ### Where an emission is refused -/

/-- The root of the tree does not refuse to be emitted. -/
def admitsRoot : Tree → Bool
  | literal value => value.scalar?.isSome
  | reference _ lastKind => lastKind.isSome
  | t@(unary _ _ _) | t@(binary _ _ _ _) => t.operatingKind?.isSome

/-- The first subtree whose root refuses to be emitted, in the order of emission. -/
def refusing? : Tree → Option Tree
  | t@(literal _) | t@(reference _ _) => if t.admitsRoot then none else some t
  | t@(unary _ _ operand) => if t.admitsRoot then operand.refusing? else some t
  | t@(binary _ _ left right) =>
    if t.admitsRoot then left.refusing?.or right.refusing? else some t

/-- The leaves that are emitted until a subtree refuses. -/
def reached : Tree → List Leaf
  | t@(literal _) | t@(reference _ _) => if t.admitsRoot then t.leaves else []
  | t@(unary _ _ operand) => if t.admitsRoot then operand.reached else []
  | t@(binary _ _ left right) =>
    if t.admitsRoot then left.reached ++ if left.refusing?.isSome then [] else right.reached
    else []

variable {t u : Tree}

theorem isCompilable_unary {op : Operator} {seen : Observation} {operand : Tree} :
    (unary op seen operand).isCompilable =
      ((unary op seen operand).admitsRoot && operand.isCompilable) := rfl

theorem isCompilable_binary {op : Operator} {seen : Observation} {left right : Tree} :
    (binary op seen left right).isCompilable =
      ((binary op seen left right).admitsRoot && left.isCompilable && right.isCompilable) := rfl

/-- A tree can be compiled exactly if none of its subtrees refuses. -/
theorem refusing?_eq_none_iff : t.refusing? = none ↔ t.isCompilable = true := by
  induction t with
  | literal | reference =>
    rw [refusing?, isCompilable, admitsRoot]
    split <;> simp_all
  | unary _ _ _ ih =>
    rw [refusing?, isCompilable_unary, Bool.and_eq_true, ← ih]
    split <;> simp [*]
  | binary _ _ _ _ ihl ihr =>
    rw [refusing?, isCompilable_binary, Bool.and_eq_true, Bool.and_eq_true, ← ihl, ← ihr]
    split <;> simp [*]

/-- A tree that cannot be compiled has a subtree that refuses. -/
theorem exists_refusing?_eq_some (h : t.isCompilable = false) : ∃ u, t.refusing? = some u :=
  Option.ne_none_iff_exists'.1 (mt refusing?_eq_none_iff.1 (Bool.eq_false_iff.1 h))

theorem isCompilable_of_refusing? (h : t.refusing? = some u) : t.isCompilable = false :=
  Bool.eq_false_iff.2 fun hcompilable => by
    rw [refusing?_eq_none_iff.2 hcompilable] at h
    cases h

theorem isCompilable_of_not_admitsRoot (h : ¬t.admitsRoot = true) : t.isCompilable = false := by
  rw [Bool.not_eq_true] at h
  cases t with
  | literal | reference => exact h
  | unary => rw [isCompilable_unary, h, Bool.false_and]
  | binary => rw [isCompilable_binary, h, Bool.false_and, Bool.false_and]

/-- What refuses is a subtree that cannot be compiled. -/
theorem refusing?_eq_some (h : t.refusing? = some u) :
    u ∈ t.subtrees ∧ u.isCompilable = false := by
  -- Either the root refuses, or an operand does.
  induction t with
  | literal | reference =>
    rw [refusing?] at h
    split at h
    next => cases h
    next hroot =>
      obtain rfl := Option.some.inj h
      exact ⟨List.mem_singleton_self _, isCompilable_of_not_admitsRoot hroot⟩
  | unary _ _ _ ih =>
    rw [refusing?] at h
    split at h
    next => exact (ih h).imp_left (List.mem_cons_of_mem _)
    next hroot =>
      obtain rfl := Option.some.inj h
      exact ⟨List.mem_cons_self, isCompilable_of_not_admitsRoot hroot⟩
  | binary _ _ _ _ ihl ihr =>
    rw [refusing?] at h
    split at h
    next =>
      rcases Option.or_eq_some_iff.1 h with h | ⟨_, h⟩
      · exact (ihl h).imp_left fun hu => List.mem_cons_of_mem _ (List.mem_append_left _ hu)
      · exact (ihr h).imp_left fun hu => List.mem_cons_of_mem _ (List.mem_append_right _ hu)
    next hroot =>
      obtain rfl := Option.some.inj h
      exact ⟨List.mem_cons_self, isCompilable_of_not_admitsRoot hroot⟩

theorem reached_eq (h : t.refusing? = none) : t.reached = t.leaves := by
  induction t with
  | literal | reference =>
    rw [refusing?] at h
    split at h
    next hroot => rw [reached, if_pos hroot]
    next => cases h
  | unary _ _ _ ih =>
    rw [refusing?] at h
    split at h
    next hroot => rw [reached, if_pos hroot, ih h, leaves]
    next => cases h
  | binary _ _ _ _ ihl ihr =>
    rw [refusing?] at h
    split at h
    next hroot =>
      obtain ⟨hl, hr⟩ := Option.or_eq_none_iff.1 h
      rw [reached, if_pos hroot, hl, ihl hl, ihr hr, leaves]
      rfl
    next => cases h

theorem reached_prefix_leaves (t : Tree) : t.reached <+: t.leaves := by
  induction t with
  | literal | reference =>
    rw [reached]
    split
    · exact List.prefix_refl _
    · exact List.nil_prefix
  | unary _ _ _ ih =>
    rw [reached]
    split
    · exact ih
    · exact List.nil_prefix
  | binary _ _ left right ihl ihr =>
    rw [reached]
    split
    · cases hl : left.refusing? with
      | none =>
        rw [reached_eq hl]
        exact (List.prefix_append_right_inj _).2 ihr
      | some _ =>
        rw [Option.isSome_some, if_pos rfl, List.append_nil]
        exact ihl.trans (List.prefix_append _ _)
    · exact List.nil_prefix

/-! ### What an emission comes to -/

/-- The leaves of the tree are entered, until a subtree refuses. -/
def enterReached (t : Tree) (tables : Tables) : Except CompileError Tables :=
  (t.reached.foldlM Tables.enter tables).bind fun entered =>
    match t.refusing? with
    | none => .ok entered
    | some u => .error u.refusal

/-- Operands are entered one after the other, unless the first of them refuses. -/
theorem enterReached_binary {op : Operator} {seen : Observation} {left right : Tree}
    (h : (binary op seen left right).admitsRoot = true) (tables : Tables) :
    (binary op seen left right).enterReached tables =
      (left.enterReached tables).bind right.enterReached := by
  rw [enterReached, enterReached, reached, refusing?, if_pos h, if_pos h]
  cases left.refusing? with
  | none =>
    simp only [Option.isSome_none, Bool.false_eq_true, if_false, Option.none_or, List.foldlM_append]
    cases left.reached.foldlM Tables.enter tables <;> rfl
  | some u =>
    rw [Option.isSome_some, if_pos rfl, List.append_nil]
    cases left.reached.foldlM Tables.enter tables <;> rfl

/-- A root that refuses emits nothing. -/
theorem emit_of_not_admitsRoot (h : ¬t.admitsRoot = true) (e : Emitter) :
    t.emit e = .stopped e t.refusal := by
  cases t with
  | literal | reference | unary | binary =>
    rw [admitsRoot, Option.not_isSome_iff_eq_none] at h
    unfold emit
    rw [h]

theorem entered_emit_of_not_admitsRoot (h : ¬t.admitsRoot = true) (e : Emitter) :
    (t.emit e).entered = t.enterReached e.tables := by
  rw [emit_of_not_admitsRoot h]
  cases t <;> rw [enterReached, reached, refusing?, if_neg h, if_neg h] <;> rfl

/-- Emitting a tree enters its leaves, until a subtree refuses. -/
theorem entered_emit_eq (t : Tree) (e : Emitter) :
    (t.emit e).entered = t.enterReached e.tables := by
  induction t generalizing e with
  | literal v =>
    by_cases hroot : (literal v).admitsRoot = true
    · obtain ⟨p, hp⟩ := Option.isSome_iff_exists.1 hroot
      obtain rfl : v = .scalar p := Value.eq_scalar_of_scalar? hp
      rw [enterReached, reached, refusing?, if_pos hroot, if_pos hroot, leaves, List.foldlM_cons,
        ← Emitter.tables_loadConstant, emit, Value.scalar?]
      dsimp only
      cases e.loadConstant p <;> rfl
    · exact entered_emit_of_not_admitsRoot hroot e
  | reference name lastKind =>
    by_cases hroot : (reference name lastKind).admitsRoot = true
    · obtain ⟨k, rfl⟩ := Option.isSome_iff_exists.1 hroot
      rw [enterReached, reached, refusing?, if_pos hroot, if_pos hroot, leaves, List.foldlM_cons,
        ← Emitter.tables_loadVariable, emit]
      dsimp only
      cases e.loadVariable name <;> rfl
    · exact entered_emit_of_not_admitsRoot hroot e
  | unary op seen operand ih =>
    by_cases hroot : (unary op seen operand).admitsRoot = true
    · obtain ⟨k, hk⟩ := Option.isSome_iff_exists.1 hroot
      rw [emit, hk, enterReached, reached, refusing?, if_pos hroot, if_pos hroot]
      dsimp only
      rw [Emission.entered_andThen (f := .ok), Emission.entered_asOperand, ih]
      · change Except.bind _ _ = operand.enterReached e.tables
        cases operand.enterReached e.tables <;> rfl
      · intro e
        split <;> rfl
    · exact entered_emit_of_not_admitsRoot hroot e
  | binary op seen left right ihl ihr =>
    by_cases hroot : (binary op seen left right).admitsRoot = true
    · obtain ⟨k, hk⟩ := Option.isSome_iff_exists.1 hroot
      rw [enterReached_binary hroot, emit, hk]
      dsimp only
      rw [Emission.entered_andThen (f := right.enterReached), Emission.entered_asOperand, ihl]
      intro e
      rw [Emission.entered_andThen (f := .ok), Emission.entered_asOperand, ihr]
      · cases right.enterReached e.tables <;> rfl
      · exact fun _ => rfl
    · exact entered_emit_of_not_admitsRoot hroot e

end Tree

/-! ### Emission and compilability -/

theorem Emission.error?_eq_some_iff {emission : Emission} {error : CompileError} :
    emission.error? = some error ↔ emission.entered = .error error := by
  rw [entered]
  cases emission.error? <;> simp

theorem Emission.error?_eq_none_iff {emission : Emission} :
    emission.error? = none ↔ ∃ tables, emission.entered = .ok tables := by
  rw [entered]
  cases emission.error? <;> simp

namespace Tree

variable {t : Tree} {e : Emitter}

/-- Nothing is emitted without an error that cannot be compiled. -/
theorem isCompilable_of_emit (h : (t.emit e).error? = none) : t.isCompilable = true := by
  obtain ⟨tables, htables⟩ := Emission.error?_eq_none_iff.1 h
  rw [entered_emit_eq, enterReached] at htables
  rw [← refusing?_eq_none_iff]
  cases hrefusing : t.refusing? with
  | none => rfl
  | some u =>
    rw [hrefusing] at htables
    cases hentered : t.reached.foldlM Tables.enter e.tables <;> rw [hentered] at htables <;>
      cases htables

/-- Emitting a tree comes to its refusal, if there is room for the leaves before. -/
theorem error?_emit_of_hasRoomFor (he : e.tables.Distinct ∧ e.tables.Bounded)
    (hroom : e.tables.HasRoomFor t.reached) : (t.emit e).error? = t.refusing?.map refusal := by
  have hfits := (Tables.filling_entries_append he.1 he.2 t.reached).unique
    (.fits (Tables.hasRoomFor_iff.1 hroom))
  have hentered := t.entered_emit_eq e
  rw [enterReached, hfits] at hentered
  cases hrefusing : t.refusing? with
  | none =>
    rw [hrefusing] at hentered
    exact Emission.error?_eq_none_iff.2 ⟨_, hentered⟩
  | some u =>
    rw [hrefusing] at hentered
    exact Emission.error?_eq_some_iff.2 hentered

/-- Emitting a tree comes to another error exactly if the leaves before overflow the tables. -/
theorem error?_emit_eq_some_iff (he : e.tables.Distinct ∧ e.tables.Bounded) {error : CompileError}
    (herror : ∀ node, error ≠ .notCompilable node) : (t.emit e).error? = some error ↔
      Tables.Filling (e.tables.entries ++ t.reached) (.error error) := by
  have hfilling := Tables.filling_entries_append he.1 he.2 t.reached
  rw [Emission.error?_eq_some_iff, entered_emit_eq, enterReached]
  generalize t.reached.foldlM Tables.enter e.tables = filled at hfilling ⊢
  constructor
  · intro h
    cases filled with
    | error => exact Except.error.inj h ▸ hfilling
    | ok =>
      cases hrefusing : t.refusing? with
      | none => rw [hrefusing] at h; cases h
      | some u => rw [hrefusing] at h; exact absurd (Except.error.inj h).symm (herror _)
  · intro h
    rw [hfilling.unique h]
    rfl

/-- Only a subtree that refuses makes an emission refuse. -/
theorem exists_refusing?_of_emit (he : e.tables.Distinct ∧ e.tables.Bounded) {node : String}
    (h : (t.emit e).error? = some (.notCompilable node)) :
    ∃ u, t.refusing? = some u ∧ node = u.display := by
  have hfilling := Tables.filling_entries_append he.1 he.2 t.reached
  generalize t.reached.foldlM Tables.enter e.tables = filled at hfilling
  cases hfilling with
  | fits hbounded =>
    rw [error?_emit_of_hasRoomFor he (Tables.hasRoomFor_iff.2 hbounded)] at h
    obtain ⟨u, hu, hnode⟩ := Option.map_eq_some_iff.1 h
    exact ⟨u, hu, (CompileError.notCompilable.inj hnode).symm⟩
  | tooManyConstants hover =>
    rw [(error?_emit_eq_some_iff he (by simp)).2 (.tooManyConstants hover)] at h
    cases h
  | tooManyVariables hover =>
    rw [(error?_emit_eq_some_iff he (by simp)).2 (.tooManyVariables hover)] at h
    cases h

/-! ### Overflow -/

/-- The tree by itself, or with an operand beside it that refuses. -/
def orRefused (t : Tree) (compilable : Bool) : Tree :=
  if compilable then t
  else .binary .add (.scalar .int64) t (.unary .sub (.scalar .int64) (ofName "z"))

theorem isCompilable_orRefused (ht : t.isCompilable = true) (compilable : Bool) :
    (t.orRefused compilable).isCompilable = compilable := by
  cases compilable with
  | true => exact ht
  | false => exact Bool.and_false _

/-- All leaves of the tree are reached, and none of the operand beside it. -/
theorem reached_orRefused (ht : t.isCompilable = true) (hkind : t.leavesKind .int64 = true)
    (compilable : Bool) : (t.orRefused compilable).reached = t.leaves := by
  have hreached := reached_eq (refusing?_eq_none_iff.2 ht)
  cases compilable with
  | true => exact hreached
  | false =>
    have hroot : (t.orRefused false).admitsRoot = true :=
      Option.isSome_iff_exists.2 ⟨.int64, operatingKind?_binary.2 ⟨rfl, hkind, rfl⟩⟩
    refine (if_pos hroot).trans ?_
    rw [hreached, refusing?_eq_none_iff.2 ht]
    exact List.append_nil _

/-- Either table may overflow, whether the tree can be compiled or not. -/
theorem exists_overflow (compilable : Bool) {error : CompileError}
    (herror : error ∈ [CompileError.tooManyConstants, .tooManyVariables]) :
    ∃ (t : Tree) (calls : List EmitterCall), t.isCompilable = compilable ∧
      (t.emit (Emitter.performAll {} calls)).error? = some error := by
  obtain ⟨calls, hcalls⟩ :=
    Emitter.exists_tables_performAll Tables.distinct_full Tables.bounded_full
  have he := Emitter.tables_performAll_sound calls
  rcases List.mem_pair.1 herror with rfl | rfl
  · refine ⟨orRefused (.literal (.scalar (.int64 0))) compilable, calls,
      isCompilable_orRefused rfl compilable, (error?_emit_eq_some_iff he (by simp)).2 ?_⟩
    rw [hcalls, reached_orRefused rfl rfl]
    exact Tables.tooManyConstants_full
  · refine ⟨orRefused (.reference "y" (some .int64)) compilable, calls,
      isCompilable_orRefused rfl compilable, (error?_emit_eq_some_iff he (by simp)).2 ?_⟩
    rw [hcalls, reached_orRefused rfl rfl]
    exact Tables.tooManyVariables_full

/-- Emitting a tree and asking whether it can be compiled come to the same, whatever has been
    emitted before.

    * If both tables have room for the leaves, then the tree is emitted exactly if it can be
      compiled, and otherwise refused for a subtree that cannot.
    * In any case, no tree is emitted that cannot be compiled, and none is refused that can.
    * The other errors are those of tables that overflow at a leaf before the refusal. Both
      can happen to trees that can be compiled and to trees that cannot. -/
theorem error?_emit_iff :
    (∀ (t : Tree) (calls : List EmitterCall),
      let e := Emitter.performAll {} calls
      let error? := (t.emit e).error?
      (e.tables.HasRoomFor t.leaves →
        (error? = none ↔ t.isCompilable = true) ∧
        (t.isCompilable = false → ∃ u ∈ t.subtrees, u.isCompilable = false ∧
          error? = some (.notCompilable u.display))) ∧
      (error? = none → t.isCompilable = true) ∧
      (∀ node, error? = some (.notCompilable node) → t.isCompilable = false ∧
        ∃ u ∈ t.subtrees, u.isCompilable = false ∧ node = u.display) ∧
      t.reached <+: t.leaves ∧ (t.isCompilable = true → t.reached = t.leaves) ∧
      (error? = some .tooManyConstants ↔ Tables.OverflowsFirst Tables.constantCount
        Tables.nameCount (e.tables.entries ++ t.reached)) ∧
      (error? = some .tooManyVariables ↔ Tables.OverflowsFirst Tables.nameCount
        Tables.constantCount (e.tables.entries ++ t.reached))) ∧
    ∀ (compilable : Bool), ∀ error ∈ [CompileError.tooManyConstants, .tooManyVariables],
      ∃ (t : Tree) (calls : List EmitterCall), t.isCompilable = compilable ∧
        (t.emit (Emitter.performAll {} calls)).error? = some error := by
  refine ⟨fun t calls => ?_, fun compilable error herror => exists_overflow compilable herror⟩
  intro e error?
  have he := Emitter.tables_performAll_sound calls
  refine ⟨fun hroom => ?_, isCompilable_of_emit, fun node hnode => ?_,
    t.reached_prefix_leaves, fun h => reached_eq (refusing?_eq_none_iff.2 h), ?_, ?_⟩
  · have herror : error? = t.refusing?.map refusal :=
      error?_emit_of_hasRoomFor he (hroom.mono t.reached_prefix_leaves)
    rw [herror, Option.map_eq_none_iff, refusing?_eq_none_iff]
    refine ⟨Iff.rfl, fun h => ?_⟩
    obtain ⟨u, hu⟩ := exists_refusing?_eq_some h
    obtain ⟨hmem, hcompilable⟩ := refusing?_eq_some hu
    exact ⟨u, hmem, hcompilable, by rw [hu, Option.map_some, refusal]⟩
  · obtain ⟨u, hu, rfl⟩ := exists_refusing?_of_emit he hnode
    obtain ⟨hmem, hcompilable⟩ := refusing?_eq_some hu
    exact ⟨isCompilable_of_refusing? hu, u, hmem, hcompilable, rfl⟩
  · exact (error?_emit_eq_some_iff he (by simp)).trans Tables.filling_tooManyConstants_iff
  · exact (error?_emit_eq_some_iff he (by simp)).trans Tables.filling_tooManyVariables_iff

/-- The right operand of a sum still claims to be of its kind, but computes with another one. -/
theorem error?_emit_iff_sum :
    let x := reference "x" (some .int32)
    let t := binary .add (.scalar .int64) (literal (.scalar (.int64 1)))
      (binary .mul (.scalar .int64) x (literal (.scalar (.int64 3))))
    let e := Emitter.performAll {} [.loadVariable "x", .loadConstant (.int64 3)]
    (x.emit e).error? = none ∧ t.isCompilable = false ∧
      ∃ u ∈ t.subtrees, u.isCompilable = false ∧
        (t.emit e).error? = some (.notCompilable u.display) := by
  intro x t e
  have hrefused : t.isCompilable = false := rfl
  exact ⟨((error?_emit_iff.1 x _).1 ⟨by decide +kernel, by decide +kernel⟩).1.2 rfl, hrefused,
    ((error?_emit_iff.1 t _).1 ⟨by decide +kernel, by decide +kernel⟩).2 hrefused⟩

end Tree

end AdaptiveArith
