import AdaptiveArith.Proofs.Filling

/-!
# The code of a tree, read off the tree

Nothing but the leaves of a tree, its operators and one kind decide which code the tree
is compiled to (`Tree.codeOf`): the instructions are those of its nodes in postorder
(`Tree.postorder`), a variable is unboxed where it is an operand, and an index is that
of the first occurrence of a constant or a name among the leaves.

Any lowering relative to tables without duplicates is this one
(`Tree.Lowers.eq_operandCode`), and so `Tree.compile_eq_codeOf` says of every tree what
`Tree.compile` comes to.
-/

namespace AdaptiveArith

/-! ### Indices -/

namespace Tables

/-- The index of a constant. -/
def constantIndex (tables : Tables) (p : Scalar) : UInt8 := .ofNat (tables.constants.idxOf p)

/-- The index of the name of a variable. -/
def nameIndex (tables : Tables) (name : String) : UInt8 := .ofNat (tables.variables.idxOf name)

section Entries

variable {α : Type} [DecidableEq α] {xs : List α} {x : α}

/-- In a table without duplicates, an entry has one index. -/
theorem ofNat_idxOf_eq {i : UInt8} (hxs : xs.Nodup) (h : xs[i.toNat]? = some x) :
    .ofNat (xs.idxOf x) = i := by
  obtain ⟨hi, rfl⟩ := List.getElem?_eq_some_iff.1 h
  rw [hxs.idxOf_getElem, UInt8.ofNat_toNat]

/-- In a table with no more entries than bytes, the index of an entry points at it. -/
theorem getElem?_ofNat_idxOf (hxs : xs.length ≤ Emitter.tableLimit) (h : x ∈ xs) :
    xs[(UInt8.ofNat (xs.idxOf x)).toNat]? = some x := by
  rw [UInt8.toNat_ofNat_of_lt' (Nat.lt_of_lt_of_le (List.idxOf_lt_length_iff.2 h) hxs),
    List.getElem?_idxOf h]

end Entries

end Tables

namespace Tree

/-! ### The reference code -/

/-- The instruction that leaves the value of the tree as a bare scalar of the given kind
    where it is an operand: only variables need one. -/
def unboxing (k : ScalarKind) : Tree → List Instruction
  | reference _ _ => [.unbox k.byte]
  | literal _ | unary _ _ _ | binary _ _ _ _ => []

/-- The instructions of the nodes of the tree in postorder, for one kind, with the
    indices of the given tables. -/
def postorder (tables : Tables) (k : ScalarKind) : Tree → List Instruction
  | literal (.scalar p) => [.loadConstant (tables.constantIndex p)]
  | literal (.decimal _) | literal (.text _) | literal (.host _) => []
  | reference name _ => [.loadVariable (tables.nameIndex name)]
  | unary op _ operand =>
    operand.postorder tables k ++ operand.unboxing k ++ if op = .sub then [.negate k] else []
  | binary op _ left right =>
    (left.postorder tables k ++ left.unboxing k) ++
      (right.postorder tables k ++ right.unboxing k) ++ [.binary k op.byte]

/-- The form in which code for one kind leaves the value of the tree. -/
def exitForm (k : ScalarKind) : Tree → Form
  | reference _ _ => .boxed k
  | literal _ | unary _ _ _ | binary _ _ _ _ => .bare k

/-- The code of the tree for one kind. -/
def codeOf (t : Tree) (k : ScalarKind) : Code where
  constants := (Tables.ofLeaves t.leaves).constants.toArray
  «variables» := (Tables.ofLeaves t.leaves).variables.toArray
  instructions := (t.postorder (.ofLeaves t.leaves) k ++ [Instruction.ret]).toArray
  maxStack := t.need
  form? := some (t.exitForm k)

variable {t : Tree} {k : ScalarKind} {form : Form} {tables : Tables} {is : List Instruction}

theorem SettledOn.form?_eq (h : t.SettledOn k) : t.form? = some (t.exitForm k) := by
  cases h with
  | literal hp => exact congrArg (fun m => some (Form.bare m)) hp
  | reference | unary | binary => rfl

/-- Code that leaves a value boxed is that of a variable. -/
theorem Lowers.eq_postorder_of_boxed (h : t.Lowers tables (.boxed k) is)
    (hnames : tables.variables.Nodup) :
    is = t.postorder tables k ∧ t.unboxing k = [.unbox k.byte] := by
  cases h with
  | reference hi =>
    refine ⟨?_, rfl⟩
    rw [postorder, Tables.nameIndex, Tables.ofNat_idxOf_eq hnames hi]

/-- The code of an operand is its postorder, unboxed if it is a variable. -/
theorem Lowers.eq_operandCode (h : t.Lowers tables (.bare k) is)
    (hconstants : tables.constants.Nodup) (hnames : tables.variables.Nodup) :
    is = t.postorder tables k ++ t.unboxing k := by
  -- The operands of an operator are bare, so that the hypotheses of the induction apply to them;
  -- a boxed value is that of a variable, where no induction is needed.
  generalize hform : Form.bare k = form at h
  induction h with
  | literal hi =>
    rw [postorder, Tables.constantIndex, Tables.ofNat_idxOf_eq hconstants hi]
    rfl
  | reference => cases hform
  | unboxed h _ =>
    obtain rfl := Form.bare.inj hform
    obtain ⟨rfl, hunboxing⟩ := h.eq_postorder_of_boxed hnames
    rw [hunboxing]
  | plus _ ih =>
    obtain rfl := Form.bare.inj hform
    rw [ih rfl, postorder, unboxing, List.append_nil]
    exact (List.append_nil _).symm
  | minus _ ih =>
    obtain rfl := Form.bare.inj hform
    rw [ih rfl, postorder, unboxing, List.append_nil]
    rfl
  | binary _ _ ihl ihr =>
    obtain rfl := Form.bare.inj hform
    rw [ihl rfl, ihr rfl, postorder, unboxing, List.append_nil]

/-- The code of a whole tree is its postorder. -/
theorem Lowers.eq_postorder (h : t.Lowers tables (t.exitForm k) is)
    (hconstants : tables.constants.Nodup) (hnames : tables.variables.Nodup) :
    is = t.postorder tables k := by
  cases t with
  | reference => exact (h.eq_postorder_of_boxed hnames).1
  | literal | unary | binary =>
    exact (h.eq_operandCode hconstants hnames).trans (List.append_nil _)

/-- The code that a tree is compiled to is the one read off the tree. -/
theorem exists_eq_codeOf {code : Code} (h : t.compile = .ok code)
    (htables : code.tables = .ofLeaves t.leaves) : ∃ k, t.SettledOn k ∧ code = t.codeOf k := by
  obtain ⟨form, is, hsettled, hform, hlowered⟩ := lowered_of_compile h
  have hexit : form = t.exitForm form.kind := Option.some.inj (hform.symm.trans hsettled.form?_eq)
  have hlowers := hlowered.lowers
  rw [htables, hexit] at hlowers
  have his := hlowers.eq_postorder (Tables.nodup_eraseDups _) (Tables.nodup_eraseDups _)
  refine ⟨form.kind, hsettled, ?_⟩
  obtain ⟨constants, names, instructions, maxStack, form?⟩ := code
  rw [codeOf, Code.mk.injEq, ← his, ← htables, ← hlowered.instructions, ← hexit]
  exact ⟨rfl, rfl, rfl, hlowered.maxStack, hlowered.form⟩

/-! ### Compilation -/

theorem map_tables_eq_error {e : CompileError} :
    t.compile.map Code.tables = .error e ↔ t.compile = .error e := by
  cases t.compile <;> simp [Except.map]

/-- A tree that can be compiled fails to be if its leaves fail to fit into the tables. -/
theorem compile_eq_error_iff {e : CompileError} (h : t.isCompilable = true) :
    t.compile = .error e ↔ Tables.Filling t.leaves (.error e) := by
  rw [← map_tables_eq_error]
  exact ⟨fun he => he ▸ filling_compile h, (filling_compile h).unique⟩

theorem tables_of_compile {code : Code} (h : t.isCompilable = true) (hcode : t.compile = .ok code) :
    code.tables = .ofLeaves t.leaves ∧ (Tables.ofLeaves t.leaves).Bounded := by
  have hfilling := filling_compile h
  rw [hcode] at hfilling
  exact Tables.filling_ok_iff.1 hfilling

/-- A tree that can be compiled is compiled exactly if its leaves fit into the tables. -/
theorem exists_compile_eq_ok_iff (h : t.isCompilable = true) :
    (∃ code, t.compile = .ok code) ↔ (Tables.ofLeaves t.leaves).Bounded := by
  constructor
  · rintro ⟨code, hcode⟩
    exact (tables_of_compile h hcode).2
  · intro hbounded
    cases hcode : t.compile with
    | ok code => exact ⟨code, rfl⟩
    | error e =>
      -- The tables are not filled and overflown at the same time.
      cases ((compile_eq_error_iff h).1 hcode).unique (.fits hbounded)

theorem isCompilable_of_compile {code : Code} (h : t.compile = .ok code) :
    t.isCompilable = true := by
  by_contra hrefused
  rw [compile, if_neg hrefused] at h
  cases h

/-- No tree that can be compiled is refused. -/
theorem compile_eq_notCompilable_iff {node : String} :
    t.compile = .error (.notCompilable node) ↔ t.isCompilable = false ∧ node = t.display := by
  cases h : t.isCompilable with
  | true =>
    rw [compile_eq_error_iff h]
    constructor
    · rintro ⟨⟩
    · rintro ⟨⟨⟩, _⟩
  | false => simp [compile, h, refusal, eq_comm]

/-- What a tree is compiled to.

    * It is refused exactly if it cannot be compiled, and the error names the tree.
    * Otherwise, it is compiled exactly if its leaves have no more entries for each table
      than there are bytes; if they have, the error is that of the table which is the
      first to overflow.
    * The code is the one read off the tree for the kind that all of its nodes agree on,
      and the index of every constant and of every name points at it. -/
theorem compile_eq_codeOf (t : Tree) :
    let tables := Tables.ofLeaves t.leaves
    (t.compile = .error (.notCompilable t.display) ↔ t.isCompilable = false) ∧
      (t.isCompilable = true →
        ((∃ code, t.compile = .ok code) ↔ tables.Bounded) ∧
          (t.compile = .error .tooManyConstants ↔
            Tables.OverflowsFirst Tables.constantCount Tables.nameCount t.leaves) ∧
          (t.compile = .error .tooManyVariables ↔
            Tables.OverflowsFirst Tables.nameCount Tables.constantCount t.leaves) ∧
          (tables.Bounded ∨ t.compile = .error .tooManyConstants ∨
            t.compile = .error .tooManyVariables)) ∧
      ∀ code, t.compile = .ok code →
        (∃ k, t.SettledOn k ∧ code = t.codeOf k) ∧
          (∀ p, .literal (.scalar p) ∈ t.leaves →
            code.constants[(tables.constantIndex p).toNat]? = some p) ∧
          ∀ name, .reference name ∈ t.leaves →
            code.variables[(tables.nameIndex name).toNat]? = some name := by
  intro tables
  refine ⟨?_, fun h => ⟨exists_compile_eq_ok_iff h, ?_, ?_, ?_⟩, fun code hcode => ?_⟩
  · exact compile_eq_notCompilable_iff.trans (and_iff_left rfl)
  · exact (compile_eq_error_iff h).trans Tables.filling_tooManyConstants_iff
  · exact (compile_eq_error_iff h).trans Tables.filling_tooManyVariables_iff
  · rw [← map_tables_eq_error, ← map_tables_eq_error]
    have hfilling := filling_compile h
    generalize t.compile.map Code.tables = filled at hfilling ⊢
    cases hfilling with
    | fits hbounded => exact .inl hbounded
    | tooManyConstants => exact .inr (.inl rfl)
    | tooManyVariables => exact .inr (.inr rfl)
  · obtain ⟨htables, hbounded⟩ := tables_of_compile (isCompilable_of_compile hcode) hcode
    obtain ⟨k, hsettled, rfl⟩ := exists_eq_codeOf hcode htables
    refine ⟨⟨k, hsettled, rfl⟩, fun p hp => ?_, fun name hname => ?_⟩
    · rw [codeOf, List.getElem?_toArray]
      exact Tables.getElem?_ofNat_idxOf hbounded.constants
        (List.mem_eraseDups.2 (List.mem_filterMap.2 ⟨_, hp, rfl⟩))
    · rw [codeOf, List.getElem?_toArray]
      exact Tables.getElem?_ofNat_idxOf hbounded.variables
        (List.mem_eraseDups.2 (List.mem_filterMap.2 ⟨_, hname, rfl⟩))

/-- A variable occurs twice, and a constant once. -/
theorem compile_eq_codeOf_difference :
    let x := reference "x" (some .int64)
    let t := binary .sub (.scalar .int64) x (unary .sub (.scalar .int64)
      (binary .mul (.scalar .int64) (literal (.scalar (.int64 3))) x))
    let tables := Tables.ofLeaves t.leaves
    t.isCompilable = true ∧ tables.Bounded ∧ ∃ code, t.compile = .ok code ∧
      (∃ k, t.SettledOn k ∧ code = t.codeOf k) ∧
      .literal (.scalar (.int64 3)) ∈ t.leaves ∧ .reference "x" ∈ t.leaves ∧
      code.constants[(tables.constantIndex (.int64 3)).toNat]? = some (.int64 3) ∧
      code.variables[(tables.nameIndex "x").toNat]? = some "x" ∧
      code.instructions.toList = [.loadVariable 0, .unbox 0x4a, .loadConstant 0, .loadVariable 0,
        .unbox 0x4a, .binary .int64 0x2a, .negate .int64, .binary .int64 0x2d, .ret] := by
  intro x t tables
  obtain ⟨_, hcompilable, hcode⟩ := compile_eq_codeOf t
  have ht : t.isCompilable = true := rfl
  have hbounded : tables.Bounded := ⟨by decide, by decide⟩
  obtain ⟨code, hcompile⟩ := (hcompilable ht).1.2 hbounded
  obtain ⟨hread, hconstants, hnames⟩ := hcode code hcompile
  have hconstant : .literal (.scalar (.int64 3)) ∈ t.leaves := by simp [t, leaves]
  have hname : .reference "x" ∈ t.leaves := by simp [t, x, leaves]
  refine ⟨ht, hbounded, code, hcompile, hread, hconstant, hname, hconstants _ hconstant,
    hnames _ hname, ?_⟩
  obtain ⟨k, hsettled, rfl⟩ := hread
  obtain rfl : k = .int64 := hsettled.kind_eq rfl
  cbv

end Tree

end AdaptiveArith
