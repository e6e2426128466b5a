import AdaptiveArith.Proofs.Leaves
import AdaptiveArith.Proofs.Lowering

/-!
# The tables that the leaves of a tree fill

Emitting the code of a tree enters its leaves into the tables, from left to right
(`Tree.entered_emit`). A constant or a name is entered where it occurs first, so that
the tables are those of `Tables.ofLeaves`, unless one of them overflows. Then the
emission stops, and its error is that of the table that is the first to have too many
entries (`Tables.Filling`).

Constants are the same if they are of one kind and have the same bits
(`Scalar.key_inj`).
-/

namespace AdaptiveArith

namespace Leaf

/-- The constant that a leaf is in code. -/
def scalar? : Leaf → Option Scalar
  | literal value => value.scalar?
  | reference _ => none

/-- The name of the variable that a leaf is. -/
def name? : Leaf → Option String
  | literal _ => none
  | reference name => some name

end Leaf

namespace Tables

/-! ### Entries without duplicates -/

section Entries

variable {α : Type} [DecidableEq α] {xs : List α} {x : α}

theorem eraseDups_concat (xs : List α) (x : α) :
    (xs ++ [x]).eraseDups = if x ∈ xs then xs.eraseDups else xs.eraseDups ++ [x] := by
  rw [List.eraseDups_append, List.removeAll, List.filter_singleton, List.elem_eq_mem]
  by_cases h : x ∈ xs
  · simp [h]
  · simp [h, List.eraseDups_cons]

theorem nodup_eraseDups (xs : List α) : xs.eraseDups.Nodup := by
  induction xs using List.reverseRecOn with
  | nil => exact List.nodup_nil
  | append_singleton xs x ih =>
    rw [eraseDups_concat]
    split
    · exact ih
    · next hx =>
      rw [← List.concat_eq_append]
      exact ih.concat (mt List.mem_eraseDups.1 hx)

/-- The entries of a table and another one, unless it is among them already; a full
    table takes no other. -/
def addEntry (full : CompileError) (entries : List α) (x : α) : Except CompileError (List α) :=
  if x ∈ entries then .ok entries
  else if entries.length < Emitter.tableLimit then .ok (entries ++ [x])
  else .error full

/-- An entry is added to the others where it occurs first, unless this makes them too
    many. -/
theorem addEntry_eraseDups (full : CompileError) (x : α)
    (h : xs.eraseDups.length ≤ Emitter.tableLimit) :
    (addEntry full xs.eraseDups x = .ok (xs ++ [x]).eraseDups ∧
        (xs ++ [x]).eraseDups.length ≤ Emitter.tableLimit) ∨
      (addEntry full xs.eraseDups x = .error full ∧
        Emitter.tableLimit < (xs ++ [x]).eraseDups.length) := by
  rw [eraseDups_concat]
  by_cases hx : x ∈ xs
  · rw [addEntry, if_pos (List.mem_eraseDups.2 hx), if_pos hx]
    exact .inl ⟨rfl, h⟩
  · rw [addEntry, if_neg (mt List.mem_eraseDups.1 hx), if_neg hx, List.length_append,
      List.length_singleton]
    by_cases hlt : xs.eraseDups.length < Emitter.tableLimit
    · exact .inl ⟨if_pos hlt, hlt⟩
    · exact .inr ⟨if_neg hlt, by omega⟩

end Entries

/-! ### The tables of leaves -/

/-- The constants and the names among the leaves, each where it occurs first. -/
def ofLeaves (leaves : List Leaf) : Tables where
  constants := (leaves.filterMap Leaf.scalar?).eraseDups
  «variables» := (leaves.filterMap Leaf.name?).eraseDups

/-- The number of constants. -/
def constantCount (tables : Tables) : Nat := tables.constants.length

/-- The number of names. -/
def nameCount (tables : Tables) : Nat := tables.variables.length

/-- The one table overflows at some leaf, up to which the other one does not. -/
def OverflowsFirst (size other : Tables → Nat) (leaves : List Leaf) : Prop :=
  ∃ first, first <+: leaves ∧ Emitter.tableLimit < size (ofLeaves first) ∧
    other (ofLeaves first) ≤ Emitter.tableLimit

/-- The tables with the entry of a leaf. -/
def enter (tables : Tables) : Leaf → Except CompileError Tables
  | .literal (.scalar p) => (addEntry .tooManyConstants tables.constants p).map
      fun constants => { tables with constants }
  | .literal (.decimal _) | .literal (.text _) | .literal (.host _) => .ok tables
  | .reference name => (addEntry .tooManyVariables tables.variables name).map
      fun names => { tables with «variables» := names }

/-- What entering leaves into empty tables comes to. -/
inductive Filling (leaves : List Leaf) : Except CompileError Tables → Prop
  /-- All entries fit. -/
  | fits : (ofLeaves leaves).Bounded → Filling leaves (.ok (ofLeaves leaves))
  /-- The table of the constants is the first to overflow. -/
  | tooManyConstants : OverflowsFirst constantCount nameCount leaves →
      Filling leaves (.error .tooManyConstants)
  /-- The table of the names is the first to overflow. -/
  | tooManyVariables : OverflowsFirst nameCount constantCount leaves →
      Filling leaves (.error .tooManyVariables)

variable {leaves more first : List Leaf} {filled : Except CompileError Tables}
  {size other : Tables → Nat}

theorem OverflowsFirst.append (h : OverflowsFirst size other leaves) (more : List Leaf) :
    OverflowsFirst size other (leaves ++ more) := by
  obtain ⟨first, hfirst, hsize, hother⟩ := h
  exact ⟨first, hfirst.trans (List.prefix_append _ _), hsize, hother⟩

theorem ofLeaves_concat_scalar (leaves : List Leaf) (p : Scalar) :
    ofLeaves (leaves ++ [.literal (.scalar p)]) =
      { ofLeaves leaves with constants := (leaves.filterMap Leaf.scalar? ++ [p]).eraseDups } := by
  simp [ofLeaves, List.filterMap_cons, Leaf.scalar?, Leaf.name?, Value.scalar?]

/-- A literal that is no scalar makes no entry. -/
theorem ofLeaves_concat_literal {v : Value} (h : v.scalar? = none) :
    ofLeaves (leaves ++ [.literal v]) = ofLeaves leaves := by
  simp [ofLeaves, List.filterMap_cons, Leaf.scalar?, Leaf.name?, h]

theorem ofLeaves_concat_reference (leaves : List Leaf) (name : String) :
    ofLeaves (leaves ++ [.reference name]) =
      { ofLeaves leaves with
        «variables» := (leaves.filterMap Leaf.name? ++ [name]).eraseDups } := by
  simp [ofLeaves, List.filterMap_cons, Leaf.scalar?, Leaf.name?]

/-- One more leaf is entered. -/
theorem Filling.enter (h : Filling leaves filled) (leaf : Leaf) :
    Filling (leaves ++ [leaf]) (filled.bind fun tables => tables.enter leaf) := by
  cases h with
  | tooManyConstants h => exact .tooManyConstants (h.append _)
  | tooManyVariables h => exact .tooManyVariables (h.append _)
  | fits hbounded =>
    change Filling _ ((ofLeaves leaves).enter leaf)
    have hfits : (ofLeaves (leaves ++ [leaf])).Bounded → Filling (leaves ++ [leaf]) _ := .fits
    -- Only the table that the leaf goes into can overflow at it; the other one has not so far.
    cases leaf with
    | literal v =>
      cases v with
      | scalar p =>
        rw [ofLeaves_concat_scalar] at hfits
        rcases addEntry_eraseDups .tooManyConstants p hbounded.constants with
          ⟨hadd, hle⟩ | ⟨hadd, hlt⟩
        · rw [Tables.enter, ofLeaves, hadd]
          exact hfits ⟨hle, hbounded.variables⟩
        · rw [Tables.enter, ofLeaves, hadd]
          refine .tooManyConstants ⟨_, List.prefix_refl _, ?_⟩
          rw [ofLeaves_concat_scalar]
          exact ⟨hlt, hbounded.variables⟩
      | decimal _ | text _ | host _ =>
        rw [ofLeaves_concat_literal (by rfl)] at hfits
        exact hfits hbounded
    | reference name =>
      rw [ofLeaves_concat_reference] at hfits
      rcases addEntry_eraseDups .tooManyVariables name hbounded.variables with
        ⟨hadd, hle⟩ | ⟨hadd, hlt⟩
      · rw [Tables.enter, ofLeaves, hadd]
        exact hfits ⟨hbounded.constants, hle⟩
      · rw [Tables.enter, ofLeaves, hadd]
        refine .tooManyVariables ⟨_, List.prefix_refl _, ?_⟩
        rw [ofLeaves_concat_reference]
        exact ⟨hlt, hbounded.constants⟩

theorem Filling.enterAll (h : Filling leaves filled) (more : List Leaf) :
    Filling (leaves ++ more) (filled.bind fun tables => more.foldlM Tables.enter tables) := by
  -- An error that has stopped the filling stays, whatever leaves follow.
  induction more generalizing leaves filled with
  | nil =>
    rw [List.append_nil]
    cases filled <;> exact h
  | cons leaf more ih =>
    rw [List.append_cons]
    have := ih (h.enter leaf)
    cases filled <;> exact this

/-! ### One outcome -/

/-- More leaves make larger tables. -/
theorem ofLeaves_within (h : first <+: leaves) : (ofLeaves first).Within (ofLeaves leaves) := by
  obtain ⟨more, rfl⟩ := h
  constructor <;>
    · simp only [ofLeaves, List.filterMap_append, List.eraseDups_append]
      exact List.prefix_append _ _

/-- The number of entries grows with the tables. -/
def Grows (size : Tables → Nat) : Prop :=
  ∀ tables tables' : Tables, tables.Within tables' → size tables ≤ size tables'

theorem grows_constantCount : Grows constantCount := fun _ _ h => h.constants.length_le

theorem grows_nameCount : Grows nameCount := fun _ _ h => h.variables.length_le

theorem OverflowsFirst.lt (h : OverflowsFirst size other leaves) (hsize : Grows size) :
    Emitter.tableLimit < size (ofLeaves leaves) := by
  obtain ⟨first, hfirst, hlt, _⟩ := h
  exact Nat.lt_of_lt_of_le hlt (hsize _ _ (ofLeaves_within hfirst))

/-- Only one of the two tables is the first to overflow. -/
theorem OverflowsFirst.not_symm (h : OverflowsFirst size other leaves) (hsize : Grows size)
    (hother : Grows other) : ¬OverflowsFirst other size leaves := by
  obtain ⟨first, hfirst, hlt, hle⟩ := h
  rintro ⟨first', hfirst', hlt', hle'⟩
  rcases List.prefix_or_prefix_of_prefix hfirst hfirst' with hprefix | hprefix
  · have := hsize _ _ (ofLeaves_within hprefix)
    omega
  · have := hother _ _ (ofLeaves_within hprefix)
    omega

/-- Entering leaves comes to one thing. -/
theorem Filling.unique {filled' : Except CompileError Tables} (h : Filling leaves filled)
    (h' : Filling leaves filled') : filled = filled' := by
  -- A table that overflows at some leaf has too many entries in the end.
  have hconstants : OverflowsFirst constantCount nameCount leaves → ¬(ofLeaves leaves).Bounded :=
    fun hover hbounded => Nat.not_lt_of_le hbounded.constants (hover.lt grows_constantCount)
  have hnames : OverflowsFirst nameCount constantCount leaves → ¬(ofLeaves leaves).Bounded :=
    fun hover hbounded => Nat.not_lt_of_le hbounded.variables (hover.lt grows_nameCount)
  cases h with
  | fits hbounded =>
    cases h' with
    | fits => rfl
    | tooManyConstants hover => exact absurd hbounded (hconstants hover)
    | tooManyVariables hover => exact absurd hbounded (hnames hover)
  | tooManyConstants hover =>
    cases h' with
    | fits hbounded => exact absurd hbounded (hconstants hover)
    | tooManyConstants => rfl
    | tooManyVariables hover' =>
      exact absurd hover' (hover.not_symm grows_constantCount grows_nameCount)
  | tooManyVariables hover =>
    cases h' with
    | fits hbounded => exact absurd hbounded (hnames hover)
    | tooManyConstants hover' =>
      exact absurd hover' (hover.not_symm grows_nameCount grows_constantCount)
    | tooManyVariables => rfl

theorem filling_ok_iff {tables : Tables} :
    Filling leaves (.ok tables) ↔ tables = ofLeaves leaves ∧ (ofLeaves leaves).Bounded := by
  constructor
  · rintro ⟨⟩
    exact ⟨rfl, ‹_›⟩
  · rintro ⟨rfl, hbounded⟩
    exact .fits hbounded

theorem filling_tooManyConstants_iff : Filling leaves (.error .tooManyConstants) ↔
    OverflowsFirst constantCount nameCount leaves :=
  ⟨by rintro ⟨⟩; assumption, .tooManyConstants⟩

theorem filling_tooManyVariables_iff : Filling leaves (.error .tooManyVariables) ↔
    OverflowsFirst nameCount constantCount leaves :=
  ⟨by rintro ⟨⟩; assumption, .tooManyVariables⟩

end Tables

/-! ### Emission -/

namespace Emitter

/-- An emitter looks an entry up and adds it where it finds none. -/
theorem search_eq_addEntry {α : Type} [DecidableEq α] {xs : Array α} {same : α → Bool} {x : α}
    {full : CompileError} (hsame : ∀ y, same y = true ↔ y = x) :
    (search same full xs x).map (fun found => found.2.toList) =
      Tables.addEntry full xs.toList x := by
  unfold search
  cases hfound : xs.findIdx? same with
  | some i =>
    obtain ⟨hlt, hi, _⟩ := Array.findIdx?_eq_some_iff_getElem.1 hfound
    obtain rfl := (hsame _).1 hi
    rw [Tables.addEntry, if_pos (Array.getElem_mem_toList hlt)]
    rfl
  | none =>
    have hx : x ∉ xs.toList := fun hx => by
      have hne := Array.findIdx?_eq_none_iff.1 hfound x (Array.mem_toList_iff.1 hx)
      rw [(hsame x).2 rfl] at hne
      cases hne
    rw [Tables.addEntry, if_neg hx]
    dsimp only
    rw [Array.length_toList]
    split
    · rw [Except.map, Array.toList_push]
    · rfl

theorem tables_loadConstant (e : Emitter) (p : Scalar) :
    (e.loadConstant p).map tables = e.tables.enter (.literal (.scalar p)) := by
  have hindex : (e.constantIndex p).map (fun found => found.2.toList) =
      Tables.addEntry .tooManyConstants e.tables.constants p :=
    search_eq_addEntry fun q => by rw [beq_iff_eq, Scalar.key_inj]
  rw [loadConstant, Tables.enter, ← hindex]
  cases e.constantIndex p <;> rfl

theorem tables_loadVariable (e : Emitter) (name : String) :
    (e.loadVariable name).map tables = e.tables.enter (.reference name) := by
  have hindex : (e.variableIndex name).map (fun found => found.2.toList) =
      Tables.addEntry .tooManyVariables e.tables.variables name :=
    search_eq_addEntry fun _ => beq_iff_eq
  rw [loadVariable, Tables.enter, ← hindex]
  cases e.variableIndex name <;> rfl

end Emitter

namespace Emission

variable {emission : Emission} {next : Emitter → Emission}

/-- The tables after an emission, or the error that has stopped it. -/
def entered (emission : Emission) : Except CompileError Tables :=
  match emission.error? with
  | some e => .error e
  | none => .ok emission.emitter.tables

theorem entered_andThen {f : Tables → Except CompileError Tables}
    (h : ∀ e, (next e).entered = f e.tables) :
    (emission.andThen next).entered = emission.entered.bind f := by
  cases herror : emission.error? with
  | none =>
    rw [andThen_of_error?_eq_none herror, h, entered, herror]
    rfl
  | some e =>
    rw [andThen, herror, entered, herror]
    rfl

/-- Taking a value as an operand enters nothing. -/
theorem entered_asOperand (emission : Emission) (k : ScalarKind) :
    (emission.asOperand k).entered = emission.entered := by
  rw [asOperand, entered_andThen (f := .ok)]
  · cases emission.entered <;> rfl
  · intro e
    dsimp only
    split <;> rfl

end Emission

/-- Emitting the code of a tree enters its leaves, from left to right. -/
theorem Tree.entered_emit {t : Tree} {k : ScalarKind} (ht : t.SettledOn k) (e : Emitter) :
    (t.emit e).entered = t.leaves.foldlM Tables.enter e.tables := by
  -- Of the instructions, only those of the leaves enter anything; the others are emitted
  -- between them and leave the tables alone.
  induction ht generalizing e with
  | @literal p _ =>
    rw [leaves, List.foldlM_cons, ← Emitter.tables_loadConstant, emit, Value.scalar?]
    dsimp only
    cases e.loadConstant p <;> rfl
  | @reference name =>
    rw [leaves, List.foldlM_cons, ← Emitter.tables_loadVariable, emit]
    cases e.loadVariable name <;> rfl
  | @unary op operand hop hoperand ih =>
    rw [emit_unary hoperand hop, Emission.entered_andThen (f := .ok), Emission.entered_asOperand,
      ih, leaves]
    · cases operand.leaves.foldlM Tables.enter e.tables <;> rfl
    · intro e
      split <;> rfl
  | @binary op left right hleft hright ihl ihr =>
    rw [emit_binary hleft hright, leaves, List.foldlM_append, ← ihl e,
      Emission.entered_andThen (f := fun tables => right.leaves.foldlM Tables.enter tables),
      Emission.entered_asOperand]
    · rfl
    · intro e
      rw [Emission.entered_andThen (f := .ok), Emission.entered_asOperand, ihr e]
      · cases right.leaves.foldlM Tables.enter e.tables <;> rfl
      · exact fun _ => rfl

/-- Compiling a tree enters its leaves into empty tables. -/
theorem Tree.filling_compile {t : Tree} (h : t.isCompilable = true) :
    Tables.Filling t.leaves (t.compile.map Code.tables) := by
  obtain ⟨k, hk⟩ := isCompilable_iff.1 h
  have hentered : t.compile.map Code.tables = (t.emit {}).entered := by
    rw [compile, if_pos h, Emission.entered]
    dsimp only
    cases (t.emit {}).error? <;> rfl
  rw [hentered, entered_emit hk]
  have hempty : Tables.Filling [] (.ok ({} : Emitter).tables) :=
    .fits Emitter.tables_bounded_empty
  exact hempty.enterAll t.leaves

end AdaptiveArith
