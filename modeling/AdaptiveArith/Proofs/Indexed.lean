import AdaptiveArith.Proofs.Tables

/-!
# Emitters that index their tables

An emitter looks entries up in its tables one after the other. It may as well keep maps
from the keys of its entries to their indices (`IndexedEmitter`), constants under their
kinds and bits and names under themselves. A map is of use only while it agrees with its
table, entry by entry (`Register.Indexed`), and it has to be left alone where a full table
refuses an entry.

`IndexedEmitter.tables_performAll` says of any sequence of calls on a new emitter that the
maps agree with the tables, so that nothing is in a table twice, indices fit into a byte
and keep their meanings, and a call does the same to an emitter without maps. A call that
fails changes nothing.
-/

namespace AdaptiveArith

deriving instance Hashable for ScalarKind

/-- No entry is in its table twice; constants are told apart by kinds and bits. -/
structure Tables.Distinct (tables : Tables) : Prop where
  constants : tables.constants.Pairwise fun p q => p.identical q = false
  «variables» : tables.variables.Nodup

/-! ### Registers -/

/-- A table, and for the keys of its entries their indices. -/
structure Register (α κ : Type) [BEq κ] [Hashable κ] where
  /-- The entries. -/
  entries : Array α
  /-- The index under which the entry with a key is found. -/
  indices : Std.HashMap κ UInt8

namespace Register

variable {α κ : Type} [BEq κ] [Hashable κ] {key : α → κ} {full : CompileError}
  {r : Register α κ} {x : α} {entered : Except CompileError UInt8 × Register α κ}

/-- The index of an entry, which is added if its key is not known; a full table takes
    no other. -/
def enter (key : α → κ) (full : CompileError) (r : Register α κ) (x : α) :
    Except CompileError UInt8 × Register α κ :=
  match r.indices[key x]? with
  | some i => (.ok i, r)
  | none =>
    if r.entries.size < Emitter.tableLimit then
      (.ok (.ofNat r.entries.size),
        ⟨r.entries.push x, r.indices.insert (key x) (.ofNat r.entries.size)⟩)
    else (.error full, r)

/-- Entering an entry ends with an index, or an error, and a register. -/
inductive Enters (key : α → κ) (full : CompileError) (r : Register α κ) (x : α) :
    Except CompileError UInt8 × Register α κ → Prop
  /-- The key is known. -/
  | found {i : UInt8} : r.indices[key x]? = some i → Enters key full r x (.ok i, r)
  /-- The entry is added at the end. -/
  | added : r.indices[key x]? = none → r.entries.size < Emitter.tableLimit →
      Enters key full r x (.ok (.ofNat r.entries.size),
        ⟨r.entries.push x, r.indices.insert (key x) (.ofNat r.entries.size)⟩)
  /-- There is no room for the entry. -/
  | refused : r.indices[key x]? = none → Emitter.tableLimit ≤ r.entries.size →
      Enters key full r x (.error full, r)

theorem enters (key : α → κ) (full : CompileError) (r : Register α κ) (x : α) :
    Enters key full r x (r.enter key full x) := by
  fun_cases enter key full r x
  case case1 i hi => exact .found hi
  case case2 hnone hlt => exact .added hnone hlt
  case case3 hnone hle => exact .refused hnone (Nat.le_of_not_lt hle)

/-- An entry that is refused leaves the register as it was. -/
theorem Enters.eq_of_error (h : r.Enters key full x entered) {e : CompileError}
    (he : entered.1 = .error e) : entered.2 = r := by
  cases h with
  | found | added => cases he
  | refused => rfl

/-- Entries stay where they are. -/
theorem Enters.keeps_entries (h : r.Enters key full x entered) :
    r.entries.toList <+: entered.2.entries.toList := by
  cases h with
  | found | refused => exact List.prefix_refl _
  | added =>
    rw [Array.toList_push]
    exact List.prefix_append _ _

/-- The index under a key is that of the entry with this key, and every index is a byte. -/
structure Indexed (key : α → κ) (r : Register α κ) : Prop where
  bounded : r.entries.size ≤ Emitter.tableLimit
  index : ∀ k i, r.indices[k]? = some i ↔ r.entries[i.toNat]?.map key = some k

namespace Indexed

/-- The index of an entry is found under its key. -/
theorem getElem?_indices (h : r.Indexed key) {n : Nat} (hn : n < r.entries.size) :
    r.indices[key r.entries[n]]? = some (.ofNat n) := by
  rw [h.index, UInt8.toNat_ofNat_of_lt' (Nat.lt_of_lt_of_le hn h.bounded),
    Array.getElem?_eq_getElem hn, Option.map_some]

/-- No two entries have one key. -/
theorem nodup (h : r.Indexed key) : (r.entries.toList.map key).Nodup := by
  rw [List.nodup_iff_injective_get]
  intro m n hmn
  have hm : m.val < r.entries.size := by simpa using m.isLt
  have hn : n.val < r.entries.size := by simpa using n.isLt
  have hkey : key r.entries[m.val] = key r.entries[n.val] := by simpa using hmn
  -- One key has one index.
  have hindex := h.getElem?_indices hm
  rw [hkey, h.getElem?_indices hn, Option.some.injEq] at hindex
  have htoNat := congrArg UInt8.toNat hindex
  rw [UInt8.toNat_ofNat_of_lt' (Nat.lt_of_lt_of_le hm h.bounded),
    UInt8.toNat_ofNat_of_lt' (Nat.lt_of_lt_of_le hn h.bounded)] at htoNat
  exact Fin.ext htoNat.symm

/-- A key without an index is that of no entry. -/
theorem getElem?_eq_none_iff (h : r.Indexed key) {k : κ} :
    r.indices[k]? = none ↔ ∀ y ∈ r.entries, key y ≠ k := by
  constructor
  · rintro hnone y hy rfl
    obtain ⟨n, hn, rfl⟩ := Array.mem_iff_getElem.1 hy
    rw [h.getElem?_indices hn] at hnone
    cases hnone
  · intro hnone
    refine Option.eq_none_iff_forall_ne_some.2 fun i hi => ?_
    obtain ⟨y, hy, hk⟩ := Option.map_eq_some_iff.1 ((h.index k i).1 hi)
    exact hnone y (Array.mem_of_getElem? hy) hk

/-- A new entry is added where there is room. -/
theorem entries_enter (h : r.Indexed key) (hx : ∀ y ∈ r.entries, key y ≠ key x)
    (hlt : r.entries.size < Emitter.tableLimit) :
    (r.enter key full x).2.entries = r.entries.push x := by
  rw [← h.getElem?_eq_none_iff] at hx
  simp [Register.enter, hx, hlt]

variable [LawfulBEq κ]

theorem empty : (⟨#[], ∅⟩ : Register α κ).Indexed key := ⟨Nat.zero_le _, fun k i => by simp⟩

/-- An entry that is added is found under its key, and the others are found as before. -/
theorem push (h : r.Indexed key) (hx : r.indices[key x]? = none)
    (hlt : r.entries.size < Emitter.tableLimit) :
    (⟨r.entries.push x, r.indices.insert (key x) (.ofNat r.entries.size)⟩ :
      Register α κ).Indexed key := by
  refine ⟨by rw [Array.size_push]; exact hlt, fun k i => ?_⟩
  rw [Std.HashMap.getElem?_insert, Array.getElem?_push]
  by_cases hi : i.toNat = r.entries.size
  · -- The index is the new one, under which nothing has been found so far.
    have hold : r.indices[k]? ≠ some i := by simp [h.index, hi]
    have hnew : UInt8.ofNat r.entries.size = i := by rw [← hi, UInt8.ofNat_toNat]
    rw [if_pos hi, hnew]
    by_cases hk : key x = k <;> simp [hk, hold]
  · have hnew : UInt8.ofNat r.entries.size ≠ i := by
      rintro rfl
      exact hi (UInt8.toNat_ofNat_of_lt' hlt)
    rw [if_neg hi, ← h.index]
    by_cases hk : key x = k
    · subst hk
      simp [hx, hnew]
    · simp [hk]

/-- The map finds what a search finds. -/
theorem getElem?_eq_findIdx? (h : r.Indexed key) (x : α) :
    r.indices[key x]? = (r.entries.findIdx? fun y => key y == key x).map .ofNat := by
  cases hfound : r.entries.findIdx? fun y => key y == key x with
  | none =>
    refine h.getElem?_eq_none_iff.2 fun y hy => ?_
    simpa using Array.findIdx?_eq_none_iff.1 hfound y hy
  | some n =>
    obtain ⟨hn, hkey, _⟩ := Array.findIdx?_eq_some_iff_getElem.1 hfound
    rw [← eq_of_beq hkey, h.getElem?_indices hn, Option.map_some]

/-- With a map or without, an entry gets the same index. -/
theorem search_eq (h : r.Indexed key) (full : CompileError) (x : α) :
    Emitter.search (fun y => key y == key x) full r.entries x =
      (r.enter key full x).1.map fun i => (i, (r.enter key full x).2.entries) := by
  rw [Emitter.search, Register.enter, h.getElem?_eq_findIdx?]
  cases r.entries.findIdx? fun y => key y == key x with
  | some i => rfl
  | none =>
    dsimp only [Option.map_none]
    split <;> rfl

end Indexed

/-! ### What entering keeps -/

variable [LawfulBEq κ]

theorem Enters.indexed (h : r.Enters key full x entered) (hr : r.Indexed key) :
    entered.2.Indexed key := by
  cases h with
  | found | refused => exact hr
  | added hnone hlt => exact hr.push hnone hlt

/-- The index of an entry points at an entry with its key. -/
theorem Enters.exists_of_ok (h : r.Enters key full x entered) (hr : r.Indexed key) {i : UInt8}
    (hi : entered.1 = .ok i) : ∃ y, entered.2.entries[i.toNat]? = some y ∧ key y = key x := by
  rw [← Option.map_eq_some_iff, ← (h.indexed hr).index]
  cases h with
  | found hfound => rw [hfound, Except.ok.inj hi]
  | added => rw [Std.HashMap.getElem?_insert_self, Except.ok.inj hi]
  | refused => cases hi

/-- An entry is refused if it is not among the entries and these are as many as can be. -/
theorem Enters.eq_error_iff (h : r.Enters key full x entered) (hr : r.Indexed key)
    {e : CompileError} :
    entered.1 = .error e ↔
      e = full ∧ r.entries.size = Emitter.tableLimit ∧ ∀ y ∈ r.entries, key y ≠ key x := by
  rw [← hr.getElem?_eq_none_iff]
  cases h with
  | found hfound => simp [hfound]
  | added hnone hlt => simp [hlt.ne]
  | refused hnone hle => simp [hnone, hr.bounded.antisymm hle, eq_comm]

end Register

/-! ### Calls -/

/-- What can be asked of an emitter. -/
inductive EmitterCall
  /-- A constant is loaded. -/
  | loadConstant (p : Scalar)
  /-- A variable is loaded. -/
  | loadVariable (name : String)
  /-- The topmost value is unboxed. -/
  | unbox (kind : ScalarKind)
  /-- The two topmost values are combined. -/
  | binary (op : Operator) (kind : ScalarKind)
  /-- The topmost value is negated. -/
  | negate (kind : ScalarKind)
  /-- The value on top is left in a form. -/
  | pushForm (form : Form)
  /-- The form of the value on top is taken. -/
  | popForm

namespace Emitter

/-- The emitter after a call, unless the call fails. -/
def perform (e : Emitter) : EmitterCall → Except CompileError Emitter
  | .loadConstant p => e.loadConstant p
  | .loadVariable name => e.loadVariable name
  | .unbox kind => .ok (e.unbox kind)
  | .binary op kind => .ok (e.binary op kind)
  | .negate kind => .ok (e.negate kind)
  | .pushForm form => .ok (e.pushForm form)
  | .popForm => .ok e.popForm

/-- The emitter after a number of calls; calls that fail leave it as it is. -/
def performAll (e : Emitter) (calls : List EmitterCall) : Emitter :=
  calls.foldl (fun e call => (e.perform call).toOption.getD e) e

end Emitter

/-- An emitter with the indices of its constants and names under their keys. -/
structure IndexedEmitter where
  /-- The emitter. -/
  emitter : Emitter := {}
  /-- The indices of the constants. -/
  constantIndices : Std.HashMap (ScalarKind × UInt64) UInt8 := ∅
  /-- The indices of the names. -/
  nameIndices : Std.HashMap String UInt8 := ∅

namespace IndexedEmitter

variable {x : IndexedEmitter} {call : EmitterCall}

/-- The constants with their indices. -/
def constants (x : IndexedEmitter) : Register Scalar (ScalarKind × UInt64) :=
  ⟨x.emitter.constants, x.constantIndices⟩

/-- The names with their indices. -/
def names (x : IndexedEmitter) : Register String String := ⟨x.emitter.variables, x.nameIndices⟩

/-- The emitter with other constants. -/
def withConstants (x : IndexedEmitter) (r : Register Scalar (ScalarKind × UInt64)) :
    IndexedEmitter :=
  { x with emitter := { x.emitter with constants := r.entries }, constantIndices := r.indices }

/-- The emitter with other names. -/
def withNames (x : IndexedEmitter) (r : Register String String) : IndexedEmitter :=
  { x with emitter := { x.emitter with «variables» := r.entries }, nameIndices := r.indices }

/-- The instruction with an index is added, if there is an index. -/
def load (instruction : UInt8 → Instruction) (index : Except CompileError UInt8)
    (x : IndexedEmitter) : Except CompileError Unit × IndexedEmitter :=
  match index with
  | .ok i => (.ok (), { x with emitter := (x.emitter.add (instruction i)).raise })
  | .error e => (.error e, x)

/-- What a call comes to, and the emitter after it. -/
def perform (x : IndexedEmitter) : EmitterCall → Except CompileError Unit × IndexedEmitter
  | .loadConstant p =>
    let entered := x.constants.enter Scalar.key .tooManyConstants p
    (x.withConstants entered.2).load .loadConstant entered.1
  | .loadVariable name =>
    let entered := x.names.enter id .tooManyVariables name
    (x.withNames entered.2).load .loadVariable entered.1
  | .unbox kind => (.ok (), { x with emitter := x.emitter.unbox kind })
  | .binary op kind => (.ok (), { x with emitter := x.emitter.binary op kind })
  | .negate kind => (.ok (), { x with emitter := x.emitter.negate kind })
  | .pushForm form => (.ok (), { x with emitter := x.emitter.pushForm form })
  | .popForm => (.ok (), { x with emitter := x.emitter.popForm })

/-- The emitter after a number of calls. -/
def performAll (x : IndexedEmitter) (calls : List EmitterCall) : IndexedEmitter :=
  calls.foldl (fun x call => (x.perform call).2) x

/-- Both maps agree with their tables. -/
structure Indexed (x : IndexedEmitter) : Prop where
  constants : x.constants.Indexed Scalar.key
  names : x.names.Indexed id

theorem indexed_new : Indexed {} := ⟨.empty, .empty⟩

/-! ### What a call keeps -/

theorem constants_load (instruction : UInt8 → Instruction) (index : Except CompileError UInt8) :
    (x.load instruction index).2.constants = x.constants := by
  cases index <;> rfl

theorem names_load (instruction : UInt8 → Instruction) (index : Except CompileError UInt8) :
    (x.load instruction index).2.names = x.names := by
  cases index <;> rfl

theorem constants_loadConstant (x : IndexedEmitter) (p : Scalar) :
    (x.perform (.loadConstant p)).2.constants =
      (x.constants.enter Scalar.key .tooManyConstants p).2 :=
  constants_load ..

theorem names_loadConstant (x : IndexedEmitter) (p : Scalar) :
    (x.perform (.loadConstant p)).2.names = x.names :=
  names_load ..

theorem constants_loadVariable (x : IndexedEmitter) (name : String) :
    (x.perform (.loadVariable name)).2.constants = x.constants :=
  constants_load ..

theorem names_loadVariable (x : IndexedEmitter) (name : String) :
    (x.perform (.loadVariable name)).2.names = (x.names.enter id .tooManyVariables name).2 :=
  names_load ..

theorem load_eq_ok {instruction : UInt8 → Instruction} {index : Except CompileError UInt8}
    (h : (x.load instruction index).1 = .ok ()) :
    ∃ i, index = .ok i ∧ (x.load instruction index).2.emitter.instructions =
      x.emitter.instructions.push (instruction i) := by
  cases index with
  | ok i => exact ⟨i, rfl, rfl⟩
  | error => cases h

theorem load_eq_error {instruction : UInt8 → Instruction} {index : Except CompileError UInt8}
    {e : CompileError} :
    (x.load instruction index).1 = .error e ↔ index = .error e := by
  cases index <;> simp [load]

/-- A call keeps the maps to their tables. -/
theorem Indexed.perform (h : x.Indexed) (call : EmitterCall) : (x.perform call).2.Indexed := by
  cases call with
  | loadConstant p =>
    refine ⟨?_, ?_⟩
    · rw [constants_loadConstant]
      exact (x.constants.enters _ _ p).indexed h.constants
    · rw [names_loadConstant]
      exact h.names
  | loadVariable name =>
    refine ⟨?_, ?_⟩
    · rw [constants_loadVariable]
      exact h.constants
    · rw [names_loadVariable]
      exact (x.names.enters _ _ name).indexed h.names
  | unbox | binary | negate | pushForm | popForm => exact ⟨h.constants, h.names⟩

theorem Indexed.performAll (h : x.Indexed) (calls : List EmitterCall) :
    (x.performAll calls).Indexed :=
  List.foldlRecOn (motive := IndexedEmitter.Indexed) calls _ h fun _ hy call _ => hy.perform call

/-- A call that fails leaves the emitter as it was. -/
theorem perform_of_error {e : CompileError} (h : (x.perform call).1 = .error e) :
    (x.perform call).2 = x := by
  cases call with
  | loadConstant | loadVariable =>
    rw [perform, load_eq_error] at h
    rw [perform, h, (Register.enters ..).eq_of_error h]
    rfl
  | unbox | binary | negate | pushForm | popForm => cases h

/-- The tables of an emitter are the entries of its registers. -/
theorem tables_emitter (x : IndexedEmitter) :
    x.emitter.tables = ⟨x.constants.entries.toList, x.names.entries.toList⟩ := rfl

/-- A call adds entries to the ends of the tables only. -/
theorem within_perform (x : IndexedEmitter) (call : EmitterCall) :
    x.emitter.tables.Within (x.perform call).2.emitter.tables := by
  cases call with
  | loadConstant p =>
    rw [tables_emitter, tables_emitter, constants_loadConstant, names_loadConstant]
    exact ⟨(x.constants.enters _ _ p).keeps_entries, List.prefix_refl _⟩
  | loadVariable name =>
    rw [tables_emitter, tables_emitter, constants_loadVariable, names_loadVariable]
    exact ⟨List.prefix_refl _, (x.names.enters _ _ name).keeps_entries⟩
  | unbox | binary | negate | pushForm | popForm => exact .refl _

theorem performAll_concat (x : IndexedEmitter) (calls : List EmitterCall) (call : EmitterCall) :
    x.performAll (calls ++ [call]) = ((x.performAll calls).perform call).2 :=
  List.foldl_concat ..

theorem within_performAll (x : IndexedEmitter) (calls : List EmitterCall) :
    x.emitter.tables.Within (x.performAll calls).emitter.tables :=
  List.foldlRecOn (motive := fun y : IndexedEmitter => x.emitter.tables.Within y.emitter.tables)
    calls _ (.refl _) fun y hy call _ => hy.trans (y.within_perform call)

/-! ### The emitter without maps -/

/-- A call does the same to the emitter without its maps. -/
theorem Indexed.perform_emitter (h : x.Indexed) (call : EmitterCall) :
    x.emitter.perform call = (x.perform call).1.map fun _ => (x.perform call).2.emitter := by
  cases call with
  | loadConstant p =>
    have hindex : x.emitter.constantIndex p = _ := h.constants.search_eq .tooManyConstants p
    rw [Emitter.perform, Emitter.loadConstant, hindex, IndexedEmitter.perform]
    cases (x.constants.enter Scalar.key .tooManyConstants p).1 <;> rfl
  | loadVariable name =>
    have hindex : x.emitter.variableIndex name = _ := h.names.search_eq .tooManyVariables name
    rw [Emitter.perform, Emitter.loadVariable, hindex, IndexedEmitter.perform]
    cases (x.names.enter id .tooManyVariables name).1 <;> rfl
  | unbox | binary | negate | pushForm | popForm => rfl

theorem Indexed.performAll_emitter (h : x.Indexed) (calls : List EmitterCall) :
    (x.performAll calls).emitter = x.emitter.performAll calls := by
  induction calls generalizing x with
  | nil => rfl
  | cons call calls ih =>
    have hcall : ((x.emitter.perform call).toOption.getD x.emitter) =
        (x.perform call).2.emitter := by
      rw [h.perform_emitter]
      cases hresult : (x.perform call).1 with
      | ok => rfl
      | error => rw [perform_of_error hresult]; rfl
    rw [IndexedEmitter.performAll, Emitter.performAll, List.foldl_cons, List.foldl_cons, hcall]
    exact ih (h.perform call)

/-! ### Sound tables -/

theorem Indexed.distinct (h : x.Indexed) : x.emitter.tables.Distinct where
  constants := (List.pairwise_map.1 h.constants.nodup).imp fun hkey => by
    rw [← Bool.not_eq_true, Scalar.identical_iff, ← Scalar.key_inj]
    exact hkey
  «variables» := (List.map_id _).subst h.names.nodup

theorem Indexed.tables_bounded (h : x.Indexed) : x.emitter.tables.Bounded :=
  ⟨h.constants.bounded, h.names.bounded⟩

/-- Loading an entry adds one instruction, with an index under which the entry is found, and
    fails if the entry is none of those of a full table. -/
structure Loads {α : Type} (x : IndexedEmitter) (call : EmitterCall)
    (instruction : UInt8 → Instruction) (table : Emitter → Array α) (same : α → Bool)
    (full : CompileError) : Prop where
  loaded : (x.perform call).1 = .ok () → ∃ i y,
    (x.perform call).2.emitter.instructions = x.emitter.instructions.push (instruction i) ∧
    (table (x.perform call).2.emitter)[i.toNat]? = some y ∧ same y = true
  refused_iff : ∀ e, (x.perform call).1 = .error e ↔
    e = full ∧ (table x.emitter).size = Emitter.tableLimit ∧ ∀ y ∈ table x.emitter, same y = false

theorem Indexed.loads_constant (h : x.Indexed) (p : Scalar) :
    x.Loads (.loadConstant p) .loadConstant Emitter.constants (·.identical p)
      .tooManyConstants where
  loaded hok := by
    obtain ⟨i, hi, hinstructions⟩ := load_eq_ok hok
    obtain ⟨y, hy, hkey⟩ := (x.constants.enters _ _ p).exists_of_ok h.constants hi
    rw [← constants_loadConstant] at hy
    exact ⟨i, y, hinstructions, hy, Scalar.identical_iff.2 (Scalar.key_inj.1 hkey)⟩
  refused_iff e := by
    rw [IndexedEmitter.perform, load_eq_error, (x.constants.enters _ _ p).eq_error_iff h.constants]
    simp only [ne_eq, Scalar.key_inj, ← Scalar.identical_iff, Bool.not_eq_true]
    rfl

theorem Indexed.loads_variable (h : x.Indexed) (name : String) :
    x.Loads (.loadVariable name) .loadVariable Emitter.variables (· == name)
      .tooManyVariables where
  loaded hok := by
    obtain ⟨i, hi, hinstructions⟩ := load_eq_ok hok
    obtain ⟨y, hy, hname⟩ := (x.names.enters _ _ name).exists_of_ok h.names hi
    rw [← names_loadVariable] at hy
    exact ⟨i, y, hinstructions, hy, beq_iff_eq.2 hname⟩
  refused_iff e := by
    rw [IndexedEmitter.perform, load_eq_error, (x.names.enters _ _ name).eq_error_iff h.names]
    simp only [id, ← beq_eq_false_iff_ne]
    rfl

/-- Names that are all different are all entered, as long as they are not too many. -/
theorem names_performAll {names : List String} (hnodup : names.Nodup)
    (hlength : names.length ≤ Emitter.tableLimit) :
    (performAll {} (names.map .loadVariable)).names.entries.toList = names := by
  -- The names are entered in turn, so the last one meets those before it.
  induction names using List.reverseRecOn with
  | nil => rfl
  | append_singleton names name ih =>
    rw [List.length_append, List.length_singleton] at hlength
    obtain ⟨hnames, _, hne⟩ := List.nodup_append.1 hnodup
    have hentries := ih hnames (by omega)
    have h := indexed_new.performAll (names.map .loadVariable)
    rw [List.map_append, List.map_singleton, performAll_concat, names_loadVariable,
      h.names.entries_enter, Array.toList_push, hentries]
    · intro y hy
      rw [← Array.mem_toList_iff, hentries] at hy
      exact hne y hy name (List.mem_singleton_self name)
    · rw [← Array.length_toList, hentries]
      exact hlength

/-- However often a new emitter is called, its maps agree with its tables, nothing is in a
    table twice or moves, and loading goes wrong only where a full table has no such entry,
    without a trace. -/
theorem tables_performAll (calls : List EmitterCall) :
    let x : IndexedEmitter := performAll {} calls
    x.emitter = Emitter.performAll {} calls ∧
    (∀ call, x.emitter.perform call =
      (x.perform call).1.map fun _ => (x.perform call).2.emitter) ∧
    x.Indexed ∧ x.emitter.tables.Distinct ∧ x.emitter.tables.Bounded ∧
    (∀ more, x.emitter.tables.Within (x.performAll more).emitter.tables) ∧
    (∀ p, x.Loads (.loadConstant p) .loadConstant Emitter.constants (·.identical p)
      .tooManyConstants) ∧
    (∀ name, x.Loads (.loadVariable name) .loadVariable Emitter.variables (· == name)
      .tooManyVariables) ∧
    ∀ call e, (x.perform call).1 = .error e → (x.perform call).2 = x := by
  intro x
  have h : x.Indexed := indexed_new.performAll calls
  exact ⟨indexed_new.performAll_emitter calls, h.perform_emitter, h, h.distinct,
    h.tables_bounded, x.within_performAll, h.loads_constant, h.loads_variable,
    fun _ _ => perform_of_error⟩

/-- After as many names as there can be, one more is refused and leaves no trace, while a
    name that is known is loaded. -/
theorem tables_performAll_full :
    let names := (List.range Emitter.tableLimit).map fun n => String.ofList (List.replicate n 'x')
    let x : IndexedEmitter := performAll {} (names.map .loadVariable)
    (x.perform (.loadVariable "y")).1 = .error .tooManyVariables ∧
      (x.perform (.loadVariable "y")).2 = x ∧ (x.perform (.loadVariable "xxx")).1 = .ok () := by
  intro names
  have hlength : names.length = Emitter.tableLimit := by rw [List.length_map, List.length_range]
  have hnodup : names.Nodup := List.nodup_range.map fun m n hmn => by
    simpa using congrArg String.length hmn
  have hother : "y" ∉ names := by
    intro hname
    obtain ⟨n, -, hn⟩ := List.mem_map.1 hname
    have hy : 'y' ∈ List.replicate n 'x' := by
      rw [← String.toList_ofList (l := List.replicate n 'x'), hn]
      decide
    exact absurd (List.eq_of_mem_replicate hy) (by decide)
  have hknown : "xxx" ∈ names := List.mem_map.2 ⟨3, List.mem_range.2 (by decide), rfl⟩
  -- Which names these are does not matter from here on.
  clear_value names
  intro x
  have hentries : x.emitter.variables.toList = names := names_performAll hnodup hlength.le
  obtain ⟨-, -, -, -, -, -, -, hloads, hkept⟩ := tables_performAll (names.map .loadVariable)
  have hrefused : (x.perform (.loadVariable "y")).1 = .error .tooManyVariables := by
    refine ((hloads "y").refused_iff _).2 ⟨rfl, ?_, fun name hname => beq_eq_false_iff_ne.2 ?_⟩
    · rw [← Array.length_toList, hentries, hlength]
    · rintro rfl
      exact hother (hentries ▸ Array.mem_toList_iff.2 hname)
  refine ⟨hrefused, hkept _ _ hrefused, ?_⟩
  cases hresult : (x.perform (.loadVariable "xxx")).1 with
  | ok => rfl
  | error e =>
    rw [← hentries, Array.mem_toList_iff] at hknown
    have hne := (((hloads "xxx").refused_iff e).1 hresult).2.2 "xxx" hknown
    rw [beq_self_eq_true] at hne
    cases hne

/-- A zero is entered once for each kind and each sign. -/
example : (({} : Emitter).performAll [.loadConstant (.float64 ⟨0⟩), .loadConstant (.int32 0),
    .loadConstant (.float64 ⟨0x8000000000000000⟩), .loadConstant (.int64 0),
    .loadConstant (.float64 ⟨0⟩)]).constants =
    #[.float64 ⟨0⟩, .int32 0, .float64 ⟨0x8000000000000000⟩, .int64 0] := by
  decide +kernel

end IndexedEmitter

end AdaptiveArith
