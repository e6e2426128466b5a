import AdaptiveArith.Proofs.Filling
import AdaptiveArith.Proofs.Indexed

/-!
# Room in the tables

What an emitter has been called for before decides which leaves it still has room for
(`Tables.HasRoomFor`). Its tables have no duplicates and are not too long
(`Emitter.tables_performAll_sound`), and any such tables are those of some emitter
(`Emitter.exists_tables_performAll`). Entering leaves goes on as if the entries had been the
first of them (`Tables.filling_entries_append`), so that what is known of empty tables holds of
these as well.
-/

namespace AdaptiveArith

/-! ### Entries and leaves -/

namespace Tables

variable {tables : Tables} {leaves first : List Leaf}

/-- The entries of the tables as leaves. -/
def entries (tables : Tables) : List Leaf :=
  tables.constants.map (fun p => .literal (.scalar p)) ++ tables.variables.map .reference

/-- Both tables have room for the leaves, apart from those that are entries already. -/
structure HasRoomFor (tables : Tables) (leaves : List Leaf) : Prop where
  constants : (tables.constants ++ leaves.filterMap Leaf.scalar?).eraseDups.length ≤
    Emitter.tableLimit
  «variables» : (tables.variables ++ leaves.filterMap Leaf.name?).eraseDups.length ≤
    Emitter.tableLimit

theorem ofLeaves_entries_append (tables : Tables) (leaves : List Leaf) :
    ofLeaves (tables.entries ++ leaves) =
      ⟨(tables.constants ++ leaves.filterMap Leaf.scalar?).eraseDups,
        (tables.variables ++ leaves.filterMap Leaf.name?).eraseDups⟩ := by
  simp [ofLeaves, entries, Function.comp_def, Leaf.scalar?, Leaf.name?, Value.scalar?]

theorem hasRoomFor_iff :
    tables.HasRoomFor leaves ↔ (ofLeaves (tables.entries ++ leaves)).Bounded := by
  rw [ofLeaves_entries_append]
  exact ⟨fun h => ⟨h.constants, h.variables⟩, fun h => ⟨h.constants, h.variables⟩⟩

theorem eraseDups_eq_of_nodup {α : Type} [DecidableEq α] {xs : List α} (h : xs.Nodup) :
    xs.eraseDups = xs := by
  induction xs using List.reverseRecOn with
  | nil => rfl
  | append_singleton xs x ih =>
    rw [← List.concat_eq_append, List.nodup_concat] at h
    rw [eraseDups_concat, if_neg h.1, ih h.2]

theorem Distinct.nodup_constants (h : tables.Distinct) : tables.constants.Nodup :=
  h.constants.imp fun hne heq => by
    rw [Scalar.identical_iff.2 heq] at hne
    cases hne

/-- Tables without duplicates are those of their entries. -/
theorem ofLeaves_entries (h : tables.Distinct) : ofLeaves tables.entries = tables := by
  have hentries := ofLeaves_entries_append tables []
  simp only [List.filterMap_nil, List.append_nil, eraseDups_eq_of_nodup h.nodup_constants,
    eraseDups_eq_of_nodup h.variables] at hentries
  exact hentries

/-- Entering leaves into tables without duplicates goes on where their entries end. -/
theorem filling_entries_append (hdistinct : tables.Distinct) (hbounded : tables.Bounded)
    (leaves : List Leaf) :
    Filling (tables.entries ++ leaves) (leaves.foldlM Tables.enter tables) := by
  have hentries := ofLeaves_entries hdistinct
  have hfits : Filling tables.entries (.ok tables) :=
    filling_ok_iff.2 ⟨hentries.symm, by rwa [hentries]⟩
  exact hfits.enterAll leaves

/-- What has room for leaves has room for the first of them. -/
theorem HasRoomFor.mono (h : tables.HasRoomFor leaves) (hfirst : first <+: leaves) :
    tables.HasRoomFor first := by
  rw [hasRoomFor_iff] at h ⊢
  have hwithin := ofLeaves_within ((List.prefix_append_right_inj tables.entries).2 hfirst)
  exact ⟨hwithin.constants.length_le.trans h.constants,
    hwithin.variables.length_le.trans h.variables⟩

end Tables

/-! ### Tables of emitters -/

theorem IndexedEmitter.emitter_performAll_new (calls : List EmitterCall) :
    (performAll {} calls).emitter = Emitter.performAll {} calls :=
  indexed_new.performAll_emitter calls

/-- However often a new emitter is called, nothing is in its tables twice, and they do not
    outgrow the bytes. -/
theorem Emitter.tables_performAll_sound (calls : List EmitterCall) :
    (performAll {} calls).tables.Distinct ∧ (performAll {} calls).tables.Bounded := by
  have h := IndexedEmitter.indexed_new.performAll calls
  rw [← IndexedEmitter.emitter_performAll_new]
  exact ⟨h.distinct, h.tables_bounded⟩

/-- Further calls add entries to the ends of the tables only. -/
theorem Emitter.within_performAll_append (calls more : List EmitterCall) :
    (performAll {} calls).tables.Within (performAll {} (calls ++ more)).tables := by
  have hwithin := (IndexedEmitter.performAll {} calls).within_performAll more
  have happend : (IndexedEmitter.performAll {} calls).performAll more =
      IndexedEmitter.performAll {} (calls ++ more) := List.foldl_append.symm
  rwa [happend, IndexedEmitter.emitter_performAll_new,
    IndexedEmitter.emitter_performAll_new] at hwithin

/-- What has to be asked of an emitter to enter a leaf into its tables. -/
def Leaf.loads : Leaf → List EmitterCall
  | literal value => (value.scalar?.map EmitterCall.loadConstant).toList
  | reference name => [.loadVariable name]

namespace Emitter

variable {e : Emitter} {tables : Tables}

/-- A call that loads an entry enters it. -/
theorem tables_performAll_singleton {call : EmitterCall} {loaded : Except CompileError Tables}
    (hcall : (e.perform call).map Emitter.tables = loaded) (h : loaded = .ok tables) :
    (e.performAll [call]).tables = tables := by
  rw [h] at hcall
  obtain ⟨e', he', rfl⟩ := exists_of_map_eq_ok hcall
  rw [performAll, List.foldl_cons, List.foldl_nil, he']
  rfl

theorem tables_performAll_load {leaf : Leaf} (h : e.tables.enter leaf = .ok tables) :
    (e.performAll leaf.loads).tables = tables := by
  cases leaf with
  | literal v =>
    cases v with
    | scalar p => exact tables_performAll_singleton (e.tables_loadConstant p) h
    | decimal | text | host => exact Except.ok.inj h
  | reference name => exact tables_performAll_singleton (e.tables_loadVariable name) h

/-- Loading leaves enters them, unless a table overflows. -/
theorem tables_performAll_loads {leaves : List Leaf}
    (h : leaves.foldlM Tables.enter e.tables = .ok tables) :
    (e.performAll (leaves.flatMap Leaf.loads)).tables = tables := by
  induction leaves generalizing e with
  | nil => exact Except.ok.inj h
  | cons leaf leaves ih =>
    rw [List.foldlM_cons] at h
    obtain ⟨entered, hentered, hrest⟩ := exists_of_bind_eq_ok h
    rw [List.flatMap_cons, performAll, List.foldl_append]
    exact ih (by rw [← hrest, ← tables_performAll_load hentered, performAll])

/-- Any tables without duplicates are those of some emitter, if they are small enough. -/
theorem exists_tables_performAll (hdistinct : tables.Distinct) (hbounded : tables.Bounded) :
    ∃ calls, (performAll {} calls).tables = tables := by
  refine ⟨tables.entries.flatMap Leaf.loads, tables_performAll_loads ?_⟩
  have hentries := Tables.ofLeaves_entries hdistinct
  have hempty : Tables.Filling [] (.ok ({} : Emitter).tables) := .fits tables_bounded_empty
  exact (hempty.enterAll tables.entries).unique
    (Tables.filling_ok_iff.2 ⟨hentries.symm, by rwa [List.nil_append, hentries]⟩)

end Emitter

/-! ### Full tables -/

namespace Tables

variable {tables : Tables}

/-- One more constant overflows a full table. -/
theorem overflowsFirst_constant (hdistinct : tables.Distinct) (hbounded : tables.Bounded)
    (hfull : tables.constants.length = Emitter.tableLimit) {p : Scalar}
    (hp : p ∉ tables.constants) :
    OverflowsFirst constantCount nameCount (tables.entries ++ [.literal (.scalar p)]) := by
  refine ⟨_, List.prefix_refl _, ?_, ?_⟩ <;> rw [ofLeaves_entries_append]
  · change _ < (tables.constants ++ [p]).eraseDups.length
    rw [eraseDups_concat, if_neg hp, eraseDups_eq_of_nodup hdistinct.nodup_constants,
      List.length_append, hfull]
    exact Nat.lt_succ_self _
  · change (tables.variables ++ []).eraseDups.length ≤ _
    rw [List.append_nil, eraseDups_eq_of_nodup hdistinct.variables]
    exact hbounded.variables

/-- One more name overflows a full table. -/
theorem overflowsFirst_name (hdistinct : tables.Distinct) (hbounded : tables.Bounded)
    (hfull : tables.variables.length = Emitter.tableLimit) {name : String}
    (hname : name ∉ tables.variables) :
    OverflowsFirst nameCount constantCount (tables.entries ++ [.reference name]) := by
  refine ⟨_, List.prefix_refl _, ?_, ?_⟩ <;> rw [ofLeaves_entries_append]
  · change _ < (tables.variables ++ [name]).eraseDups.length
    rw [eraseDups_concat, if_neg hname, eraseDups_eq_of_nodup hdistinct.variables,
      List.length_append, hfull]
    exact Nat.lt_succ_self _
  · change (tables.constants ++ []).eraseDups.length ≤ _
    rw [List.append_nil, eraseDups_eq_of_nodup hdistinct.nodup_constants]
    exact hbounded.constants

/-- As many constants and names as there can be. -/
def full : Tables where
  constants := (List.range Emitter.tableLimit).map fun n => .int32 (.ofNat n)
  «variables» := (List.range Emitter.tableLimit).map fun n => String.ofList (List.replicate n 'x')

theorem distinct_full : full.Distinct := by
  refine ⟨?_, List.nodup_range.map fun m n hmn => by simpa using congrArg String.length hmn⟩
  refine List.pairwise_map.2 (List.nodup_range.imp_of_mem fun {m n} hm hn hne => ?_)
  have hfits : ∀ n ∈ List.range Emitter.tableLimit, (Int32.ofNat n).toInt = n := fun n hn =>
    Int32.toInt_ofNat_of_lt ((List.mem_range.1 hn).trans (by decide))
  rw [← Bool.not_eq_true, Scalar.identical_iff]
  intro heq
  have hint := congrArg Int32.toInt (Scalar.int32.inj heq)
  rw [hfits m hm, hfits n hn] at hint
  exact hne (Int.ofNat.inj hint)

theorem bounded_full : full.Bounded := ⟨by simp [full], by simp [full]⟩

theorem tooManyConstants_full :
    Filling (full.entries ++ [.literal (.scalar (.int64 0))]) (.error .tooManyConstants) := by
  refine .tooManyConstants (overflowsFirst_constant distinct_full bounded_full (by simp [full]) ?_)
  simp [full]

theorem tooManyVariables_full :
    Filling (full.entries ++ [.reference "y"]) (.error .tooManyVariables) := by
  refine .tooManyVariables (overflowsFirst_name distinct_full bounded_full (by simp [full]) ?_)
  intro hname
  obtain ⟨n, -, hn⟩ := List.mem_map.1 hname
  have hy : 'y' ∈ List.replicate n 'x' := by
    rw [← String.toList_ofList (l := List.replicate n 'x'), hn]
    decide
  exact absurd (List.eq_of_mem_replicate hy) (by decide)

end Tables

end AdaptiveArith
