import AdaptiveArith.Code.Emitter
import Mathlib

/-!
# The tables of emitted code

An instruction names a constant or a variable by an index into a table, one byte.
While code is emitted, tables only grow at their ends (`Tables.Within`), so that an
index keeps its meaning, and they never outgrow the bytes (`Tables.Bounded`).

Constants are found again by their keys. A key determines its scalar
(`Scalar.key_inj`), so an index stands for the very constant it was given out for
(`Emitter.loadConstant_eq_ok`), as it does for a name (`Emitter.loadVariable_eq_ok`).
-/

namespace AdaptiveArith

/-- Scalars of one kind with the same bits are the same. -/
theorem Scalar.key_inj {p q : Scalar} : p.key = q.key ↔ p = q := by
  constructor
  · intro h
    -- Keys of different kinds differ, which leaves the four kinds themselves.
    cases p <;> cases q <;>
      simp only [key, Prod.mk.injEq, reduceCtorEq, false_and, true_and, UInt32.toUInt64_inj] at h
    · exact congrArg (fun word => int32 word.toInt32) h
    · exact congrArg (fun word => int64 word.toInt64) h
    · exact congrArg (fun bits => float32 ⟨bits⟩) h
    · exact congrArg (fun bits => float64 ⟨bits⟩) h
  · intro h
    rw [h]

/-- A scalar is identical to itself only. -/
theorem Scalar.identical_iff {p q : Scalar} : p.identical q = true ↔ p = q := by
  -- The words of floats are compared, and a word determines its float.
  rcases p with _ | _ | ⟨⟨_⟩⟩ | ⟨⟨_⟩⟩ <;> rcases q with _ | _ | ⟨⟨_⟩⟩ | ⟨⟨_⟩⟩ <;> simp [identical]

/-- The tables that the indices of instructions point into. -/
structure Tables where
  /-- The constants. -/
  constants : List Scalar
  /-- The names of the variables. -/
  «variables» : List String

/-- The tables of a code. -/
def Code.tables (code : Code) : Tables := ⟨code.constants.toList, code.variables.toList⟩

/-- The tables of code in the making. -/
def Emitter.tables (e : Emitter) : Tables := ⟨e.constants.toList, e.variables.toList⟩

namespace Tables

variable {tables tables' tables'' : Tables}

/-- The second tables are the first ones with more entries at their ends. -/
structure Within (tables tables' : Tables) : Prop where
  constants : tables.constants <+: tables'.constants
  «variables» : tables.variables <+: tables'.variables

theorem Within.refl (tables : Tables) : tables.Within tables :=
  ⟨List.prefix_refl _, List.prefix_refl _⟩

theorem Within.trans (h : tables.Within tables') (h' : tables'.Within tables'') :
    tables.Within tables'' :=
  ⟨h.constants.trans h'.constants, h.variables.trans h'.variables⟩

/-- An index keeps its meaning while entries are added. -/
theorem getElem?_of_prefix {α : Type} {xs ys : List α} {i : Nat} {x : α} (h : xs <+: ys)
    (hx : xs[i]? = some x) : ys[i]? = some x := by
  obtain ⟨hi, rfl⟩ := List.getElem?_eq_some_iff.1 hx
  exact List.prefix_iff_getElem?.1 h i hi

/-- The index of every entry is a byte. -/
structure Bounded (tables : Tables) : Prop where
  constants : tables.constants.length ≤ Emitter.tableLimit
  «variables» : tables.variables.length ≤ Emitter.tableLimit

end Tables

namespace Emitter

variable {e e' : Emitter}

theorem tables_bounded_empty : ({} : Emitter).tables.Bounded := ⟨Nat.zero_le _, Nat.zero_le _⟩

/-- The index of an entry, which is the first that is the same or added at the end, and
    the table with it. -/
def search {α : Type} (same : α → Bool) (full : CompileError) (xs : Array α) (x : α) :
    Except CompileError (UInt8 × Array α) :=
  match xs.findIdx? same with
  | some i => .ok (.ofNat i, xs)
  | none => if xs.size < tableLimit then .ok (.ofNat xs.size, xs.push x) else .error full

/-- What is searched for is in the table, at its index. -/
theorem search_spec {α : Type} {xs ys : Array α} {same : α → Bool} {x : α} {i : UInt8}
    {full : CompileError} (hsame : ∀ y, same y = true → y = x)
    (hsize : xs.toList.length ≤ tableLimit) (h : search same full xs x = .ok (i, ys)) :
    xs.toList <+: ys.toList ∧ ys.toList.length ≤ tableLimit ∧ ys.toList[i.toNat]? = some x := by
  unfold search at h
  split at h
  next found hfound =>
    obtain ⟨hlt, hy, _⟩ := Array.findIdx?_eq_some_iff_getElem.1 hfound
    obtain ⟨rfl, rfl⟩ := Prod.mk.inj (Except.ok.inj h)
    refine ⟨List.prefix_refl _, hsize, ?_⟩
    -- The byte does not cut the index off, as the table has no more entries than bytes.
    rw [UInt8.toNat_ofNat_of_lt' (Nat.lt_of_lt_of_le hlt hsize), Array.getElem?_toList,
      Array.getElem?_eq_getElem hlt, hsame _ hy]
  next =>
    split at h
    next hlt =>
      obtain ⟨rfl, rfl⟩ := Prod.mk.inj (Except.ok.inj h)
      rw [Array.toList_push]
      refine ⟨List.prefix_append _ _, ?_, ?_⟩
      · rw [List.length_append, Array.length_toList]
        exact hlt
      · rw [UInt8.toNat_ofNat_of_lt' hlt, ← Array.length_toList, List.getElem?_concat_length]
    next => cases h

/-- A constant is loaded by the index that stands for it from then on. -/
theorem loadConstant_eq_ok {p : Scalar} (he : e.tables.Bounded) (h : e.loadConstant p = .ok e') :
    e.tables.Within e'.tables ∧ e'.tables.Bounded ∧ ∃ i : UInt8,
      e'.tables.constants[i.toNat]? = some p ∧
      e' = (({ e with constants := e'.constants } : Emitter).add (.loadConstant i)).raise := by
  unfold loadConstant at h
  cases hindex : e.constantIndex p with
  | error _ => rw [hindex] at h; cases h
  | ok found =>
    obtain ⟨i, constants⟩ := found
    rw [hindex] at h
    obtain rfl := Except.ok.inj h
    obtain ⟨hpre, hsize, hget⟩ := search_spec
      (fun q hq => Scalar.key_inj.1 (eq_of_beq hq)) he.constants hindex
    exact ⟨⟨hpre, List.prefix_refl _⟩, ⟨hsize, he.variables⟩, i, hget, rfl⟩

/-- A variable is loaded by the index that stands for its name from then on. -/
theorem loadVariable_eq_ok {name : String} (he : e.tables.Bounded)
    (h : e.loadVariable name = .ok e') :
    e.tables.Within e'.tables ∧ e'.tables.Bounded ∧ ∃ i : UInt8,
      e'.tables.variables[i.toNat]? = some name ∧
      e' = (({ e with «variables» := e'.variables } : Emitter).add (.loadVariable i)).raise := by
  unfold loadVariable at h
  cases hindex : e.variableIndex name with
  | error _ => rw [hindex] at h; cases h
  | ok found =>
    obtain ⟨i, names⟩ := found
    rw [hindex] at h
    obtain rfl := Except.ok.inj h
    obtain ⟨hpre, hsize, hget⟩ := search_spec (fun _ hother => eq_of_beq hother) he.variables hindex
    exact ⟨⟨List.prefix_refl _, hpre⟩, ⟨he.constants, hsize⟩, i, hget, rfl⟩

end Emitter

end AdaptiveArith
