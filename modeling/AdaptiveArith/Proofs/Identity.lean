import AdaptiveArith.Proofs.Room
import AdaptiveArith.Proofs.SameNumber

/-!
# Identity of values

Values are the same in two senses. They are identical if they cannot be told apart, which means
that they have one key (`Value.identical_iff`), and equal if they are of one kind and amount to
the same (`Value.numEq_iff`). So identity is an equivalence, and equality falls short of one only
in that some values amount to nothing: the floats that are no numbers equal nothing, not even
themselves. With this exception identical values are equal (`Value.numEq_of_identical`).

The constants of compiled code are entered under the keys of scalars. A constant therefore gets
the index of another one exactly if the two are identical (`Emitter.givesIndex_iff`).
-/

namespace AdaptiveArith

/-! ### What values are told apart by -/

/-- What a value is told apart by: all of its data, except that an object of the host is the same
    whatever it holds. -/
inductive Value.Key
  | scalar (key : ScalarKind × UInt64)
  | decimal (unscaled : Int) (scale : Int64)
  | text (s : String)
  | host (identity : Nat)

/-- The key of a value. -/
def Value.key : Value → Key
  | scalar p => .scalar p.key
  | decimal d => .decimal d.unscaled d.scale
  | text s => .text s
  | host object => .host object.identity

theorem Scalar.identical_iff_key_eq {p q : Scalar} : p.identical q = true ↔ p.key = q.key :=
  identical_iff.trans key_inj.symm

/-- Decimals are identical exactly if they agree in their digits and their scales. -/
theorem Value.identical_decimal_iff {d r : Decimal} :
    (decimal d).identical (decimal r) = true ↔ d.unscaled = r.unscaled ∧ d.scale = r.scale := by
  rw [identical, Bool.and_eq_true, Decimal.numEq_iff, beq_iff_eq]
  constructor
  · rintro ⟨hnumber, hscale⟩
    exact ⟨Decimal.unscaled_eq_of_toRat_eq hscale hnumber, hscale⟩
  · rintro ⟨hdigits, hscale⟩
    exact ⟨by rw [Decimal.toRat, Decimal.toRat, hdigits, hscale], hscale⟩

/-- Values are identical exactly if they have one key. -/
theorem Value.identical_iff {v w : Value} : v.identical w = true ↔ v.key = w.key := by
  cases v with
  | scalar p => cases w <;> simp [identical, key, Scalar.identical_iff_key_eq]
  | decimal d =>
    cases w with
    | decimal r => rw [identical_decimal_iff, key, key, Key.decimal.injEq]
    | scalar | text | host => simp [identical, key]
  | text s => cases w <;> simp [identical, key]
  | host object => cases w <;> simp [identical, key, HostValue.same]

theorem Value.equivalence_identical : Equivalence fun v w : Value => v.identical w = true where
  refl _ := identical_iff.2 rfl
  symm h := identical_iff.2 (identical_iff.1 h).symm
  trans h h' := identical_iff.2 ((identical_iff.1 h).trans (identical_iff.1 h'))

/-! ### What values amount to -/

/-- The number of a scalar, which floats that are no numbers do not have. -/
def Scalar.amount? : Scalar → Option (ℚ ⊕ Bool)
  | int32 n => some (.inl n.toInt)
  | int64 n => some (.inl n.toInt)
  | float32 x => x.datum.amount?
  | float64 x => x.datum.amount?

/-- What a value amounts to, among the values of its kind. -/
inductive Value.Amount
  | scalar (kind : ScalarKind) (number : ℚ ⊕ Bool)
  | decimal (number : ℚ)
  | text (s : String)
  | host (identity : Nat)

/-- What a value amounts to; floats that are no numbers amount to nothing. -/
def Value.amount? : Value → Option Amount
  | scalar p => p.amount?.map (.scalar p.kind)
  | decimal d => some (.decimal d.toRat)
  | text s => some (.text s)
  | host object => some (.host object.identity)

/-- Scalars are equal exactly if they are one number of one kind. -/
theorem Scalar.numEq_iff {p q : Scalar} : p.numEq q = true ↔
    p.kind = q.kind ∧ ∃ z, p.amount? = some z ∧ q.amount? = some z := by
  cases p with
  | int32 n => cases q <;> simp [numEq, kind, amount?, Int32.toInt_inj, @eq_comm _ n]
  | int64 n => cases q <;> simp [numEq, kind, amount?, Int64.toInt_inj, @eq_comm _ n]
  | float32 x => cases q <;> simp [numEq, kind, amount?, Binary32.numEq_iff]
  | float64 x => cases q <;> simp [numEq, kind, amount?, Binary64.numEq_iff]

namespace Value

variable {u v w : Value}

/-- Values are equal exactly if they amount to the same. -/
theorem numEq_iff : v.numEq w = true ↔ ∃ a, v.amount? = some a ∧ w.amount? = some a := by
  cases v with
  | scalar p =>
    cases w with
    | scalar q =>
      rw [numEq, Scalar.numEq_iff, amount?, amount?]
      constructor
      · rintro ⟨hkind, z, hp, hq⟩
        exact ⟨.scalar p.kind z, by rw [hp]; rfl, by rw [hq, hkind]; rfl⟩
      · rintro ⟨a, hp, hq⟩
        obtain ⟨z, hz, rfl⟩ := Option.map_eq_some_iff.1 hp
        obtain ⟨z', hz', ha⟩ := Option.map_eq_some_iff.1 hq
        obtain ⟨hkind, rfl⟩ := Amount.scalar.inj ha
        exact ⟨hkind.symm, z', hz, hz'⟩
    | decimal | text | host => simp [numEq, amount?]
  | decimal d => cases w <;> simp [numEq, amount?, Decimal.numEq_iff, @eq_comm _ d.toRat]
  | text s => cases w <;> simp [numEq, amount?, @eq_comm _ s]
  | host object => cases w <;> simp [numEq, amount?, HostValue.same, @eq_comm _ object.identity]

theorem numEq_comm (v w : Value) : v.numEq w = w.numEq v := by
  rw [Bool.eq_iff_iff, numEq_iff, numEq_iff]
  simp only [and_comm]

theorem numEq_trans (h : u.numEq v = true) (h' : v.numEq w = true) : u.numEq w = true := by
  rw [numEq_iff] at h h' ⊢
  obtain ⟨a, hu, hv⟩ := h
  obtain ⟨b, hv', hw⟩ := h'
  rw [hv] at hv'
  exact ⟨a, hu, by rw [hw, hv']⟩

end Value

/-! ### Floats that are no numbers -/

/-- The scalar is a float that is no number. -/
def Scalar.isNaN : Scalar → Bool
  | int32 _ | int64 _ => false
  | float32 x => x.isNaN
  | float64 x => x.isNaN

/-- The value is a float that is no number. -/
def Value.isNaN : Value → Bool
  | scalar p => p.isNaN
  | decimal _ | text _ | host _ => false

theorem Scalar.amount?_eq_none_iff {p : Scalar} : p.amount? = none ↔ p.isNaN = true := by
  cases p with
  | int32 | int64 => simp [amount?, isNaN]
  | float32 x => rw [amount?, BinaryDatum.amount?_eq_none_iff, isNaN, Binary32.isNaN, beq_iff_eq]
  | float64 x => rw [amount?, BinaryDatum.amount?_eq_none_iff, isNaN, Binary64.isNaN, beq_iff_eq]

namespace Value

variable {v w : Value}

theorem amount?_eq_none_iff : v.amount? = none ↔ v.isNaN = true := by
  cases v with
  | scalar p => rw [amount?, Option.map_eq_none_iff, Scalar.amount?_eq_none_iff, isNaN]
  | decimal | text | host => simp [amount?, isNaN]

/-- All values but the floats that are no numbers equal themselves. -/
theorem numEq_self (v : Value) : v.numEq v = !v.isNaN := by
  rw [Bool.eq_iff_iff, numEq_iff, Bool.not_eq_true', ← Bool.not_eq_true, ← amount?_eq_none_iff,
    ← Ne, Option.ne_none_iff_exists']
  simp only [and_self]

/-- Identical values are equal, unless they are floats that are no numbers. -/
theorem numEq_of_identical (h : v.identical w = true) : v.numEq w = !v.isNaN := by
  fun_cases v.identical w
  case case1 p q =>
    obtain rfl := Scalar.identical_iff.1 h
    exact numEq_self (scalar p)
  case case2 d r =>
    rw [identical, Bool.and_eq_true] at h
    exact h.1
  case case3 => exact h
  case case4 => exact h
  case case5 => simp_all [identical]

end Value

/-! ### Identical constants -/

namespace Emitter

variable {calls before between : List EmitterCall} {p q : Scalar} {i : UInt8}

/-- The constant gets the index, be it that of an entry or of a new one. -/
def GivesIndex (e : Emitter) (p : Scalar) (i : UInt8) : Prop :=
  ∃ constants, e.constantIndex p = .ok (i, constants)

/-- A constant that has been loaded is found under the index it got. -/
theorem getElem?_of_givesIndex (h : (performAll {} calls).GivesIndex p i) :
    (performAll {} (calls ++ [.loadConstant p])).tables.constants[i.toNat]? = some p := by
  obtain ⟨constants, hindex⟩ := h
  have hload :
      (performAll {} (calls ++ [.loadConstant p])).tables.constants = constants.toList := by
    rw [performAll, List.foldl_concat, ← performAll, perform, loadConstant, hindex]
    rfl
  have hbounded := (tables_performAll_sound calls).2.constants
  rw [hload]
  exact (search_spec (fun q hq => Scalar.key_inj.1 (eq_of_beq hq)) hbounded hindex).2.2

/-- An entry is given the index at which it stands. -/
theorem givesIndex_of_getElem? (h : (performAll {} calls).tables.constants[i.toNat]? = some p) :
    (performAll {} calls).GivesIndex p i := by
  have hnodup := (tables_performAll_sound calls).1.nodup_constants
  generalize performAll {} calls = e at h hnodup
  have hmem : p ∈ e.constants := Array.mem_toList_iff.1 (List.mem_of_getElem? h)
  cases hfound : e.constants.findIdx? fun q => q.key == p.key with
  | none =>
    have hother := Array.findIdx?_eq_none_iff.1 hfound p hmem
    rw [beq_self_eq_true] at hother
    cases hother
  | some n =>
    obtain ⟨hn, hkey, _⟩ := Array.findIdx?_eq_some_iff_getElem.1 hfound
    have hentry : e.tables.constants[n]? = some p := by
      rw [tables, Array.getElem?_toList, Array.getElem?_eq_getElem hn,
        Scalar.key_inj.1 (eq_of_beq hkey)]
    obtain rfl := (List.getElem?_inj hn hnodup).1 (hentry.trans h.symm)
    refine ⟨e.constants, ?_⟩
    rw [constantIndex, hfound]
    dsimp only
    rw [UInt8.ofNat_toNat]

/-- Once a constant has been loaded, its index is given to those that are identical to it. -/
theorem givesIndex_iff (h : (performAll {} before).GivesIndex p i) :
    (performAll {} (before ++ .loadConstant p :: between)).GivesIndex q i ↔
      p.identical q = true := by
  have hentry : (performAll {}
      (before ++ .loadConstant p :: between)).tables.constants[i.toNat]? = some p := by
    rw [List.append_cons]
    exact Tables.getElem?_of_prefix (within_performAll_append _ between).constants
      (getElem?_of_givesIndex h)
  rw [Scalar.identical_iff]
  constructor
  · intro hq
    have hkept := Tables.getElem?_of_prefix
      (within_performAll_append _ [.loadConstant q]).constants hentry
    exact Option.some.inj (hkept.symm.trans (getElem?_of_givesIndex hq))
  · rintro rfl
    exact givesIndex_of_getElem? hentry

end Emitter

/-! ### Identity and equality -/

namespace Value

/-- Identity is an equivalence. Identical values are equal, unless they are floats that are no
    numbers, and equality is an equivalence among the others. Identical decimals agree in digits
    and scales, identical scalars in their keys, and it is these that share the index of a
    constant in emitted code. -/
theorem identical_refines_numEq :
    (Equivalence fun v w : Value => v.identical w = true) ∧
    (∀ v w : Value, v.identical w = true → v.numEq w = !v.isNaN) ∧
    (∀ v w : Value, v.numEq w = w.numEq v) ∧
    (∀ u v w : Value, u.numEq v = true → v.numEq w = true → u.numEq w = true) ∧
    (∀ d r : Decimal, (decimal d).identical (decimal r) = true ↔
      d.unscaled = r.unscaled ∧ d.scale = r.scale) ∧
    (∀ p q : Scalar, p.identical q = true ↔ p.key = q.key) ∧
    ∀ (before between : List EmitterCall) (p q : Scalar) (i : UInt8),
      (Emitter.performAll {} before).GivesIndex p i →
        ((Emitter.performAll {} (before ++ .loadConstant p :: between)).GivesIndex q i ↔
          p.identical q = true) :=
  ⟨equivalence_identical, fun _ _ => numEq_of_identical, numEq_comm, fun _ _ _ => numEq_trans,
    fun _ _ => identical_decimal_iff, fun _ _ => Scalar.identical_iff_key_eq,
    fun _ _ _ _ _ => Emitter.givesIndex_iff⟩

/-- A float that is no number is identical to itself and does not equal itself. Two decimals that
    are not identical are equal, as each equals a third one, and two zeros that are equal share
    no index. -/
theorem identical_refines_numEq_oddities :
    let nan : Value := .scalar (.float64 ⟨0xfff8000000000001⟩)
    let two (zeros : ℕ) : Value := .decimal ⟨2 * 10 ^ zeros, .ofNat zeros⟩
    let zero : Scalar := .float64 ⟨0⟩
    let negativeZero : Scalar := .float64 ⟨0x8000000000000000⟩
    (nan.identical nan = true ∧ nan.numEq nan = false) ∧
    ((two 2).numEq (two 1) = true ∧ (two 1).numEq (two 0) = true ∧
      (two 2).numEq (two 0) = true ∧ (two 2).identical (two 0) = false) ∧
    zero.numEq negativeZero = true ∧ Emitter.GivesIndex {} zero 0 ∧
      (Emitter.performAll {} [.loadConstant zero, .loadConstant (.int32 0)]).GivesIndex zero 0 ∧
      ¬(Emitter.performAll {} [.loadConstant zero, .loadConstant (.int32 0)]).GivesIndex
        negativeZero 0 := by
  intro nan two zero negativeZero
  obtain ⟨hequivalence, hequal, -, htrans, hdecimals, -, hshared⟩ := identical_refines_numEq
  have hnan : nan.identical nan = true := hequivalence.refl nan
  have htwo : (two 2).numEq (two 1) = true ∧ (two 1).numEq (two 0) = true := by decide +kernel
  have hzero : Emitter.GivesIndex {} zero 0 := ⟨#[zero], by cbv⟩
  have hindex (q : Scalar) : (Emitter.performAll {}
      [.loadConstant zero, .loadConstant (.int32 0)]).GivesIndex q 0 ↔ zero.identical q = true :=
    hshared [] [.loadConstant (.int32 0)] zero q 0 hzero
  refine ⟨⟨hnan, ?_⟩, ⟨htwo.1, htwo.2, htrans _ _ _ htwo.1 htwo.2, ?_⟩, by decide, hzero,
    (hindex zero).2 (by decide), fun h => absurd ((hindex negativeZero).1 h) (by decide)⟩
  · rw [hequal nan nan hnan]
    decide
  · rw [← Bool.not_eq_true, hdecimals]
    decide

end Value

end AdaptiveArith
