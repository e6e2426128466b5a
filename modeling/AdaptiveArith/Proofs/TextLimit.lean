import AdaptiveArith.Proofs.Numeric
import AdaptiveArith.Proofs.Texts

/-!
# The limit on texts turns results into errors

The limit on the length of a text matters where a text is repeated and where two texts are
joined. Under a limit each of these gives what it gives under any larger limit and without
one, or it fails with the limit (`Operator.combine?_eq_or_tooLong`), and all else that happens
in an evaluation does not know the limit. So an evaluation takes place under a larger limit
as well, unless the smaller one ends it (`Tree.transfers_tightens`).

What an operator makes is within the limit, unless the answer is that of an overloader
(`Tree.Evaluates.utf8ByteSize_le`).

A limit may admit texts that are too long for memory, and without a limit they are all
admitted. A text is repeated as the limit says unless its copies have such a length
(`Environment.repeatsAsAdmitted_iff`): if this length is still a word, then the program
panics where the limit asks for a text.

`Tree.result_evaluate_withTextLimit` puts all of this together.
-/

namespace AdaptiveArith

/-! ### Combining values under two limits -/

namespace Operator

variable {op : Operator} {l r : Value} {limit : Option Nat} {m : Nat} {s : String}

/-- Two values are combined as under any larger limit, or a text becomes too long. -/
theorem combine?_eq_or_tooLong (hlimit : ∀ n ∈ limit, m ≤ n) (op : Operator) (l r : Value) :
    op.combine? (some m) l r = some (.error (.limit (.textTooLong m))) ∨
      op.combine? limit l r = op.combine? (some m) l r := by
  simp only [combine?]
  split
  next => exact .inr rfl
  next =>
    split
    next s count _ =>
      rcases Text.repeated_eq_or_tooLong hlimit s count with herror | hsame
      · exact .inl (by rw [herror]; rfl)
      · exact .inr (by rw [hsame])
    next s t _ =>
      rcases Text.joined_eq_or_tooLong hlimit s t with herror | hsame
      · exact .inl (by rw [herror]; rfl)
      · exact .inr (by rw [hsame])
    next => exact .inr rfl

/-- A text that an operator makes of two values is within the limit. -/
theorem utf8ByteSize_le_of_combine? (h : op.combine? (some m) l r = some (.ok (.text s))) :
    s.utf8ByteSize ≤ m := by
  unfold combine? at h
  split at h
  next =>
    -- Numbers are combined to numbers.
    have hnumber := isNumber_of_onNumbers (eq_ok_of_mapError_eq_ok (Option.some.inj h))
    cases hnumber
  next =>
    split at h
    next =>
      obtain ⟨_, hrepeated, htext⟩ := exists_of_map_eq_ok (Option.some.inj h)
      cases htext
      exact Text.utf8ByteSize_le_of_repeated hrepeated
    next =>
      obtain ⟨_, hjoined, htext⟩ := exists_of_map_eq_ok (Option.some.inj h)
      cases htext
      exact Text.utf8ByteSize_le_of_joined hjoined
    next => cases h

end Operator

namespace Environment

variable {env env' after after' : Environment} {limit : Option Nat} {m : Nat}

/-- The environment with another limit on texts. -/
def withTextLimit (env : Environment) (limit : Option Nat) : Environment :=
  { env with limits := { env.limits with maxTextLength := limit } }

/-- The two environments may differ in their journals, and the first one in a limit on texts
    that is not larger than that of the second one. -/
structure Tightens (m : Nat) (env after : Environment) : Prop extends
    env.SameForNumbers after where
  overloader : after.overloader = env.overloader
  limit_eq : env.limits.maxTextLength = some m
  limit_le : ∀ n ∈ after.limits.maxTextLength, m ≤ n

theorem tightens_withTextLimit (env : Environment) (h : ∀ n ∈ limit, m ≤ n) :
    (env.withTextLimit (some m)).Tightens m (env.withTextLimit limit) :=
  ⟨⟨rfl, rfl, rfl⟩, rfl, rfl, h⟩

theorem Tightens.inside (h : env.Tightens m after) : env.inside.Tightens m after.inside :=
  ⟨h.toSameForNumbers.inside, h.overloader, h.limit_eq, h.limit_le⟩

/-- One environment stays tighter than the other, whatever happens in each of them. -/
theorem Tightens.later (h : env.Tightens m after) (henv : env.SameButJournal env')
    (hafter : after.SameButJournal after') : env'.Tightens m after' where
  toSameForNumbers := h.toSameForNumbers.later henv hafter
  overloader := (hafter.overloader.trans h.overloader).trans henv.overloader.symm
  limit_eq := by rw [henv.limits, h.limit_eq]
  limit_le := by rw [hafter.limits]; exact h.limit_le

/-- Two values are combined alike in both environments, or a text becomes too long. -/
theorem Tightens.combine (h : env.Tightens m after) (op : Operator) (l r : Value) :
    (env.combine op l r).1 = .error (.limit (.textTooLong m)) ∨
      (after.combine op l r).1 = (env.combine op l r).1 := by
  rw [Environment.combine, Environment.combine, h.limit_eq]
  rcases op.combine?_eq_or_tooLong h.limit_le l r with herror | hsame
  · exact .inl (by rw [herror])
  · rw [hsame]
    cases op.combine? (some m) l r with
    | some result => exact .inr rfl
    | none => exact .inr (by rw [consult, consult, h.overloader])

end Environment

/-! ### Repeating a text -/

namespace Environment

variable {env : Environment} {s : String} {count : Int32} {limit : Option Nat} {v : Value}

/-- A text times a count under a limit on texts. -/
def product (env : Environment) (limit : Option Nat) (s : String) (count : Int32) :
    Except EvalError Value :=
  ((env.withTextLimit limit).combine .mul (.text s) (.scalar (.int32 count))).1

/-- A text is repeated exactly if the limit, a word, admits the copies together, and without a
    limit it is repeated unless their length is no word. -/
structure RepeatsAsAdmitted (env : Environment) (s : String) (count : Int32) : Prop where
  limited (m : Nat) : m < Text.wordBound → ((∃ v, env.product (some m) s count = .ok v) ↔
    count.toInt ≤ 0 ∨ s.utf8ByteSize * count.toInt ≤ m)
  unlimited (e : EvalError) : env.product none s count = .error e →
    (Text.wordBound : ℤ) ≤ s.utf8ByteSize * count.toInt

theorem product_eq (env : Environment) (limit : Option Nat) (s : String) (count : Int32) :
    env.product limit s count = (Text.repeated limit s count).map .text := rfl

/-- A repeated text is that many copies. -/
theorem eq_of_product (h : env.product limit s count = .ok v) :
    v = .text (String.join (List.replicate count.toInt.toNat s)) := by
  obtain ⟨text, hrepeated, rfl⟩ := exists_of_map_eq_ok h
  rw [← (Text.repeated_eq_ok_iff.1 hrepeated).2, Text.copies_eq_join]

theorem exists_product_iff : (∃ v, env.product limit s count = .ok v) ↔
    (∀ m ∈ limit, Text.copiesLength s count ≤ m) ∧
      Text.copiesLength s count < Text.lengthBound := by
  constructor
  · rintro ⟨v, hv⟩
    obtain ⟨text, hrepeated, _⟩ := exists_of_map_eq_ok hv
    exact (Text.repeated_eq_ok_iff.1 hrepeated).1
  · intro hbounds
    rw [product_eq, Text.repeated_eq_ok_iff.2 ⟨hbounds, rfl⟩]
    exact ⟨_, rfl⟩

/-- The limit does not say what becomes of lengths which are words and which no text has. -/
theorem repeatsAsAdmitted_iff : env.RepeatsAsAdmitted s count ↔
    s.utf8ByteSize * count.toInt < Text.lengthBound ∨
      Text.wordBound ≤ s.utf8ByteSize * count.toInt := by
  have hlength := Text.copiesLength_eq s count
  have hbounds : 0 < Text.lengthBound ∧ Text.lengthBound ≤ Text.wordBound := by decide
  constructor
  · intro h
    by_contra hbetween
    have hpanic : env.product none s count = .error (.panic "capacity overflow") := by
      rw [product_eq, Text.repeated_eq_panic (by simp) (by omega) (by omega)]
      rfl
    have hword := h.unlimited _ hpanic
    omega
  · intro h
    refine ⟨fun m hm => ?_, fun e he => ?_⟩
    · rw [exists_product_iff, ← Text.copiesLength_le_iff]
      constructor
      · exact fun hmade => hmade.1 m rfl
      · exact fun hle => ⟨fun _ hlimit => Option.mem_some.1 hlimit ▸ hle, by omega⟩
    · by_contra hword
      have hmade : ∃ v, env.product none s count = .ok v :=
        exists_product_iff.2 ⟨by simp, by omega⟩
      obtain ⟨v, hv⟩ := hmade
      cases he.symm.trans hv

/-- Copies of a text of a little more than four gibibytes: their length is a word, and so they
    are admitted without a limit, and by the largest one, but no text is as long. -/
theorem not_repeatsAsAdmitted_capacity :
    let s := Text.copies "abc" 1431655767
    let count : Int32 := 2147483647
    let env : Environment := {}
    s.utf8ByteSize * count.toInt = 9223372043297226747 ∧
      (Text.lengthBound : ℤ) ≤ 9223372043297226747 ∧
      (9223372043297226747 : ℤ) < Text.wordBound ∧
      env.product none s count = .error (.panic "capacity overflow") ∧
      env.product (some (2 ^ 64 - 1)) s count = .error (.panic "capacity overflow") ∧
      ¬env.RepeatsAsAdmitted s count := by
  intro s count env
  have hsize : s.utf8ByteSize = 4294967301 := Text.utf8ByteSize_copies "abc" 1431655767
  have hcount : count.toInt = 2147483647 := rfl
  -- The text itself plays no part any more, and is too long to be computed.
  clear_value s count
  have hlength : Text.copiesLength s count = 9223372043297226747 := by
    have h := Text.copiesLength_eq s count
    rw [hsize, hcount] at h
    omega
  have hpanic (limit : Option Nat) (hlimit : ∀ m ∈ limit, Text.copiesLength s count ≤ m) :
      env.product limit s count = .error (.panic "capacity overflow") := by
    rw [product_eq, Text.repeated_eq_panic hlimit (by rw [hlength]; decide)
      (by rw [hlength]; decide)]
    rfl
  refine ⟨?_, by decide, by decide, hpanic none (by simp), hpanic _ ?_, ?_⟩
  · rw [hsize, hcount]
    rfl
  · rw [hlength]
    simp
  · rw [repeatsAsAdmitted_iff, hsize, hcount]
    decide

end Environment

/-! ### Evaluations under two limits -/

namespace Tree

variable {t t' : Tree} {env env' : Environment} {result : Except EvalError Value} {m : Nat}

theorem transfers_tightens (m : Nat) :
    Transfers (fun _ env other => env.Tightens m other) (· = .limit (.textTooLong m)) where
  lookup_eq h := h.lookup_eq
  maxDepth h := h.maxDepth
  depth h := h.depth
  operand h := h.inside
  left h := h.inside
  right h := h.inside.later
  combine {op _ _ _ _ _ _ _ _ _ _ l r} h hl hr hother := by
    have htightens := h.inside.later (hl.sameButJournal.trans hr.sameButJournal) hother
    exact (htightens.combine op l r).imp_left fun htooLong => ⟨_, htooLong, rfl⟩

/-- An evaluation under a limit on texts fails with the limit, or the tree goes through the
    same evaluation under any larger limit. -/
theorem Evaluates.of_tightens (h : t.Evaluates env result t' env') {other : Environment}
    (hother : env.Tightens m other) :
    result = .error (.limit (.textTooLong m)) ∨ ∃ other', t.Evaluates other result t' other' := by
  refine (h.transfer (transfers_tightens m) hother).imp_left ?_
  rintro ⟨_, htooLong, rfl⟩
  exact htooLong

/-- The root of the tree is an operator. -/
def isOperator : Tree → Bool
  | literal _ | reference _ _ => false
  | unary _ _ _ | binary _ _ _ _ => true

/-- A text that an operator gives is within the limit, unless it comes from an overloader. -/
theorem Evaluates.utf8ByteSize_le (h : t.Evaluates env result t' env') (ht : t.isOperator = true)
    (hoverloader : env.overloader = .standard) (hlimit : env.limits.maxTextLength = some m)
    {s : String} (hresult : result = .ok (.text s)) : s.utf8ByteSize ≤ m := by
  cases h with
  | literal | bound | unbound => cases ht
  | unaryTooDeep | operandFails | binaryTooDeep | leftFails | rightFails => cases hresult
  | unary op seen hdepth hinner => cases Operator.isNumber_of_onValue hresult
  | @binary _ _ _ _ _ _ env'' l r op seen hdepth hl hr =>
    have hsame := (env.sameRules_inside.trans hl.sameButJournal.toSameRules).trans
      hr.sameButJournal.toSameRules
    rw [hsame.combine_eq, Environment.combine, hlimit] at hresult
    split at hresult
    next result hcombine =>
      change result = _ at hresult
      rw [hresult] at hcombine
      exact Operator.utf8ByteSize_le_of_combine? hcombine
    next =>
      rw [Environment.consult, hoverloader] at hresult
      cases hresult

/-- A limit on the length of texts keeps the result of an evaluation or makes it fail with the
    limit, and a result that is not too long for it is the same under all larger limits. Unless
    an overloader gives it, a text that an operator gives is within the limit. A repeated text
    is that many copies. It is made exactly if the limit, a word, admits the copies together,
    and without a limit unless their length is no word: this holds of all lengths but those
    which are words and which no text has. -/
theorem result_evaluate_withTextLimit (t : Tree) (env : Environment) (m : Nat) :
    let result (limit : Option Nat) := (t.evaluate (env.withTextLimit limit)).result
    (result (some m) = result none ∨ result (some m) = .error (.limit (.textTooLong m))) ∧
    ((∀ n, result (some m) ≠ .error (.limit (.textTooLong n))) →
      ∀ n, m ≤ n → result (some n) = result (some m)) ∧
    (env.overloader = .standard → t.isOperator = true → ∀ s, result (some m) = .ok (.text s) →
      s.utf8ByteSize ≤ m) ∧
    ∀ (s : String) (count : Int32),
      (∀ limit v, env.product limit s count = .ok v →
        v = .text (String.join (List.replicate count.toInt.toNat s))) ∧
      (env.RepeatsAsAdmitted s count ↔ s.utf8ByteSize * count.toInt < Text.lengthBound ∨
        Text.wordBound ≤ s.utf8ByteSize * count.toInt) := by
  intro result
  have htwo (limit : Option Nat) (hlimit : ∀ n ∈ limit, m ≤ n) :
      result (some m) = .error (.limit (.textTooLong m)) ∨ result (some m) = result limit := by
    refine ((t.evaluates _).of_tightens (env.tightens_withTextLimit hlimit)).imp_right ?_
    rintro ⟨_, hother⟩
    exact (congrArg Evaluation.result hother.evaluate_eq).symm
  refine ⟨(htwo none (by simp)).symm, fun hfits n hn => ?_, ?_, fun s count =>
    ⟨fun limit v => env.eq_of_product, env.repeatsAsAdmitted_iff⟩⟩
  · obtain htooLong | hsame := htwo (some n) (by rintro _ ⟨⟩; exact hn)
    · exact absurd htooLong (hfits m)
    · exact hsame.symm
  · intro hoverloader ht s hs
    exact (t.evaluates (env.withTextLimit (some m))).utf8ByteSize_le ht hoverloader rfl hs

/-- Three copies of a text of two bytes and one byte more: a limit of seven bytes admits them,
    and one of six does not. -/
theorem result_evaluate_withTextLimit_bytes :
    let t := ofBinary .add (ofBinary .mul (.literal (.text "é")) (ofName "n"))
      (.literal (.text "c"))
    let env : Environment := .set {} "n" (.scalar (.int32 3))
    (t.evaluate (env.withTextLimit (some 7))).result = .ok (.text "éééc") ∧
      (t.evaluate (env.withTextLimit none)).result = .ok (.text "éééc") ∧
      (t.evaluate (env.withTextLimit (some 1000))).result = .ok (.text "éééc") ∧
      "éééc".utf8ByteSize ≤ 7 ∧
      (t.evaluate (env.withTextLimit (some 6))).result = .error (.limit (.textTooLong 6)) ∧
      env.RepeatsAsAdmitted "é" 3 := by
  intro t env
  have hresult : (t.evaluate (env.withTextLimit (some 7))).result = .ok (.text "éééc") := by cbv
  obtain ⟨hnone, hlarger, hwithin, hproduct⟩ := t.result_evaluate_withTextLimit env 7
  have hlarge := hlarger (fun n h => by cases hresult.symm.trans h) 1000 (by decide)
  refine ⟨hresult, ?_, hlarge.trans hresult, hwithin rfl rfl _ hresult, by cbv,
    (hproduct "é" 3).2.2 (.inl (by decide))⟩
  rcases hnone with hsame | htooLong
  · exact hsame.symm.trans hresult
  · cases hresult.symm.trans htooLong

end Tree

end AdaptiveArith
