import AdaptiveArith.Combine
import Mathlib

/-!
# Making texts

A text is repeated or joined to another one within two bounds. The limit on texts refuses
lengths above it, and no text at all is as long as `Text.lengthBound`. The second bound is
asked for memory after the limit has admitted the length, and where it is not kept, the program
panics. `Text.Makes` lists what making a text may come to, and a text that is made under a limit
is made alike under every larger one (`Text.Makes.eq_or_tooLong`).

The length of a text counts bytes, and copies of a text are as long as all of them together
(`Text.utf8ByteSize_copies`). A text is repeated exactly if both bounds admit this length
(`Text.repeated_eq_ok_iff`). A length between the two bounds makes the program panic
(`Text.repeated_eq_panic`), as it is still a word, and only lengths that are no words are
refused without a limit.
-/

namespace AdaptiveArith

namespace Text

variable {s l r text made : String} {count : Int32} {limit : Option ℕ} {m shown length : ℕ}
  {x y : Except EvalError String}

/-! ### Copies -/

/-- The copies of a text, made by doubling, are all joined. -/
theorem copies_eq_join (s : String) (n : ℕ) : copies s n = String.join (List.replicate n s) := by
  fun_induction copies s n with
  | case1 => rfl
  | case2 n _ half heven ih =>
    have hn : n = n / 2 + n / 2 := by omega
    rw [hn, List.replicate_add, String.join_append, ← ih]
  | case3 n _ half hodd ih =>
    have hn : n = n / 2 + n / 2 + 1 := by omega
    rw [hn, List.replicate_add, List.replicate_add, String.join_append, String.join_append, ← ih,
      List.replicate_one, String.join_cons, String.join_nil, String.append_empty]

theorem utf8ByteSize_copies (s : String) (n : ℕ) :
    (copies s n).utf8ByteSize = s.utf8ByteSize * n := by
  rw [copies_eq_join]
  induction n with
  | zero => rfl
  | succ n ih =>
    rw [List.replicate_succ, String.join_cons, String.utf8ByteSize_append, ih, Nat.mul_succ,
      Nat.add_comm]

/-! ### Limit and memory -/

/-- A limit admits a length, or refuses it and names itself. -/
theorem admits_cases (limit : Option ℕ) (length : ℕ) :
    (∀ m ∈ limit, length ≤ m) ∧ admits limit length = .ok () ∨
      ∃ m ∈ limit, m < length ∧ admits limit length = .error (.limit (.textTooLong m)) := by
  cases limit with
  | none => exact .inl ⟨fun _ hm => (Option.not_mem_none _ hm).elim, rfl⟩
  | some m =>
    rcases Nat.lt_or_ge m length with hlt | hle
    · exact .inr ⟨m, rfl, hlt, if_pos hlt⟩
    · exact .inl ⟨fun _ hm => Option.mem_some.1 hm ▸ hle, if_neg (not_lt.2 hle)⟩

/-- What may come of making a text of a length, when the limit is asked about the length that
    it is shown. -/
inductive Makes (limit : Option ℕ) (shown length : ℕ) (text : String) :
    Except EvalError String → Prop
  /-- Both bounds are kept. -/
  | text : (∀ m ∈ limit, shown ≤ m) → length < lengthBound →
      Makes limit shown length text (.ok text)
  /-- The limit refuses. -/
  | tooLong {m : ℕ} : m ∈ limit → m < shown →
      Makes limit shown length text (.error (.limit (.textTooLong m)))
  /-- The limit admits a length that no text has. -/
  | panic : (∀ m ∈ limit, shown ≤ m) → lengthBound ≤ length →
      Makes limit shown length text (.error (.panic "capacity overflow"))

theorem makes (limit : Option ℕ) (shown length : ℕ) (text : String) :
    Makes limit shown length text do
      admits limit shown
      allocate length
      return text := by
  rcases admits_cases limit shown with ⟨hadmitted, h⟩ | ⟨m, hm, hlt, h⟩
  · rw [h, allocate]
    split
    next hlength => exact .text hadmitted hlength
    next hlength => exact .panic hadmitted (not_lt.1 hlength)
  · rw [h]
    exact .tooLong hm hlt

/-- A text is made as under any larger limit, or it is too long for the limit. -/
theorem Makes.eq_or_tooLong (hx : Makes (some m) shown length text x)
    (hy : Makes limit shown length text y) (hlimit : ∀ n ∈ limit, m ≤ n) :
    x = .error (.limit (.textTooLong m)) ∨ y = x := by
  -- What the limit admits is admitted by the larger one.
  have hlarger {n : ℕ} (hadmitted : ∀ m' ∈ some m, shown ≤ m') (hn : n ∈ limit) : shown ≤ n :=
    (hadmitted m rfl).trans (hlimit n hn)
  cases hx with
  | tooLong hm _ => exact .inl (by rw [Option.mem_some.1 hm])
  | text hadmitted hlength =>
    cases hy with
    | text => exact .inr rfl
    | tooLong hn hlt => exact absurd (hlarger hadmitted hn) (not_le.2 hlt)
    | panic _ hbound => exact absurd hlength (not_lt.2 hbound)
  | panic hadmitted hbound =>
    cases hy with
    | text _ hlength => exact absurd hlength (not_lt.2 hbound)
    | tooLong hn hlt => exact absurd (hlarger hadmitted hn) (not_le.2 hlt)
    | panic => exact .inr rfl

/-- A text is made exactly if both bounds are kept. -/
theorem Makes.eq_ok_iff (h : Makes limit shown length text x) :
    x = .ok made ↔ ((∀ m ∈ limit, shown ≤ m) ∧ length < lengthBound) ∧ text = made := by
  cases h with
  | text hadmitted hlength =>
    rw [Except.ok.injEq]
    exact ⟨fun hmade => ⟨⟨hadmitted, hlength⟩, hmade⟩, And.right⟩
  | tooLong hm hlt =>
    simp only [reduceCtorEq, false_iff]
    exact fun hmade => absurd (hmade.1.1 _ hm) (not_le.2 hlt)
  | panic _ hbound =>
    simp only [reduceCtorEq, false_iff]
    exact fun hmade => absurd hmade.1.2 (not_lt.2 hbound)

/-- The program panics if the limit admits a length that no text has. -/
theorem Makes.eq_panic (h : Makes limit shown length text x) (hadmitted : ∀ m ∈ limit, shown ≤ m)
    (hbound : lengthBound ≤ length) : x = .error (.panic "capacity overflow") := by
  cases h with
  | text _ hlength => exact absurd hlength (not_lt.2 hbound)
  | tooLong hm hlt => exact absurd (hadmitted _ hm) (not_le.2 hlt)
  | panic => rfl

/-- Making a text knows of no nesting. -/
theorem Makes.ne_tooDeep (h : Makes limit shown length text x) (depth maxDepth : ℕ) :
    x ≠ .error (.limit (.tooDeep depth maxDepth)) := by
  cases h <;> simp

/-! ### Repeated and joined texts -/

/-- The length of the copies of a text. There are none if the count is not positive. -/
def copiesLength (s : String) (count : Int32) : ℕ := s.utf8ByteSize * count.toInt.toNat

/-- The limit is only asked about the length of the copies if that is a word. -/
theorem repeated_cases (limit : Option ℕ) (s : String) (count : Int32) :
    wordBound ≤ copiesLength s count ∧ repeated limit s count =
        .error (.limit (.textTooLong (limit.getD (wordBound - 1)))) ∨
      copiesLength s count < wordBound ∧
        Makes limit (copiesLength s count) (copiesLength s count) (copies s count.toInt.toNat)
          (repeated limit s count) := by
  rw [repeated]
  split
  next hnonpos =>
    have hzero : copiesLength s count = 0 := by
      rw [copiesLength, Int.toNat_of_nonpos hnonpos, Nat.mul_zero]
    rw [hzero, Int.toNat_of_nonpos hnonpos, copies]
    exact .inr ⟨by decide, .text (fun _ _ => Nat.zero_le _) (by decide)⟩
  next =>
    dsimp only
    split
    next hbound => exact .inl ⟨hbound, rfl⟩
    next hbound => exact .inr ⟨not_le.1 hbound, makes _ _ _ _⟩

theorem makes_joined (limit : Option ℕ) (l r : String) :
    Makes limit (min (l.utf8ByteSize + r.utf8ByteSize) (wordBound - 1))
      (l.utf8ByteSize + r.utf8ByteSize) (l ++ r) (joined limit l r) :=
  makes _ _ _ _

/-- A text is repeated as under any larger limit, or it becomes too long. -/
theorem repeated_eq_or_tooLong (hlimit : ∀ n ∈ limit, m ≤ n) (s : String) (count : Int32) :
    repeated (some m) s count = .error (.limit (.textTooLong m)) ∨
      repeated limit s count = repeated (some m) s count := by
  rcases repeated_cases (some m) s count with ⟨_, htooLong⟩ | ⟨hword, hmakes⟩
  · exact .inl htooLong
  · rcases repeated_cases limit s count with ⟨hbound, _⟩ | ⟨_, hmakes'⟩
    · exact absurd hword (not_lt.2 hbound)
    · exact hmakes.eq_or_tooLong hmakes' hlimit

/-- Two texts are joined as under any larger limit, or they become too long. -/
theorem joined_eq_or_tooLong (hlimit : ∀ n ∈ limit, m ≤ n) (l r : String) :
    joined (some m) l r = .error (.limit (.textTooLong m)) ∨
      joined limit l r = joined (some m) l r :=
  (makes_joined (some m) l r).eq_or_tooLong (makes_joined limit l r) hlimit

/-- A text is repeated exactly if both bounds admit all copies together. -/
theorem repeated_eq_ok_iff : repeated limit s count = .ok made ↔
    ((∀ m ∈ limit, copiesLength s count ≤ m) ∧ copiesLength s count < lengthBound) ∧
      copies s count.toInt.toNat = made := by
  rcases repeated_cases limit s count with ⟨hbound, htooLong⟩ | ⟨_, hmakes⟩
  · have hlength : lengthBound ≤ copiesLength s count := le_trans (by decide) hbound
    simp [htooLong, not_lt.2 hlength]
  · exact hmakes.eq_ok_iff

/-- The program panics if the limit admits a length that is a word, but too long for a text. -/
theorem repeated_eq_panic (hadmitted : ∀ m ∈ limit, copiesLength s count ≤ m)
    (hbound : lengthBound ≤ copiesLength s count) (hword : copiesLength s count < wordBound) :
    repeated limit s count = .error (.panic "capacity overflow") := by
  rcases repeated_cases limit s count with ⟨hlarge, _⟩ | ⟨_, hmakes⟩
  · exact absurd hword (not_lt.2 hlarge)
  · exact hmakes.eq_panic hadmitted hbound

theorem repeated_ne_tooDeep (limit : Option ℕ) (s : String) (count : Int32) (depth maxDepth : ℕ) :
    repeated limit s count ≠ .error (.limit (.tooDeep depth maxDepth)) := by
  rcases repeated_cases limit s count with ⟨_, htooLong⟩ | ⟨_, hmakes⟩
  · simp [htooLong]
  · exact hmakes.ne_tooDeep depth maxDepth

/-- A repeated text is within the limit. -/
theorem utf8ByteSize_le_of_repeated (h : repeated (some m) s count = .ok text) :
    text.utf8ByteSize ≤ m := by
  obtain ⟨⟨hadmitted, _⟩, rfl⟩ := repeated_eq_ok_iff.1 h
  rw [utf8ByteSize_copies]
  exact hadmitted m rfl

/-- A joined text is within the limit, which is shown its length, since this is a word. -/
theorem utf8ByteSize_le_of_joined (h : joined (some m) l r = .ok text) :
    text.utf8ByteSize ≤ m := by
  obtain ⟨⟨hadmitted, hlength⟩, rfl⟩ := (makes_joined (some m) l r).eq_ok_iff.1 h
  have hword : lengthBound ≤ wordBound - 1 := by decide
  rw [String.utf8ByteSize_append]
  have hle := hadmitted m rfl
  omega

/-- The length of the copies as a product of integers. -/
theorem copiesLength_eq (s : String) (count : Int32) :
    (copiesLength s count : ℤ) = max 0 (s.utf8ByteSize * count.toInt) := by
  rw [copiesLength, Nat.cast_mul, Int.toNat_eq_max, mul_max_of_nonneg _ _ (Int.natCast_nonneg _),
    mul_zero, max_comm]

theorem copiesLength_le_iff (s : String) (count : Int32) (n : ℕ) :
    copiesLength s count ≤ n ↔ count.toInt ≤ 0 ∨ s.utf8ByteSize * count.toInt ≤ n := by
  have hlength := copiesLength_eq s count
  constructor
  · intro hle
    exact .inr (by omega)
  · rintro (hnonpos | hle)
    · have hproduct := mul_nonpos_of_nonneg_of_nonpos (Int.natCast_nonneg s.utf8ByteSize) hnonpos
      omega
    · omega

end Text

end AdaptiveArith
