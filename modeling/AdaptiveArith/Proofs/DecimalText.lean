import AdaptiveArith.Binary.Text
import AdaptiveArith.Decimal.Basic
import Mathlib

/-!
# Reading decimals

A decimal is written with digits, with a point among them or without, with a sign in front if it
is negative, and with an exponent after a letter where one is needed. `DecimalReader.decimal?`
reads such a text: the digits with the point left out are those of the decimal, and its scale is
the number of digits after the point, less the exponent.

A text is written from parts (`DecimalText`), and the reader finds them in it again: the digits
after the point (`DecimalText.fraction_text`), the exponent (`DecimalText.exponent?_text`), and
therefore the decimal (`DecimalText.decimal?_text`).
-/

namespace AdaptiveArith

/-! ### The reader -/

namespace DecimalReader

/-- The number that digits stand for. -/
def natural? (digits : List Char) : Option ℕ :=
  if digits ≠ [] ∧ digits.all Char.isDigit then some (Nat.ofDigitChars 10 digits 0) else none

/-- The number that digits with a sign stand for; the sign may be left out. -/
def integer? : List Char → Option ℤ
  | '-' :: digits => (natural? digits).map fun n : ℕ => -(n : ℤ)
  | '+' :: digits => (natural? digits).map Nat.cast
  | digits => (natural? digits).map Nat.cast

/-- The letter in front of an exponent. -/
def isExponentMark (c : Char) : Bool := c == 'e' || c == 'E'

variable (text : List Char)

/-- The text in front of an exponent. -/
def mantissa : List Char := text.takeWhile fun c => !isExponentMark c

/-- The text in front of the point, with the sign. -/
def whole : List Char := (mantissa text).takeWhile (· != '.')

/-- The text after the point. -/
def fraction : List Char := ((mantissa text).dropWhile (· != '.')).tail

/-- The exponent of a text, which is zero if there is none. -/
def exponent? : Option ℤ :=
  match text.dropWhile fun c => !isExponentMark c with
  | [] => some 0
  | _ :: digits => integer? digits

/-- The decimal of a text, if it has one whose scale fits into a word. -/
def decimal? : Option Decimal := do
  let digits ← integer? (whole text ++ fraction text)
  let exponent ← exponent? text
  let scale := (fraction text).length - exponent
  if -2 ^ 63 ≤ scale ∧ scale < 2 ^ 63 then some ⟨digits, .ofInt scale⟩ else none

/-! ### Numbers -/

variable {digits : List Char}

theorem natural?_of_isDigit (hne : digits ≠ []) (h : ∀ c ∈ digits, c.isDigit = true) :
    natural? digits = some (Nat.ofDigitChars 10 digits 0) :=
  if_pos ⟨hne, List.all_eq_true.2 h⟩

/-- The integer with a sign and a size. -/
def signed (negative : Bool) (size : ℕ) : ℤ := if negative then -size else size

/-- A sign in front of digits is read, and no digit is taken for a sign. -/
theorem integer?_signText (negative : Bool) (hne : digits ≠ [])
    (h : ∀ c ∈ digits, c.isDigit = true) :
    integer? (BinaryFormat.signText negative ++ digits) =
      some (signed negative (Nat.ofDigitChars 10 digits 0)) := by
  have hnatural := natural?_of_isDigit hne h
  cases negative with
  | true =>
    change (natural? digits).map _ = _
    rw [hnatural]
    rfl
  | false =>
    have hinteger : integer? digits = (natural? digits).map Nat.cast := by
      rw [integer?]
      · rintro rest rfl
        exact absurd (h _ List.mem_cons_self) (by decide)
      · rintro rest rfl
        exact absurd (h _ List.mem_cons_self) (by decide)
    change integer? digits = _
    rw [hinteger, hnatural]
    rfl

theorem isDigit_toDigits (n : ℕ) : ∀ c ∈ Nat.toDigits 10 n, c.isDigit = true :=
  fun _ hc => Nat.isDigit_of_mem_toDigits (by norm_num) (by norm_num) hc

theorem integer?_toDigits (negative : Bool) (n : ℕ) :
    integer? (BinaryFormat.signText negative ++ Nat.toDigits 10 n) = some (signed negative n) := by
  rw [integer?_signText negative Nat.toDigits_ne_nil (isDigit_toDigits n),
    Nat.ofDigitChars_ten_toDigits]

/-- An integer is read off its text. -/
theorem integer?_toString (x : ℤ) : integer? (toString x).toList = some x := by
  cases x with
  | ofNat n =>
    have htext : (toString (Int.ofNat n)).toList = Nat.toDigits 10 n := Nat.toList_repr
    rw [htext]
    exact integer?_toDigits false n
  | negSucc n =>
    have htext : (toString (Int.negSucc n)).toList = '-' :: Nat.toDigits 10 (n + 1) := by
      change ("-" ++ (n + 1).repr).toList = _
      rw [String.toList_append, Nat.toList_repr]
      rfl
    rw [htext]
    exact integer?_toDigits true (n + 1)

end DecimalReader

/-! ### Texts -/

open DecimalReader

/-- The parts from which the text of a decimal is written. -/
structure DecimalText where
  /-- There is a sign in front. -/
  negative : Bool
  /-- The digits in front of the point. -/
  whole : List Char
  /-- The digits after the point; there is no point if there are none. -/
  fraction : List Char
  /-- The exponent, if one is written. -/
  exponent? : Option ℤ
  whole_ne_nil : whole ≠ []
  isDigit : ∀ c ∈ whole ++ fraction, c.isDigit = true

namespace DecimalText

variable (t : DecimalText)

/-- The digits with the point among them. -/
def digits : List Char := t.whole ++ if t.fraction = [] then [] else '.' :: t.fraction

/-- The text. -/
def text : List Char :=
  BinaryFormat.signText t.negative ++ t.digits ++
    match t.exponent? with
    | none => []
    | some x => 'e' :: (toString x).toList

/-! ### Parts found again -/

theorem isDigit_whole : ∀ c ∈ t.whole, c.isDigit = true :=
  fun c hc => t.isDigit c (List.mem_append_left _ hc)

theorem isDigit_fraction : ∀ c ∈ t.fraction, c.isDigit = true :=
  fun c hc => t.isDigit c (List.mem_append_right _ hc)

theorem not_isExponentMark_of_isDigit {c : Char} (h : c.isDigit = true) :
    (!isExponentMark c) = true := by
  rw [isExponentMark, Bool.not_eq_true', Bool.or_eq_false_iff, beq_eq_false_iff_ne,
    beq_eq_false_iff_ne]
  constructor <;> rintro rfl <;> exact absurd h (by decide)

theorem ne_point_of_isDigit {c : Char} (h : c.isDigit = true) : (c != '.') = true := by
  rw [bne_iff_ne]
  rintro rfl
  exact absurd h (by decide)

theorem eq_of_mem_signText {negative : Bool} {c : Char}
    (h : c ∈ BinaryFormat.signText negative) : c = '-' := by
  cases negative with
  | true => exact List.mem_singleton.1 h
  | false => cases h

/-- The letter in front of the exponent is in no part before. -/
theorem not_isExponentMark {c : Char} (h : c ∈ BinaryFormat.signText t.negative ++ t.digits) :
    (!isExponentMark c) = true := by
  rcases List.mem_append.1 h with hsign | hdigits
  · rw [eq_of_mem_signText hsign]
    rfl
  rcases List.mem_append.1 hdigits with hwhole | hfraction
  · exact not_isExponentMark_of_isDigit (t.isDigit_whole c hwhole)
  · split at hfraction
    · cases hfraction
    · rcases List.mem_cons.1 hfraction with rfl | hfraction
      · rfl
      · exact not_isExponentMark_of_isDigit (t.isDigit_fraction c hfraction)

theorem mantissa_text : mantissa t.text = BinaryFormat.signText t.negative ++ t.digits := by
  rw [mantissa, text, List.takeWhile_append_of_pos fun _ => t.not_isExponentMark]
  cases t.exponent? <;> simp [isExponentMark]

/-- The exponent is found again. -/
theorem exponent?_text : DecimalReader.exponent? t.text = some (t.exponent?.getD 0) := by
  rw [DecimalReader.exponent?, text, List.dropWhile_append_of_pos fun _ => t.not_isExponentMark]
  cases t.exponent? with
  | none => rfl
  | some x => exact integer?_toString x

/-- The point is not in front of itself. -/
theorem ne_point {c : Char} (h : c ∈ BinaryFormat.signText t.negative ++ t.whole) :
    (c != '.') = true := by
  rcases List.mem_append.1 h with hsign | hwhole
  · rw [eq_of_mem_signText hsign]
    rfl
  · exact ne_point_of_isDigit (t.isDigit_whole c hwhole)

theorem whole_text :
    DecimalReader.whole t.text = BinaryFormat.signText t.negative ++ t.whole := by
  rw [DecimalReader.whole, mantissa_text, digits, ← List.append_assoc,
    List.takeWhile_append_of_pos fun _ => t.ne_point]
  split <;> simp

/-- The digits after the point are found again. -/
theorem fraction_text : DecimalReader.fraction t.text = t.fraction := by
  rw [DecimalReader.fraction, mantissa_text, digits, ← List.append_assoc,
    List.dropWhile_append_of_pos fun _ => t.ne_point]
  split
  next h => rw [h]; rfl
  next => rfl

/-- The decimal that is read off a text, if its scale fits into a word. -/
theorem decimal?_text {scale : ℤ} (hscale : t.fraction.length - t.exponent?.getD 0 = scale)
    (hlow : -2 ^ 63 ≤ scale) (hhigh : scale < 2 ^ 63) :
    decimal? t.text =
      some ⟨signed t.negative (Nat.ofDigitChars 10 (t.whole ++ t.fraction) 0), .ofInt scale⟩ := by
  have hdigits := integer?_signText t.negative
    (List.append_ne_nil_of_left_ne_nil t.whole_ne_nil t.fraction) t.isDigit
  rw [← List.append_assoc] at hdigits
  rw [decimal?, whole_text, fraction_text, exponent?_text, hdigits]
  simp only [Option.bind_eq_bind, Option.bind_some, hscale]
  exact if_pos ⟨hlow, hhigh⟩

example : decimal? "-12.50e-3".toList = some ⟨-1250, 5⟩ := by decide

end DecimalText

end AdaptiveArith
