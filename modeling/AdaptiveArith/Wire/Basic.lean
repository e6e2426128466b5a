/-!
# Bytes of simple data

Data is written as bytes without names or padding:

* a natural number in groups of seven bits, the lowest group first, each but the
  last with its high bit set;
* an integer as the natural number that alternates between the signs, `0`, `-1`,
  `1`, `-2` and so on;
* the word of a float in a fixed number of bytes, the lowest first;
* a text or a sequence with its length in front;
* an optional item as a byte that says whether it follows;
* an alternative as its number, followed by its content.

A `Reader` takes what it reads off the front of the bytes and leaves the rest.
Longer forms of a natural number than the one written are read too, up to the
number of bytes the width of the number admits.
-/

namespace AdaptiveArith.Wire

/-- Bytes, first to last. -/
abbrev Bytes := List UInt8

/-- Why bytes cannot be read. -/
inductive ReadError
  /-- They end too early. -/
  | outOfBytes
  /-- A number is too long or too large for its width. -/
  | badVarint
  /-- A text is not well-formed. -/
  | badText
  /-- The byte of an optional item is neither zero nor one. -/
  | badOption
  /-- There is no alternative of this number. -/
  | unknownVariant
  deriving DecidableEq

/-- The message of a reading error. -/
def ReadError.message : ReadError → String
  | outOfBytes => "Hit the end of buffer, expected more data"
  | badVarint => "Found a varint that didn't terminate. Is the usize too big for this platform?"
  | badText => "Tried to parse invalid utf-8"
  | badOption => "Found an Option discriminant that wasn't 0 or 1"
  | unknownVariant => "Serde Deserialization Error"

/-- Takes an item off the front of the bytes. -/
abbrev Reader := StateT Bytes (Except ReadError)

/-! ### Bytes -/

/-- Reads one byte. -/
def readByte : Reader UInt8 := fun bytes =>
  match bytes with
  | [] => .error .outOfBytes
  | b :: rest => .ok (b, rest)

/-- Reads a number of bytes. -/
def readBytes (count : Nat) : Reader Bytes := fun bytes =>
  if bytes.length < count then .error .outOfBytes
  else .ok (bytes.take count, bytes.drop count)

/-! ### Numbers -/

/-- The bytes of a natural number. -/
def natBytes (n : Nat) : Bytes :=
  if n < 128 then [.ofNat n] else .ofNat (128 + n % 128) :: natBytes (n / 128)
termination_by n
decreasing_by omega

/-- Reads a natural number of at most so many bytes, the last of which is at most
    `lastMax` if all are used. -/
def readNat (lastMax : Nat) : Nat → Reader Nat
  | 0 => throw .badVarint
  | more + 1 => do
    let b ← readByte
    if b.toNat < 128 then
      if more = 0 ∧ lastMax < b.toNat then throw .badVarint else return b.toNat
    else return b.toNat - 128 + 128 * (← readNat lastMax more)

/-- Reads a natural number of 32 bits. -/
def readNat32 : Reader Nat := readNat 15 5

/-- Reads a natural number of 64 bits. -/
def readNat64 : Reader Nat := readNat 1 10

/-- The natural number of an integer: twice a nonnegative one, and one less than
    twice the size of a negative one. -/
def zigzag : Int → Nat
  | .ofNat n => 2 * n
  | .negSucc n => 2 * n + 1

/-- The integer of a natural number. -/
def unzigzag (n : Nat) : Int := if n % 2 = 0 then .ofNat (n / 2) else .negSucc (n / 2)

/-- The bytes of a word, the lowest first. -/
def wordBytes : Nat → Nat → Bytes
  | 0, _ => []
  | width + 1, word => .ofNat word :: wordBytes width (word / 256)

/-- The word of bytes, the lowest first. -/
def wordOfBytes : Bytes → Nat
  | [] => 0
  | b :: rest => b.toNat + 256 * wordOfBytes rest

/-- Reads the word of a number of bytes. -/
def readWord (width : Nat) : Reader Nat := return wordOfBytes (← readBytes width)

/-! ### Texts, sequences and options -/

/-- The bytes of a text. -/
def textBytes (s : String) : Bytes := natBytes s.utf8ByteSize ++ s.toUTF8.data.toList

/-- Reads a text. -/
def readText : Reader String := do
  let length ← readNat64
  let bytes ← readBytes length
  match String.fromUTF8? ⟨bytes.toArray⟩ with
  | some s => return s
  | none => throw .badText

/-- The bytes of a sequence. -/
def seqBytes {α : Type} (itemBytes : α → Bytes) (items : Array α) : Bytes :=
  natBytes items.size ++ items.toList.flatMap itemBytes

/-- Reads a number of items. -/
def readItems {α : Type} (readItem : Reader α) : Nat → Reader (List α)
  | 0 => return []
  | more + 1 => do
    let item ← readItem
    return item :: (← readItems readItem more)

/-- Reads a sequence. -/
def readSeq {α : Type} (readItem : Reader α) : Reader (Array α) := do
  let size ← readNat64
  return (← readItems readItem size).toArray

/-- The bytes of an optional item. -/
def optionBytes {α : Type} (itemBytes : α → Bytes) : Option α → Bytes
  | none => [0]
  | some item => 1 :: itemBytes item

/-- Reads an optional item. -/
def readOption {α : Type} (readItem : Reader α) : Reader (Option α) := do
  match ← readByte with
  | 0 => return none
  | 1 => return some (← readItem)
  | _ => throw .badOption

end AdaptiveArith.Wire
