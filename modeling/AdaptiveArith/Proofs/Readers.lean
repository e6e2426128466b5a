import AdaptiveArith.Wire.Basic
import Mathlib

/-!
# Readers undo writers

A reader takes an item off the bytes it is written as (`Wire.Takes`) if it

* gives back the item and leaves whatever follows the bytes, and
* runs out of bytes on any less of them, before it could take them for anything else.

Both hold of what one reader takes after another (`Takes.bind`), and so they hold of
numbers, words, texts, sequences and optional items as soon as they hold of a byte.
Bytes that are taken stand for one item only (`Takes.unique`), and are never the
beginning of others (`Takes.eq_of_beginning`).

A number is taken off its bytes if it fits the width of the reader, and so is what is
written with its length in front.
-/

namespace AdaptiveArith.Wire

variable {α β : Type} {read : Reader α} {next : α → Reader β} {bytes bytes' : Bytes}
  {item item' : α} {result : β}

/-- The reader takes the item off the bytes, whatever follows them, and finds that any
    less of the bytes ends too early. -/
structure Takes (read : Reader α) (bytes : Bytes) (item : α) : Prop where
  append : ∀ rest, read.run (bytes ++ rest) = .ok (item, rest)
  cut : ∀ front, front <+: bytes → front ≠ bytes → read.run front = .error .outOfBytes

namespace Takes

theorem run (h : Takes read bytes item) : read.run bytes = .ok (item, []) := by
  have hrun := h.append []
  rwa [List.append_nil] at hrun

/-- Bytes stand for one item. -/
theorem unique (h : Takes read bytes item) (h' : Takes read bytes item') : item = item' := by
  have hrun := h.run
  rw [h'.run] at hrun
  exact (Prod.mk.inj (Except.ok.inj hrun)).1.symm

/-- The bytes of an item are not the beginning of those of another. -/
theorem eq_of_beginning (h : Takes read bytes item) (h' : Takes read bytes' item')
    (hbegins : bytes <+: bytes') : bytes = bytes' := by
  by_contra hne
  have hcut := h'.cut bytes hbegins hne
  rw [h.run] at hcut
  cases hcut

theorem pure (item : α) : Takes (Pure.pure item) [] item where
  append _ := rfl
  cut _ hfront hne := absurd (List.prefix_nil.1 hfront) hne

/-- One reader goes on after the other. -/
theorem bind (h : Takes read bytes item) (h' : Takes (next item) bytes' result) :
    Takes (read >>= next) (bytes ++ bytes') result where
  append rest := by
    rw [StateT.run_bind, List.append_assoc, h.append]
    exact h'.append rest
  cut front hfront hne := by
    rw [StateT.run_bind]
    -- The bytes end among those of the first reader, or after them.
    rcases List.prefix_or_prefix_of_prefix hfront (List.prefix_append bytes bytes') with
      hfirst | ⟨more, rfl⟩
    · by_cases heq : front = bytes
      · subst heq
        have hnil : [] ≠ bytes' := by
          rintro rfl
          exact hne (List.append_nil front).symm
        rw [h.run]
        exact h'.cut [] List.nil_prefix hnil
      · rw [h.cut front hfirst heq]
        rfl
    · rw [h.append]
      exact h'.cut more ((List.prefix_append_right_inj bytes).1 hfront) fun heq => hne (heq ▸ rfl)

/-- What is done with the item afterwards needs no more bytes. -/
theorem bind_nil (h : Takes read bytes item) (h' : Takes (next item) [] result) :
    Takes (read >>= next) bytes result := by
  have hbind := h.bind h'
  rwa [List.append_nil] at hbind

theorem map (h : Takes read bytes item) (f : α → β) :
    Takes (do return f (← read)) bytes (f item) :=
  h.bind_nil (.pure (f item))

end Takes

/-! ### Bytes -/

theorem takes_byte (b : UInt8) : Takes readByte [b] b where
  append _ := rfl
  cut front hfront hne := by
    cases front with
    | nil => rfl
    | cons c front =>
      obtain ⟨rfl, hnil⟩ := List.cons_prefix_cons.1 hfront
      exact absurd (congrArg _ (List.prefix_nil.1 hnil)) hne

theorem takes_bytes (bytes : Bytes) : Takes (readBytes bytes.length) bytes bytes where
  append rest := by
    change (if (bytes ++ rest).length < bytes.length then _ else _) = _
    rw [List.length_append, if_neg (by omega), List.take_left, List.drop_left]
  cut front hfront hne := by
    have hlt : front.length < bytes.length :=
      Nat.lt_of_le_of_ne hfront.length_le fun heq => hne (hfront.eq_of_length heq)
    exact if_pos hlt

theorem takes_cons {next : UInt8 → Reader β} (b : UInt8) (h : Takes (next b) bytes result) :
    Takes (readByte >>= next) (b :: bytes) result :=
  (takes_byte b).bind h

/-! ### Numbers -/

/-- A number of seven bits is a single byte. -/
theorem takes_small {lastMax more n : Nat} (h : n < 128) (hlast : more = 0 → n ≤ lastMax) :
    Takes (readNat lastMax (more + 1)) [.ofNat n] n := by
  have hbyte : (UInt8.ofNat n).toNat = n := UInt8.toNat_ofNat_of_lt' (by rw [UInt8.size]; omega)
  rw [readNat]
  refine takes_cons _ ?_
  rw [hbyte, if_pos h, if_neg (by omega)]
  exact .pure n

/-- A number is taken off its bytes if they are not too many for the reader, and the last
    one not too large. -/
theorem takes_natBytes {lastMax : Nat} (hlast : lastMax < 128) {more n : Nat}
    (h : n < (lastMax + 1) * 128 ^ more) :
    Takes (readNat lastMax (more + 1)) (natBytes n) n := by
  induction more generalizing n with
  | zero =>
    rw [natBytes, if_pos (by omega)]
    exact takes_small (by omega) (by omega)
  | succ more ih =>
    rw [natBytes]
    split
    next hlt => exact takes_small hlt (by omega)
    next hle =>
      -- The byte gives the lowest seven bits, and the bytes after it the others.
      have hbyte : (UInt8.ofNat (128 + n % 128)).toNat = 128 + n % 128 :=
        UInt8.toNat_ofNat_of_lt' (by rw [UInt8.size]; omega)
      have hrest : n / 128 < (lastMax + 1) * 128 ^ more := by
        rw [Nat.pow_succ, ← Nat.mul_assoc] at h
        exact Nat.div_lt_of_lt_mul (by rwa [Nat.mul_comm])
      have hvalue : 128 + n % 128 - 128 + 128 * (n / 128) = n := by omega
      have htakes := (ih hrest).map (128 + n % 128 - 128 + 128 * ·)
      rw [hvalue] at htakes
      rw [readNat]
      refine takes_cons _ ?_
      rwa [hbyte, if_neg (by omega)]

theorem takes_nat32 {n : Nat} (h : n < UInt32.size) : Takes readNat32 (natBytes n) n :=
  takes_natBytes (by decide) h

theorem takes_nat64 {n : Nat} (h : n < UInt64.size) : Takes readNat64 (natBytes n) n :=
  takes_natBytes (by decide) h

/-- The number of an alternative is a single byte. -/
theorem takes_variant {next : Nat → Reader β} (i : Nat) (hi : i < 128)
    (h : Takes (next i) bytes result) : Takes (readNat32 >>= next) (.ofNat i :: bytes) result := by
  have hnat : Takes readNat32 [.ofNat i] i := takes_small hi (by omega)
  exact hnat.bind h

theorem unzigzag_zigzag (z : Int) : unzigzag (zigzag z) = z := by
  cases z with
  | ofNat n =>
    rw [zigzag, unzigzag, if_pos (by omega), Nat.mul_div_cancel_left n Nat.two_pos]
  | negSucc n =>
    rw [zigzag, unzigzag, if_neg (by omega)]
    congr 1
    omega

/-- The numbers of the integers of a width take up one bit more than their sizes. -/
theorem zigzag_lt {z : Int} {bound : Nat} (hle : -bound ≤ z) (hlt : z < bound) :
    zigzag z < 2 * bound := by
  cases z with
  | ofNat n =>
    have hn : n < bound := Int.ofNat_lt.1 hlt
    rw [zigzag]
    omega
  | negSucc n =>
    rw [zigzag]
    omega

/-! ### Words -/

theorem length_wordBytes (width word : Nat) : (wordBytes width word).length = width := by
  induction width generalizing word with
  | zero => rfl
  | succ width ih => rw [wordBytes, List.length_cons, ih]

theorem wordOfBytes_wordBytes {width word : Nat} (h : word < 256 ^ width) :
    wordOfBytes (wordBytes width word) = word := by
  induction width generalizing word with
  | zero =>
    rw [wordBytes, wordOfBytes]
    omega
  | succ width ih =>
    have hrest : word / 256 < 256 ^ width := Nat.div_lt_of_lt_mul (by rwa [← Nat.pow_succ'])
    rw [wordBytes, wordOfBytes, ih hrest, UInt8.toNat_ofNat']
    omega

theorem takes_word {width word : Nat} (h : word < 256 ^ width) :
    Takes (readWord width) (wordBytes width word) word := by
  have hbytes := takes_bytes (wordBytes width word)
  rw [length_wordBytes] at hbytes
  have htakes := hbytes.map wordOfBytes
  rwa [wordOfBytes_wordBytes h] at htakes

/-! ### Texts, sequences and options -/

theorem takes_text {s : String} (h : s.utf8ByteSize < UInt64.size) :
    Takes readText (textBytes s) s := by
  have hbytes : Takes (readBytes s.utf8ByteSize) s.toUTF8.data.toList s.toUTF8.data.toList :=
    takes_bytes _
  refine (takes_nat64 h).bind (hbytes.bind_nil ?_)
  -- The bytes of a text are well-formed.
  have htext : String.fromUTF8? ⟨s.toUTF8.data.toList.toArray⟩ = some s := dif_pos s.isValidUTF8
  rw [htext]
  exact .pure s

variable {readItem : Reader α} {itemBytes : α → Bytes}

theorem takes_items {items : List α} (h : ∀ item ∈ items, Takes readItem (itemBytes item) item) :
    Takes (readItems readItem items.length) (items.flatMap itemBytes) items := by
  induction items with
  | nil => exact .pure []
  | cons item items ih =>
    obtain ⟨hitem, hitems⟩ := List.forall_mem_cons.1 h
    exact hitem.bind ((ih hitems).map (item :: ·))

theorem takes_seq {items : Array α} (hsize : items.size < UInt64.size)
    (h : ∀ item ∈ items, Takes readItem (itemBytes item) item) :
    Takes (readSeq readItem) (seqBytes itemBytes items) items :=
  (takes_nat64 hsize).bind
    ((takes_items fun item hitem => h item (Array.mem_toList_iff.1 hitem)).map List.toArray)

theorem takes_option {item? : Option α} (h : ∀ item ∈ item?, Takes readItem (itemBytes item) item) :
    Takes (readOption readItem) (optionBytes itemBytes item?) item? := by
  cases item? with
  | none => exact takes_cons 0 (.pure none)
  | some item => exact takes_cons 1 ((h item rfl).map some)

end AdaptiveArith.Wire
