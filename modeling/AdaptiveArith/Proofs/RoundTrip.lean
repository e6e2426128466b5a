import AdaptiveArith.Wire.Code
import AdaptiveArith.Code.Machine
import AdaptiveArith.Proofs.Readers
import AdaptiveArith.Proofs.Tables

/-!
# Codes come back from their bytes

Whatever a code holds, it is taken off the bytes it is written as (`Code.takes`): its
constants bit for bit, any operand of an instruction, any name. Only the sizes in it have
to be words of the machine (`Code.WordSized`), as they are in any code that is held in
memory.

So code that is loaded is the code that was written, and does the same everywhere
(`Code.ofBytes_bytes_append`), and bytes that were cut off are never taken for code, but
always found to end too early (`Code.ofBytes_cut`).
-/

namespace AdaptiveArith

open Wire

/-! ### Parts of a code -/

/-- A scalar comes back with all of its bits. -/
theorem Scalar.takes (p : Scalar) : Takes Scalar.read p.bytes p := by
  cases p with
  | int32 n =>
    have hlt : zigzag n.toInt < UInt32.size := zigzag_lt n.le_toInt n.toInt_lt
    have htakes := (takes_nat32 hlt).map fun m => int32 (.ofInt (unzigzag m))
    rw [unzigzag_zigzag, Int32.ofInt_toInt] at htakes
    exact takes_variant 0 (by decide) htakes
  | int64 n =>
    have hlt : zigzag n.toInt < UInt64.size := zigzag_lt n.le_toInt n.toInt_lt
    have htakes := (takes_nat64 hlt).map fun m => int64 (.ofInt (unzigzag m))
    rw [unzigzag_zigzag, Int64.ofInt_toInt] at htakes
    exact takes_variant 1 (by decide) htakes
  | float32 x =>
    have hword : Takes (readWord 4) (wordBytes 4 x.bits.toNat) _ := takes_word x.bits.toNat_lt
    have htakes := hword.map fun word => float32 ⟨.ofNat word⟩
    rw [UInt32.ofNat_toNat] at htakes
    exact takes_variant 2 (by decide) htakes
  | float64 x =>
    have hword : Takes (readWord 8) (wordBytes 8 x.bits.toNat) _ := takes_word x.bits.toNat_lt
    have htakes := hword.map fun word => float64 ⟨.ofNat word⟩
    rw [UInt64.ofNat_toNat] at htakes
    exact takes_variant 3 (by decide) htakes

theorem ScalarKind.takes (k : ScalarKind) : Takes ScalarKind.read k.bytes k := by
  cases k with
  | int32 => exact takes_variant 0 (by decide) (.pure _)
  | int64 => exact takes_variant 1 (by decide) (.pure _)
  | float32 => exact takes_variant 2 (by decide) (.pure _)
  | float64 => exact takes_variant 3 (by decide) (.pure _)

theorem Form.takes (form : Form) : Takes Form.read form.bytes form := by
  cases form with
  | bare k => exact takes_variant 0 (by decide) (k.takes.map bare)
  | boxed k => exact takes_variant 1 (by decide) (k.takes.map boxed)

/-- An instruction comes back, whatever its operand. -/
theorem Instruction.takes (i : Instruction) : Takes Instruction.read i.bytes i := by
  cases i with
  | halt => exact takes_variant 0 (by decide) (.pure _)
  | loadConstant index => exact takes_variant 1 (by decide) ((takes_byte index).map loadConstant)
  | loadVariable index => exact takes_variant 2 (by decide) ((takes_byte index).map loadVariable)
  | unbox kindByte => exact takes_variant 3 (by decide) ((takes_byte kindByte).map unbox)
  | binary kind operator =>
    have hoperator := takes_byte operator
    cases kind with
    | int32 => exact takes_variant 4 (by decide) (hoperator.map (binary .int32))
    | int64 => exact takes_variant 6 (by decide) (hoperator.map (binary .int64))
    | float32 => exact takes_variant 8 (by decide) (hoperator.map (binary .float32))
    | float64 => exact takes_variant 10 (by decide) (hoperator.map (binary .float64))
  | negate kind =>
    cases kind with
    | int32 => exact takes_variant 5 (by decide) (.pure _)
    | int64 => exact takes_variant 7 (by decide) (.pure _)
    | float32 => exact takes_variant 9 (by decide) (.pure _)
    | float64 => exact takes_variant 11 (by decide) (.pure _)
  | ret => exact takes_variant 12 (by decide) (.pure _)

/-! ### Codes -/

namespace Code

variable {code loaded : Code}

/-- The sizes in a code are words of the machine. -/
structure WordSized (code : Code) : Prop where
  constants : code.constants.size < UInt64.size
  «variables» : code.variables.size < UInt64.size
  names : ∀ name ∈ code.variables, name.utf8ByteSize < UInt64.size
  instructions : code.instructions.size < UInt64.size
  maxStack : code.maxStack < UInt64.size

/-- A code is taken off its bytes, one part after the other. -/
theorem takes (h : code.WordSized) : Takes Code.read code.bytes code := by
  have hconstants := takes_seq h.constants fun p _ => p.takes
  have hnames := takes_seq h.variables fun name hname => takes_text (h.names name hname)
  have hinstructions := takes_seq h.instructions fun i _ => i.takes
  have hform : Takes (readOption Form.read) (optionBytes Form.bytes code.form?) code.form? :=
    takes_option fun form _ => form.takes
  rw [bytes, List.append_assoc, List.append_assoc, List.append_assoc]
  refine hconstants.bind (hnames.bind (hinstructions.bind ((takes_nat64 h.maxStack).bind ?_)))
  exact hform.bind_nil (.pure code)

/-- The two codes are the same, their constants bit for bit. -/
structure Identical (loaded code : Code) : Prop where
  constants : List.Forall₂ (fun p q => p.identical q = true) loaded.constants.toList
    code.constants.toList
  «variables» : loaded.variables = code.variables
  instructions : loaded.instructions = code.instructions
  maxStack : loaded.maxStack = code.maxStack
  form? : loaded.form? = code.form?

theorem identical_self (code : Code) : code.Identical code where
  constants := List.forall₂_same.2 fun _ _ => Scalar.identical_iff.2 rfl
  «variables» := rfl
  instructions := rfl
  maxStack := rfl
  form? := rfl

theorem ofBytes_of_takes {bytes : Bytes} (h : Takes Code.read bytes code) (rest : Bytes) :
    ofBytes (bytes ++ rest) = .ok code := by
  rw [ofBytes, h.append]
  rfl

/-- A code comes back from its bytes, whatever follows them, with the same listing and the
    same result in every environment. Different codes have different bytes. -/
theorem ofBytes_bytes_append (h : code.WordSized) (rest : Bytes) : ∃ loaded : Code,
    ofBytes (code.bytes ++ rest) = .ok loaded ∧ loaded.Identical code ∧
      loaded.listing = code.listing ∧ (∀ env, loaded.execute env = code.execute env) ∧
      ∀ other : Code, other.WordSized → other.bytes = code.bytes → other = code := by
  refine ⟨code, ofBytes_of_takes (takes h) rest, code.identical_self, rfl, fun _ => rfl, ?_⟩
  intro other hother hbytes
  exact (takes hother).unique (hbytes ▸ takes h)

/-- A code that is not equal to itself, as its constant is no number. -/
def oddities : Code :=
  ⟨#[.float64 ⟨0x7ff8000000000001⟩], #["ä"], #[.unbox 0x5a], 300, some (.boxed .float32)⟩

theorem wordSized_oddities : oddities.WordSized where
  constants := by decide
  «variables» := by decide
  names := by
    simp only [oddities]
    decide
  instructions := by decide
  maxStack := by decide

/-- It comes back all the same. -/
theorem ofBytes_bytes_append_oddities :
    oddities.WordSized ∧ oddities.numEq oddities = false ∧
      ∃ loaded, ofBytes (oddities.bytes ++ [0xff]) = .ok loaded ∧ loaded.Identical oddities := by
  obtain ⟨loaded, hloaded, hidentical, _⟩ := ofBytes_bytes_append wordSized_oddities [0xff]
  exact ⟨wordSized_oddities, by decide, loaded, hloaded, hidentical⟩

/-- Bytes of a code that were cut off, wherever that is, are found to end too early. So the
    bytes of a code are not the beginning of those of another. -/
theorem ofBytes_cut (h : code.WordSized) :
    (∀ front, front <+: code.bytes → front ≠ code.bytes →
      ofBytes front = .error .outOfBytes) ∧
    ∀ other : Code, other.WordSized → other.bytes <+: code.bytes → other.bytes = code.bytes := by
  refine ⟨fun front hfront hne => ?_, fun other hother => (takes hother).eq_of_beginning (takes h)⟩
  rw [ofBytes, (takes h).cut front hfront hne]
  rfl

/-- The bytes are cut off inside those of a character. -/
theorem ofBytes_cut_oddities :
    oddities.WordSized ∧ [1, 3, 1, 0, 0, 0, 0, 0, 0xf8, 0x7f, 1, 2, 0xc3] <+: oddities.bytes ∧
      ofBytes [1, 3, 1, 0, 0, 0, 0, 0, 0xf8, 0x7f, 1, 2, 0xc3] = .error .outOfBytes := by
  have hbytes : oddities.bytes = [1, 3, 1, 0, 0, 0, 0, 0, 0xf8, 0x7f, 1, 2, 0xc3, 0xa4, 1, 3, 0x5a,
      0xac, 2, 1, 1, 2] := by
    unfold oddities
    cbv
  have hfront : [1, 3, 1, 0, 0, 0, 0, 0, 0xf8, 0x7f, 1, 2, 0xc3] <+: oddities.bytes := by
    rw [hbytes]
    decide
  refine ⟨wordSized_oddities, hfront, (ofBytes_cut wordSized_oddities).1 _ hfront ?_⟩
  rw [hbytes]
  decide

end Code

end AdaptiveArith
