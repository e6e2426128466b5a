/-!
# Kinds of values

The scalar kinds form a ladder, lowest tier first: 32-bit and 64-bit
integers, 32-bit and 64-bit floats. Two numbers meet on the higher of their
tiers. Decimals stand above all scalar kinds; text and host values are no
numbers. The kind of a host value is named after its type.
-/

namespace AdaptiveArith

/-- A kind of machine numbers, the only values compiled code computes with. -/
inductive ScalarKind
  | int32
  | int64
  | float32
  | float64
  deriving DecidableEq, Repr

namespace ScalarKind

/-- The scalar kinds, lowest tier first. -/
def all : List ScalarKind := [int32, int64, float32, float64]

/-- The step of the ladder a kind stands on. -/
def tier : ScalarKind → Nat
  | int32 => 0
  | int64 => 1
  | float32 => 2
  | float64 => 3

instance : Ord ScalarKind := ⟨fun a b => compare a.tier b.tier⟩

/-- The kinds are ordered by the ladder. -/
instance : LE ScalarKind := ⟨fun a b => a.tier ≤ b.tier⟩

instance (a b : ScalarKind) : Decidable (a ≤ b) := inferInstanceAs (Decidable (a.tier ≤ b.tier))

/-- The strict order of the ladder. -/
instance : LT ScalarKind := ⟨fun a b => a.tier < b.tier⟩

instance (a b : ScalarKind) : Decidable (a < b) := inferInstanceAs (Decidable (a.tier < b.tier))

instance : Max ScalarKind := maxOfLe

/-- The name of a kind. -/
def name : ScalarKind → String
  | int32 => "int32"
  | int64 => "int64"
  | float32 => "float32"
  | float64 => "float64"

instance : ToString ScalarKind := ⟨name⟩

/-- The name of a kind in outlines. -/
def outlineName : ScalarKind → String
  | int32 => "Int32"
  | int64 => "Int64"
  | float32 => "Float32"
  | float64 => "Float64"

/-- The byte of a kind in compiled code, the code of a capital letter. -/
def byte : ScalarKind → UInt8
  | int32 => 0x49
  | int64 => 0x4a
  | float32 => 0x46
  | float64 => 0x44

/-- The kind of a byte. -/
def ofByte? : UInt8 → Option ScalarKind
  | 0x49 => some int32
  | 0x4a => some int64
  | 0x46 => some float32
  | 0x44 => some float64
  | _ => none

theorem ofByte?_byte (k : ScalarKind) : ofByte? k.byte = some k := by
  cases k <;> rfl

end ScalarKind

/-- The kind of any value. -/
inductive ValueKind
  /-- A machine number. -/
  | scalar (kind : ScalarKind)
  /-- A decimal. -/
  | decimal
  /-- Text. -/
  | text
  /-- A value of the host, with the name of its type. -/
  | host (typeName : String)
  deriving DecidableEq

/-- The name of a kind. -/
def ValueKind.name : ValueKind → String
  | scalar kind => kind.name
  | decimal => "decimal"
  | text => "text"
  | host typeName => typeName

instance : ToString ValueKind := ⟨ValueKind.name⟩

end AdaptiveArith
