import AdaptiveArith.Value.Scalar
import AdaptiveArith.Text.Quoted

/-!
# Values

A value is a number (a scalar or a decimal), a text, or a value of the host,
which the operators never combine themselves. Host values are objects: two of
them are the same only if they have the same identity, whatever they hold.

Values are compared in two ways. `numEq` compares numbers of one kind as
numbers, so that a decimal equals itself at any scale and the two zeros of a
float kind are equal, while a float that is no number equals nothing.
`identical` is stricter on numbers: it compares floats bit for bit, and asks
decimals for the same scale as well.
-/

namespace AdaptiveArith

/-- A value of the host: an object of some type of the host. -/
structure HostValue where
  /-- Which object it is. -/
  identity : Nat
  /-- The name of its type. -/
  typeName : String
  /-- What the object holds, in the writing of the host. -/
  content : String
  deriving DecidableEq

/-- The two host values are one object. -/
def HostValue.same (a b : HostValue) : Bool := a.identity == b.identity

/-- A number, of a scalar kind or a decimal. -/
inductive Number
  | scalar (p : Scalar)
  | decimal (d : Decimal)
  deriving DecidableEq

namespace Number

/-- The number as a decimal; floats that are not finite have none. -/
def toDecimal? : Number → Option Decimal
  | scalar p => p.toDecimal?
  | decimal d => some d

/-- The text of a number. -/
def text : Number → String
  | scalar p => p.text
  | decimal d => d.text

instance : ToString Number := ⟨text⟩

end Number

/-- A dynamically typed value. -/
inductive Value
  /-- A machine number. -/
  | scalar (p : Scalar)
  /-- A decimal. -/
  | decimal (d : Decimal)
  /-- Text. -/
  | text (s : String)
  /-- A value of the host. -/
  | host (object : HostValue)
  deriving DecidableEq

namespace Value

/-! ### Kinds and views -/

/-- The kind of a value. -/
def kind : Value → ValueKind
  | scalar p => .scalar p.kind
  | decimal _ => .decimal
  | text _ => .text
  | host object => .host object.typeName

/-- The scalar in a value. -/
def scalar? : Value → Option Scalar
  | scalar p => some p
  | _ => none

/-- The kind of the scalar in a value. -/
def scalarKind? (v : Value) : Option ScalarKind := v.scalar?.map Scalar.kind

/-- The number in a value. -/
def number? : Value → Option Number
  | scalar p => some (.scalar p)
  | decimal d => some (.decimal d)
  | text _ | host _ => none

/-- The value is a number. -/
def isNumber (v : Value) : Bool := v.number?.isSome

/-- The 32-bit integer in a value. -/
def int32? : Value → Option Int32
  | scalar (.int32 n) => some n
  | _ => none

/-- The 64-bit integer in a value. -/
def int64? : Value → Option Int64
  | scalar (.int64 n) => some n
  | _ => none

/-- The 32-bit float in a value. -/
def float32? : Value → Option Binary32
  | scalar (.float32 x) => some x
  | _ => none

/-- The 64-bit float in a value. -/
def float64? : Value → Option Binary64
  | scalar (.float64 x) => some x
  | _ => none

/-- The decimal in a value. -/
def decimal? : Value → Option Decimal
  | decimal d => some d
  | _ => none

/-- The text in a value. -/
def text? : Value → Option String
  | text s => some s
  | _ => none

/-- What the object in a value holds, if its type has the given name. -/
def host? (typeName : String) : Value → Option String
  | host object => if object.typeName = typeName then some object.content else none
  | _ => none

/-! ### Comparison -/

/-- The two values are of one kind and equal. -/
def numEq : Value → Value → Bool
  | scalar a, scalar b => a.numEq b
  | decimal a, decimal b => a.numEq b
  | text a, text b => a == b
  | host a, host b => a.same b
  | _, _ => false

/-- The two values cannot be told apart: floats agree bit for bit and decimals
    in their scales. -/
def identical : Value → Value → Bool
  | scalar a, scalar b => a.identical b
  | decimal a, decimal b => a.numEq b && a.scale == b.scale
  | text a, text b => a == b
  | host a, host b => a.same b
  | _, _ => false

/-! ### Texts -/

/-- The text of a value. -/
def display : Value → String
  | scalar p => p.text
  | decimal d => d.text
  | text s => s
  | host object => "<" ++ object.typeName ++ ">"

instance : ToString Value := ⟨display⟩

/-- The text of a value in an outline. -/
def outlineText : Value → String
  | scalar p => p.kind.outlineName ++ "(" ++ p.diagnostic ++ ")"
  | decimal d => "Decimal(" ++ d.text ++ ")"
  | text s => "Text(" ++ Text.quoted s ++ ")"
  | host object => "Other(Opaque<" ++ object.typeName ++ ">)"

end Value

end AdaptiveArith
