import PropertyWeaver.Number.Binary
import PropertyWeaver.Signature.Basic

/-!
# Constants and attributes

Constants are the arguments of custom attributes; attributes annotate types and members.
-/

set_option autoImplicit false

namespace PropertyWeaver

inductive ConstantKind where
  | null | bool | char | int8 | uint8 | int16 | uint16 | int32 | uint32 | int64 | uint64 | float32
  | float64 | string | type | array
  deriving DecidableEq, Repr, Inhabited

def ConstantKind.name : ConstantKind → String
  | .null => "null"
  | .bool => "bool"
  | .char => "char"
  | .int8 => "int8"
  | .uint8 => "uint8"
  | .int16 => "int16"
  | .uint16 => "uint16"
  | .int32 => "int32"
  | .uint32 => "uint32"
  | .int64 => "int64"
  | .uint64 => "uint64"
  | .float32 => "float32"
  | .float64 => "float64"
  | .string => "string"
  | .type => "type"
  | .array => "array"

/-- A value stored as an attribute argument. Arrays may hold constants of different kinds. -/
inductive Constant where
  | null
  | bool (value : Bool)
  | char (unit : UInt16)
  | int8 (value : Int8)
  | uint8 (value : UInt8)
  | int16 (value : Int16)
  | uint16 (value : UInt16)
  | int32 (value : Int32)
  | uint32 (value : UInt32)
  | int64 (value : Int64)
  | uint64 (value : UInt64)
  | float32 (value : Binary32)
  | float64 (value : Binary64)
  | string (value : String)
  | type (sig : TypeSig)
  | array (items : List Constant)
  deriving Inhabited

namespace Constant

def string? : Constant → Option String
  | .string value => some value
  | _ => none

def kind : Constant → ConstantKind
  | .null => .null
  | .bool _ => .bool
  | .char _ => .char
  | .int8 _ => .int8
  | .uint8 _ => .uint8
  | .int16 _ => .int16
  | .uint16 _ => .uint16
  | .int32 _ => .int32
  | .uint32 _ => .uint32
  | .int64 _ => .int64
  | .uint64 _ => .uint64
  | .float32 _ => .float32
  | .float64 _ => .float64
  | .string _ => .string
  | .type _ => .type
  | .array _ => .array

mutual

/-- Compares two constants, given how floats are compared. -/
def agree (floats : Binary32 → Binary32 → Bool) (doubles : Binary64 → Binary64 → Bool) :
    Constant → Constant → Bool
  | .null, .null => true
  | .bool left, .bool right => left = right
  | .char left, .char right => left = right
  | .int8 left, .int8 right => left = right
  | .uint8 left, .uint8 right => left = right
  | .int16 left, .int16 right => left = right
  | .uint16 left, .uint16 right => left = right
  | .int32 left, .int32 right => left = right
  | .uint32 left, .uint32 right => left = right
  | .int64 left, .int64 right => left = right
  | .uint64 left, .uint64 right => left = right
  | .float32 left, .float32 right => floats left right
  | .float64 left, .float64 right => doubles left right
  | .string left, .string right => left = right
  | .type left, .type right => left = right
  | .array left, .array right => agreeAll floats doubles left right
  | _, _ => false

def agreeAll (floats : Binary32 → Binary32 → Bool) (doubles : Binary64 → Binary64 → Bool) :
    List Constant → List Constant → Bool
  | [], [] => true
  | left :: lefts, right :: rights =>
      left.agree floats doubles right && agreeAll floats doubles lefts rights
  | _, _ => false

end

/-- Structural comparison: floats agree if their words do. -/
def same (left right : Constant) : Bool :=
  left.agree (fun left right => left = right) (fun left right => left = right) right

/-- Comparison of values: floats agree if their numbers do, so NaN never agrees. -/
def sameValue (left right : Constant) : Bool :=
  left.agree (fun left right => left.value.sameNumber right.value)
    (fun left right => left.value.sameNumber right.value) right

mutual

theorem same_iff_eq : (left right : Constant) → (left.same right = true ↔ left = right)
  | .null, right => by cases right <;> simp [same, agree]
  | .bool _, right => by cases right <;> simp [same, agree]
  | .char _, right => by cases right <;> simp [same, agree]
  | .int8 _, right => by cases right <;> simp [same, agree]
  | .uint8 _, right => by cases right <;> simp [same, agree]
  | .int16 _, right => by cases right <;> simp [same, agree]
  | .uint16 _, right => by cases right <;> simp [same, agree]
  | .int32 _, right => by cases right <;> simp [same, agree]
  | .uint32 _, right => by cases right <;> simp [same, agree]
  | .int64 _, right => by cases right <;> simp [same, agree]
  | .uint64 _, right => by cases right <;> simp [same, agree]
  | .float32 _, right => by cases right <;> simp [same, agree]
  | .float64 _, right => by cases right <;> simp [same, agree]
  | .string _, right => by cases right <;> simp [same, agree]
  | .type _, right => by cases right <;> simp [same, agree]
  | .array items, right => by
      cases right <;> simp [same, agree]
      exact agreeAll_iff_eq items _

theorem agreeAll_iff_eq : (lefts rights : List Constant) →
    (agreeAll (fun left right => left = right) (fun left right => left = right) lefts rights =
      true ↔ lefts = rights)
  | [], rights => by cases rights <;> simp [agreeAll]
  | left :: lefts, rights => by
      cases rights with
      | nil => simp [agreeAll]
      | cons right rights =>
          have head := same_iff_eq left right
          have tail := agreeAll_iff_eq lefts rights
          simp only [same] at head
          simp [agreeAll, head, tail]

end

instance : DecidableEq Constant :=
  fun left right => decidable_of_iff (left.same right = true) (same_iff_eq left right)

end Constant

structure Attribute where
  type : TypeRef
  arguments : List Constant
  deriving DecidableEq, Inhabited

/-- Full name of the attribute's type. Its scope is not part of the name. -/
def Attribute.fullName (attr : Attribute) : String :=
  attr.type.fullName

def findAttribute? (attributes : List Attribute) (fullName : String) : Option Attribute :=
  attributes.find? fun attr => attr.fullName = fullName

/-- Full name of the attribute that marks members a compiler has added. -/
def compilerGeneratedAttribute : String :=
  "System.Runtime.CompilerServices.CompilerGeneratedAttribute"

end PropertyWeaver
