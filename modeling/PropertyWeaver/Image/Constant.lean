import PropertyWeaver.Image.Signature

/-!
# Constants in an image

A constant is the tag of its kind followed by its value.
-/

set_option autoImplicit false

namespace PropertyWeaver

open Decoder

namespace Constant

mutual

/-- The value of a constant, without the tag. -/
def payload : Constant → Bytes
  | .null => []
  | .bool value => Bytes.bool value
  | .char unit => Bytes.uint16 unit
  | .int8 value => Bytes.uint8 value.toUInt8
  | .uint8 value => Bytes.uint8 value
  | .int16 value => Bytes.uint16 value.toUInt16
  | .uint16 value => Bytes.uint16 value
  | .int32 value => Bytes.int32 value
  | .uint32 value => Bytes.uint32 value
  | .int64 value => Bytes.int64 value
  | .uint64 value => Bytes.uint64 value
  | .float32 value => Bytes.uint32 value.bits
  | .float64 value => Bytes.uint64 value.bits
  | .string value => Bytes.string value
  | .type sig => sig.encode
  | .array items => Bytes.count items.length ++ encodeAll items

/-- Several constants, each with its tag, without their number. -/
def encodeAll : List Constant → Bytes
  | [] => []
  | item :: rest => item.kind.tag :: item.payload ++ encodeAll rest

end

def encode (constant : Constant) : Bytes :=
  constant.kind.tag :: constant.payload

@[simp]
theorem encodeAll_eq_flatMap (items : List Constant) : encodeAll items = items.flatMap encode := by
  induction items with
  | nil => rfl
  | cons item rest ih => simp [encodeAll, encode, ih]

def decoder : Decoder Constant := do
  let kind : ConstantKind ← take .constantKind
  match kind with
  | .null => return .null
  | .bool => return .bool (← take .bool)
  | .char => return .char (← take .uint16)
  | .int8 =>
      let byte : UInt8 ← take .uint8
      return .int8 byte.toInt8
  | .uint8 => return .uint8 (← take .uint8)
  | .int16 =>
      let word : UInt16 ← take .uint16
      return .int16 word.toInt16
  | .uint16 => return .uint16 (← take .uint16)
  | .int32 => return .int32 (← take .int32)
  | .uint32 => return .uint32 (← take .uint32)
  | .int64 => return .int64 (← take .int64)
  | .uint64 => return .uint64 (← take .uint64)
  | .float32 => return .float32 (← take .float32)
  | .float64 => return .float64 (← take .float64)
  | .string => return .string (← part .string)
  | .type => return .type (← part .typeSig)
  | .array => return .array (← parts .constant)

end Constant

namespace Attribute

def encode (attr : Attribute) : Bytes :=
  attr.type.encode ++ Bytes.sequence Constant.encode attr.arguments

def decoder : Decoder Attribute := do
  let type ← part .typeRef
  let arguments ← parts .constant
  return ⟨type, arguments⟩

end Attribute

end PropertyWeaver
