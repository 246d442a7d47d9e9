import PropertyWeaver.Module.Constant

/-!
# Tags

A signature begins with the tag of its form, a constant with that of its kind.
-/

set_option autoImplicit false

namespace PropertyWeaver

/-- The forms of a signature that have a tag of their own. -/
inductive TypeForm where
  | builtin (type : Builtin)
  | classType | valueType | instantiated | typeParameter | methodParameter | array
  deriving DecidableEq, Repr

namespace TypeForm

def all : List TypeForm :=
  [.builtin .void, .builtin .bool, .builtin .char, .builtin .int8, .builtin .uint8, .builtin .int16,
   .builtin .uint16, .builtin .int32, .builtin .uint32, .builtin .int64, .builtin .uint64,
   .builtin .float32, .builtin .float64, .builtin .string, .builtin .object, .classType, .valueType,
   .instantiated, .typeParameter, .methodParameter, .array]

def tag : TypeForm → UInt8
  | .builtin .void => 0x01
  | .builtin .bool => 0x02
  | .builtin .char => 0x03
  | .builtin .int8 => 0x04
  | .builtin .uint8 => 0x05
  | .builtin .int16 => 0x06
  | .builtin .uint16 => 0x07
  | .builtin .int32 => 0x08
  | .builtin .uint32 => 0x09
  | .builtin .int64 => 0x0A
  | .builtin .uint64 => 0x0B
  | .builtin .float32 => 0x0C
  | .builtin .float64 => 0x0D
  | .builtin .string => 0x0E
  | .builtin .object => 0x0F
  | .classType => 0x10
  | .valueType => 0x11
  | .instantiated => 0x12
  | .typeParameter => 0x13
  | .methodParameter => 0x14
  | .array => 0x15

/-- The form with a tag. Zero and the tags above those of the forms have none. -/
def ofTag? (tag : UInt8) : Option TypeForm :=
  all.find? fun form => form.tag = tag

@[simp]
theorem ofTag?_tag (form : TypeForm) : ofTag? form.tag = some form := by
  cases form with
  | builtin type => cases type <;> decide
  | _ => decide

end TypeForm

namespace ConstantKind

def all : List ConstantKind :=
  [.null, .bool, .char, .int8, .uint8, .int16, .uint16, .int32, .uint32, .int64, .uint64, .float32,
   .float64, .string, .type, .array]

def tag : ConstantKind → UInt8
  | .null => 0x00
  | .bool => 0x01
  | .char => 0x02
  | .int8 => 0x03
  | .uint8 => 0x04
  | .int16 => 0x05
  | .uint16 => 0x06
  | .int32 => 0x07
  | .uint32 => 0x08
  | .int64 => 0x09
  | .uint64 => 0x0A
  | .float32 => 0x0B
  | .float64 => 0x0C
  | .string => 0x0D
  | .type => 0x0E
  | .array => 0x0F

def ofTag? (tag : UInt8) : Option ConstantKind :=
  all.find? fun kind => kind.tag = tag

@[simp]
theorem ofTag?_tag (kind : ConstantKind) : ofTag? kind.tag = some kind := by
  cases kind <;> decide

end ConstantKind

end PropertyWeaver
