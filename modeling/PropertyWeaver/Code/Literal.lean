import PropertyWeaver.Code.Instruction
import PropertyWeaver.Module.Constant

/-!
# Literals and slots

Instructions that push a literal or move a slot, in their most compact form.
-/

set_option autoImplicit false

namespace PropertyWeaver

namespace Instruction

def pushInt32 (value : Int32) : Instruction :=
  match value.toInt with
  | 0 => Opcode.ldcI4_0.plain
  | 1 => Opcode.ldcI4_1.plain
  | 2 => Opcode.ldcI4_2.plain
  | 3 => Opcode.ldcI4_3.plain
  | 4 => Opcode.ldcI4_4.plain
  | 5 => Opcode.ldcI4_5.plain
  | 6 => Opcode.ldcI4_6.plain
  | 7 => Opcode.ldcI4_7.plain
  | 8 => Opcode.ldcI4_8.plain
  | _ => ⟨.ldcI4S, .int32 value⟩

def loadArgument (index : UInt8) : Instruction :=
  match index.toNat with
  | 0 => Opcode.ldarg0.plain
  | 1 => Opcode.ldarg1.plain
  | 2 => Opcode.ldarg2.plain
  | 3 => Opcode.ldarg3.plain
  | _ => ⟨.ldargS, .slot index⟩

def loadLocal (index : UInt8) : Instruction :=
  match index.toNat with
  | 0 => Opcode.ldloc0.plain
  | 1 => Opcode.ldloc1.plain
  | 2 => Opcode.ldloc2.plain
  | 3 => Opcode.ldloc3.plain
  | _ => ⟨.ldlocS, .slot index⟩

def storeLocal (index : UInt8) : Instruction :=
  match index.toNat with
  | 0 => Opcode.stloc0.plain
  | 1 => Opcode.stloc1.plain
  | 2 => Opcode.stloc2.plain
  | 3 => Opcode.stloc3.plain
  | _ => ⟨.stlocS, .slot index⟩

def pushString (value : String) : Instruction :=
  ⟨.ldstr, .string value⟩

end Instruction

/-- Code that pushes a constant. A 64-bit integer that fits 32 bits is pushed as such and widened,
with its sign if it is signed and with zeros if it is not. Null, characters, 8-bit integers, types
and arrays have no literal form. -/
def Constant.push? : Constant → Option (List Instruction)
  | .string value => some [.pushString value]
  | .bool value => some [.pushInt32 (if value then 1 else 0)]
  | .int16 value => some [.pushInt32 value.toInt32]
  | .uint16 value => some [.pushInt32 value.toUInt32.toInt32]
  | .int32 value => some [.pushInt32 value]
  | .uint32 value => some [.pushInt32 value.toInt32]
  | .int64 value =>
      if value.toInt32.toInt64 = value then
        some [.pushInt32 value.toInt32, Opcode.convI8.plain]
      else
        some [⟨.ldcI8, .int64 value⟩]
  | .uint64 value =>
      if value.toUInt32.toUInt64 = value then
        some [.pushInt32 value.toUInt32.toInt32, Opcode.convU8.plain]
      else
        some [⟨.ldcI8, .int64 value.toInt64⟩]
  | .float32 value => some [⟨.ldcR4, .float32 value⟩]
  | .float64 value => some [⟨.ldcR8, .float64 value⟩]
  | .null | .char _ | .int8 _ | .uint8 _ | .type _ | .array _ => none

end PropertyWeaver
