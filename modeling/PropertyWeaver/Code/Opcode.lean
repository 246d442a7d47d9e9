/-!
# Opcodes

The instruction set of the stack machine: one byte names an operation, and the operation fixes the
kind of operand that follows it. Bytes are grouped by purpose, so the code space has gaps;
`Opcode.ofByte?` refuses every byte in a gap.
-/

set_option autoImplicit false

namespace PropertyWeaver

/-- Operations of the stack machine, in the order of their bytes. -/
inductive Opcode where
  | nop | ldarg0 | ldarg1 | ldarg2 | ldarg3 | ldargS | dup | pop
  | ldloc0 | ldloc1 | ldloc2 | ldloc3 | ldlocS | stloc0 | stloc1 | stloc2 | stloc3 | stlocS
  | ldnull
  | ldcI4_0 | ldcI4_1 | ldcI4_2 | ldcI4_3 | ldcI4_4 | ldcI4_5 | ldcI4_6 | ldcI4_7 | ldcI4_8
  | ldcI4S | ldcI4 | ldcI8 | ldcR4 | ldcR8 | ldstr
  | ceq | convI8 | convU8 | box
  | br | brtrue | brfalse | ret
  | call | callvirt | newobj
  | ldfld | stfld | ldsfld | stsfld
  | newarr | ldelemRef | stelemRef
  deriving DecidableEq, Repr, Inhabited

/-- Kinds of operand that can follow an opcode. A 32-bit integer has a short and a fixed form. -/
inductive OperandKind where
  | none | shortInt32 | int32 | int64 | float32 | float64 | string | slot | field | method | type
  | branch
  deriving DecidableEq, Repr

namespace Opcode

def all : List Opcode :=
  [.nop, .ldarg0, .ldarg1, .ldarg2, .ldarg3, .ldargS, .dup, .pop,
   .ldloc0, .ldloc1, .ldloc2, .ldloc3, .ldlocS, .stloc0, .stloc1, .stloc2, .stloc3, .stlocS,
   .ldnull,
   .ldcI4_0, .ldcI4_1, .ldcI4_2, .ldcI4_3, .ldcI4_4, .ldcI4_5, .ldcI4_6, .ldcI4_7, .ldcI4_8,
   .ldcI4S, .ldcI4, .ldcI8, .ldcR4, .ldcR8, .ldstr,
   .ceq, .convI8, .convU8, .box,
   .br, .brtrue, .brfalse, .ret,
   .call, .callvirt, .newobj,
   .ldfld, .stfld, .ldsfld, .stsfld,
   .newarr, .ldelemRef, .stelemRef]

/-- The byte that encodes the opcode. The high half of the byte is the purpose: arguments and stack,
locals, literals, comparison and conversion, control flow, calls, fields, arrays. -/
def byte : Opcode → UInt8
  | .nop => 0x00 | .ldarg0 => 0x01 | .ldarg1 => 0x02 | .ldarg2 => 0x03 | .ldarg3 => 0x04
  | .ldargS => 0x05 | .dup => 0x06 | .pop => 0x07
  | .ldloc0 => 0x10 | .ldloc1 => 0x11 | .ldloc2 => 0x12 | .ldloc3 => 0x13 | .ldlocS => 0x14
  | .stloc0 => 0x15 | .stloc1 => 0x16 | .stloc2 => 0x17 | .stloc3 => 0x18 | .stlocS => 0x19
  | .ldnull => 0x20
  | .ldcI4_0 => 0x21 | .ldcI4_1 => 0x22 | .ldcI4_2 => 0x23 | .ldcI4_3 => 0x24 | .ldcI4_4 => 0x25
  | .ldcI4_5 => 0x26 | .ldcI4_6 => 0x27 | .ldcI4_7 => 0x28 | .ldcI4_8 => 0x29
  | .ldcI4S => 0x2A | .ldcI4 => 0x2B | .ldcI8 => 0x2C | .ldcR4 => 0x2D | .ldcR8 => 0x2E
  | .ldstr => 0x2F
  | .ceq => 0x30 | .convI8 => 0x31 | .convU8 => 0x32 | .box => 0x33
  | .br => 0x40 | .brtrue => 0x41 | .brfalse => 0x42 | .ret => 0x43
  | .call => 0x50 | .callvirt => 0x51 | .newobj => 0x52
  | .ldfld => 0x60 | .stfld => 0x61 | .ldsfld => 0x62 | .stsfld => 0x63
  | .newarr => 0x70 | .ldelemRef => 0x71 | .stelemRef => 0x72

/-- The opcode that a byte encodes; `none` in the gaps of the code space. -/
def ofByte? (byte : UInt8) : Option Opcode :=
  all.find? fun opcode => opcode.byte = byte

def mnemonic : Opcode → String
  | .nop => "nop"
  | .ldarg0 => "ldarg.0" | .ldarg1 => "ldarg.1" | .ldarg2 => "ldarg.2" | .ldarg3 => "ldarg.3"
  | .ldargS => "ldarg.s"
  | .dup => "dup" | .pop => "pop"
  | .ldloc0 => "ldloc.0" | .ldloc1 => "ldloc.1" | .ldloc2 => "ldloc.2" | .ldloc3 => "ldloc.3"
  | .ldlocS => "ldloc.s"
  | .stloc0 => "stloc.0" | .stloc1 => "stloc.1" | .stloc2 => "stloc.2" | .stloc3 => "stloc.3"
  | .stlocS => "stloc.s"
  | .ldnull => "ldnull"
  | .ldcI4_0 => "ldc.i4.0" | .ldcI4_1 => "ldc.i4.1" | .ldcI4_2 => "ldc.i4.2"
  | .ldcI4_3 => "ldc.i4.3" | .ldcI4_4 => "ldc.i4.4" | .ldcI4_5 => "ldc.i4.5"
  | .ldcI4_6 => "ldc.i4.6" | .ldcI4_7 => "ldc.i4.7" | .ldcI4_8 => "ldc.i4.8"
  | .ldcI4S => "ldc.i4.s" | .ldcI4 => "ldc.i4" | .ldcI8 => "ldc.i8"
  | .ldcR4 => "ldc.r4" | .ldcR8 => "ldc.r8" | .ldstr => "ldstr"
  | .ceq => "ceq" | .convI8 => "conv.i8" | .convU8 => "conv.u8" | .box => "box"
  | .br => "br" | .brtrue => "brtrue" | .brfalse => "brfalse" | .ret => "ret"
  | .call => "call" | .callvirt => "callvirt" | .newobj => "newobj"
  | .ldfld => "ldfld" | .stfld => "stfld" | .ldsfld => "ldsfld" | .stsfld => "stsfld"
  | .newarr => "newarr" | .ldelemRef => "ldelem.ref" | .stelemRef => "stelem.ref"

def ofMnemonic? (name : String) : Option Opcode :=
  all.find? fun opcode => opcode.mnemonic = name

def operandKind : Opcode → OperandKind
  | .ldargS | .ldlocS | .stlocS => .slot
  | .ldcI4S => .shortInt32
  | .ldcI4 => .int32
  | .ldcI8 => .int64
  | .ldcR4 => .float32
  | .ldcR8 => .float64
  | .ldstr => .string
  | .box | .newarr => .type
  | .br | .brtrue | .brfalse => .branch
  | .call | .callvirt | .newobj => .method
  | .ldfld | .stfld | .ldsfld | .stsfld => .field
  | _ => .none

def isBranch : Opcode → Bool
  | .br | .brtrue | .brfalse => true
  | _ => false

def isConditionalBranch : Opcode → Bool
  | .brtrue | .brfalse => true
  | _ => false

/-- Operations that invoke a method, constructors included. -/
def isCall : Opcode → Bool
  | .call | .callvirt | .newobj => true
  | _ => false

/-- Operations that push a 32-bit integer literal, in any of its forms. -/
def isInt32Literal : Opcode → Bool
  | .ldcI4_0 | .ldcI4_1 | .ldcI4_2 | .ldcI4_3 | .ldcI4_4 | .ldcI4_5 | .ldcI4_6 | .ldcI4_7
  | .ldcI4_8 | .ldcI4S | .ldcI4 => true
  | _ => false

/-- Operations after which control never continues with the next instruction. -/
def isTerminator : Opcode → Bool
  | .br | .ret => true
  | _ => false

@[simp]
theorem ofByte?_byte (opcode : Opcode) : ofByte? opcode.byte = some opcode := by
  cases opcode <;> decide

theorem byte_of_ofByte? {byte : UInt8} {opcode : Opcode} (found : ofByte? byte = some opcode) :
    opcode.byte = byte := by
  simpa using List.find?_some found

end Opcode

end PropertyWeaver
