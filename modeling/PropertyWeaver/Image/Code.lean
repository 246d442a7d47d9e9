import PropertyWeaver.Image.Signature

/-!
# Code in an image

An instruction is its opcode byte followed by the operand. Writing follows the operand, and reading
follows the opcode, so only instructions whose operand fits their opcode are read back.
-/

set_option autoImplicit false

namespace PropertyWeaver

open Decoder

namespace Operand

/-- The bytes of an operand. A 32-bit integer has its short form only behind an opcode that asks for
it, and a branch target is cut to 32 bits. -/
def encode (kind : OperandKind) : Operand → Bytes
  | .none => []
  | .int32 value => if kind = .shortInt32 then Bytes.varint value else Bytes.int32 value
  | .int64 value => Bytes.int64 value
  | .float32 value => Bytes.uint32 value.bits
  | .float64 value => Bytes.uint64 value.bits
  | .string value => Bytes.string value
  | .slot index => Bytes.uint8 index
  | .field member => member.encode
  | .method member => member.encode
  | .type sig => sig.encode
  | .branch target => Bytes.uint32 target.toUInt32

def decoder : OperandKind → Decoder Operand
  | .none => return .none
  | .shortInt32 => return .int32 (← take .varint)
  | .int32 => return .int32 (← take .int32)
  | .int64 => return .int64 (← take .int64)
  | .float32 => return .float32 (← take .float32)
  | .float64 => return .float64 (← take .float64)
  | .string => return .string (← part .string)
  | .slot => return .slot (← take .uint8)
  | .field => return .field (← part .fieldRef)
  | .method => return .method (← part .methodRef)
  | .type => return .type (← part .typeSig)
  | .branch => do
      let target : UInt32 ← take .uint32
      return .branch target.toUInt64

end Operand

namespace Instruction

def encode (instruction : Instruction) : Bytes :=
  instruction.opcode.byte :: instruction.operand.encode instruction.opcode.operandKind

def decoder : Decoder Instruction := do
  let opcode : Opcode ← take .opcode
  let operand ← Operand.decoder opcode.operandKind
  return ⟨opcode, operand⟩

end Instruction

namespace MethodBody

def encode (body : MethodBody) : Bytes :=
  Bytes.uint16 body.maxStack ++ Bytes.bool body.initLocals ++
    Bytes.sequence TypeSig.encode body.locals ++
    Bytes.sequence Instruction.encode body.instructions

def decoder : Decoder MethodBody := do
  let maxStack ← take .uint16
  let initLocals ← take .bool
  let locals ← parts .typeSig
  let instructions ← parts .instruction
  return ⟨maxStack, locals, initLocals, instructions⟩

end MethodBody

end PropertyWeaver
