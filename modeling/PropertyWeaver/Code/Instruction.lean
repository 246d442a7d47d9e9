import PropertyWeaver.Code.Opcode
import PropertyWeaver.Number.Shortest
import PropertyWeaver.Signature.Member
import PropertyWeaver.Text.Quoted

/-!
# Instructions

An instruction is an opcode with an operand. The two are not required to fit: code read from an
image always fits, code built by hand may not, and `Operand.fits` tells. A branch names its target
by the index of an instruction.
-/

set_option autoImplicit false

namespace PropertyWeaver

inductive Operand where
  | none
  | int32 (value : Int32)
  | int64 (value : Int64)
  | float32 (value : Binary32)
  | float64 (value : Binary64)
  | string (value : String)
  | slot (index : UInt8)
  | field (member : FieldRef)
  | method (member : MethodRef)
  | type (sig : TypeSig)
  | branch (target : UInt64)
  deriving DecidableEq, Inhabited

/-- Whether an operand is of the given kind. A 32-bit integer fits both of its forms. -/
def Operand.fits : Operand → OperandKind → Bool
  | .none, .none
  | .int32 _, .int32
  | .int32 _, .shortInt32
  | .int64 _, .int64
  | .float32 _, .float32
  | .float64 _, .float64
  | .string _, .string
  | .slot _, .slot
  | .field _, .field
  | .method _, .method
  | .type _, .type
  | .branch _, .branch => true
  | _, _ => false

structure Instruction where
  opcode : Opcode
  operand : Operand
  deriving DecidableEq, Inhabited

def Opcode.plain (opcode : Opcode) : Instruction :=
  ⟨opcode, .none⟩

def positionLabel (index : Nat) : String :=
  "IL_" ++ Text.paddedDecimal 4 index

def Operand.text? : Operand → Option String
  | .none => Option.none
  | .int32 value => some (toString value.toInt)
  | .int64 value => some (toString value.toInt)
  | .float32 value => some value.text
  | .float64 value => some value.text
  | .string value => some (Text.quoted value)
  | .slot index => some (toString index.toNat)
  | .field member => some member.display
  | .method member => some member.display
  | .type sig => some sig.fullName
  | .branch target => some (positionLabel target.toNat)

namespace Instruction

def wellFormed (instruction : Instruction) : Bool :=
  instruction.operand.fits instruction.opcode.operandKind

def field? (instruction : Instruction) : Option FieldRef :=
  match instruction.operand with
  | .field member => some member
  | _ => none

def method? (instruction : Instruction) : Option MethodRef :=
  match instruction.operand with
  | .method member => some member
  | _ => none

/-- The index that a branch operand names, whatever the opcode. -/
def target? (instruction : Instruction) : Option Nat :=
  match instruction.operand with
  | .branch target => some target.toNat
  | _ => none

def scopes (instruction : Instruction) : List String :=
  match instruction.operand with
  | .field member => member.scopes
  | .method member => member.scopes
  | .type sig => sig.scopes
  | _ => []

def text (instruction : Instruction) : String :=
  match instruction.operand.text? with
  | some operand => instruction.opcode.mnemonic ++ " " ++ operand
  | none => instruction.opcode.mnemonic

def listing (code : List Instruction) : String :=
  String.join (code.mapIdx fun index instruction =>
    positionLabel index ++ ": " ++ instruction.text ++ "\n")

end Instruction

end PropertyWeaver
