import PropertyWeaver.Code.Instruction

/-!
# Method bodies

A body is a list of instructions with its locals and a bound on the depth of the evaluation stack.
Branches name instructions by index, so inserting a block shifts the targets behind it. A target is
a 64-bit word, and one that is shifted past the last word goes on from zero.
-/

set_option autoImplicit false

namespace PropertyWeaver

/-- The instruction with a branch target renamed by `shift`. Other operands stay as they are. -/
def Instruction.mapTarget (shift : UInt64 → UInt64) (instruction : Instruction) : Instruction :=
  match instruction.operand with
  | .branch target => { instruction with operand := .branch (shift target) }
  | _ => instruction

/-- Code of a method. Nothing is required of `maxStack`, of the slots or of the targets: that is
what verification establishes. -/
structure MethodBody where
  maxStack : UInt16
  locals : List TypeSig
  initLocals : Bool
  instructions : List Instruction
  deriving DecidableEq, Inhabited

namespace MethodBody

def empty : MethodBody := ⟨0, [], false, []⟩

def ofCode (maxStack : UInt16) (code : List Instruction) : MethodBody :=
  ⟨maxStack, [], false, code⟩

/-- Where a target lands when `count` instructions are put before index `at_`. -/
def shiftTarget (at_ count : Nat) (target : UInt64) : UInt64 :=
  if at_ ≤ target.toNat then target + UInt64.ofNat count else target

/-- Puts a block before the instruction at `at_`. Branches to that instruction or behind it follow
it, so a branch to `at_` skips the block. Targets inside the block are left alone. -/
def insert (body : MethodBody) (at_ : Nat) (block : List Instruction) : MethodBody :=
  let shifted := body.instructions.map (Instruction.mapTarget (shiftTarget at_ block.length))
  { body with instructions := shifted.take at_ ++ block ++ shifted.drop at_ }

end MethodBody

end PropertyWeaver
