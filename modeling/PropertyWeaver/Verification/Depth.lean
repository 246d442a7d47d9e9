import PropertyWeaver.Verification.Effect

/-!
# Stack depth of a body

A body is checked by following every path from its first instruction with the depth of the stack.
Each reached index is recorded with one depth and visited once, so the search ends after at most as
many visits as there are instructions. The greatest depth met is the bound that the body needs.
-/

set_option autoImplicit false

namespace PropertyWeaver

/-- Why a body was refused. Offsets are indices of instructions. -/
inductive VerifyError where
  | operandMismatch (opcode : Opcode) (offset : Nat)
  | stackUnderflow (offset : Nat)
  | stackMismatch (offset first second : Nat)
  | unbalancedReturn (offset depth : Nat)
  | invalidTarget (target offset : Nat)
  | invalidLocal (index count offset : Nat)
  | invalidArgument (index count offset : Nat)
  | fallsOffEnd (offset : Nat)
  | emptyBody
  | maxStackTooSmall (declared required : Nat)
  | inMethod (method : String) (error : VerifyError)
  deriving DecidableEq, Repr

def VerifyError.message : VerifyError → String
  | .operandMismatch opcode offset =>
      "Operand mismatch for " ++ opcode.mnemonic ++ " at " ++ positionLabel offset
  | .stackUnderflow offset => "Stack underflow at " ++ positionLabel offset
  | .stackMismatch offset first second =>
      "Inconsistent stack depth at " ++ positionLabel offset ++ ": " ++ toString first ++ " vs " ++
        toString second
  | .unbalancedReturn offset depth =>
      "Unbalanced stack at return " ++ positionLabel offset ++ " (depth " ++ toString depth ++ ")"
  | .invalidTarget target offset =>
      "Invalid branch target " ++ toString target ++ " at " ++ positionLabel offset
  | .invalidLocal index count offset =>
      "Invalid local variable reference: index " ++ toString index ++ " (max " ++ toString count ++
        ") at " ++ positionLabel offset
  | .invalidArgument index count offset =>
      "Invalid argument reference: index " ++ toString index ++ " (max " ++ toString count ++
        ") at " ++ positionLabel offset
  | .fallsOffEnd offset => "Execution falls off end of method at " ++ positionLabel offset
  | .emptyBody => "Method body is empty"
  | .maxStackTooSmall declared required =>
      "Declared max stack " ++ toString declared ++ " is below required depth " ++ toString required
  | .inMethod method error => method ++ ": " ++ error.message

namespace Verification

/-- The depth after an instruction reached with `depth` values on the stack. Operand, argument and
local are checked in this order, then the stack. A return needs exactly what it takes. -/
def depthAfter (body : MethodBody) (shape : BodyShape) (offset depth : Nat)
    (instruction : Instruction) : Except VerifyError Nat := do
  if !instruction.wellFormed then
    throw (.operandMismatch instruction.opcode offset)
  if let some index := instruction.argument? then
    if shape.argumentCount ≤ index then
      throw (.invalidArgument index shape.argumentCount offset)
  if let some index := instruction.local? then
    if body.locals.length ≤ index then
      throw (.invalidLocal index body.locals.length offset)
  let effect := instruction.effect shape
  if instruction.opcode = .ret ∧ depth ≠ effect.pops then
    throw (.unbalancedReturn offset depth)
  if depth < effect.pops then
    throw (.stackUnderflow offset)
  return depth - effect.pops + effect.pushes

/-- The indices that may follow an instruction: a branch target first, then the next index. Both
have to lie inside the body. -/
def successors (size offset : Nat) (instruction : Instruction) : Except VerifyError (List Nat) := do
  let mut following := []
  if let some target := instruction.target? then
    if size ≤ target then
      throw (.invalidTarget target offset)
    following := [target]
  if instruction.fallsThrough then
    if size ≤ offset + 1 then
      throw (.fallsOffEnd offset)
    following := following ++ [offset + 1]
  return following

/-- What is known about a body so far: the depth at each index reached, the indices reached and not
yet visited, and the greatest depth met. -/
structure Search where
  depths : List (Option Nat)
  pending : List Nat
  deepest : Nat
  deriving DecidableEq, Repr

namespace Search

def initial (size : Nat) : Search where
  depths := (List.replicate size none).set 0 (some 0)
  pending := [0]
  deepest := 0

/-- Records that an index is reached with a depth. An index reached before has to agree. -/
def reach (search : Search) (depth : Nat) (offset : Nat) : Except VerifyError Search :=
  match (search.depths[offset]?).join with
  | none =>
      .ok { search with
        depths := search.depths.set offset (some depth)
        pending := offset :: search.pending }
  | some recorded =>
      if recorded = depth then .ok search else .error (.stackMismatch offset recorded depth)

def visit (body : MethodBody) (shape : BodyShape) (search : Search) (offset : Nat)
    (instruction : Instruction) : Except VerifyError Search := do
  let depth := ((search.depths[offset]?).join).getD 0
  let next ← depthAfter body shape offset depth instruction
  let following ← successors body.instructions.length offset instruction
  following.foldlM (fun search successor => search.reach next successor)
    { search with deepest := max search.deepest next }

/-- Visits pending indices, the one reached last first, until none is left. `budget` bounds the
number of visits; each index needs one at most. -/
def run (body : MethodBody) (shape : BodyShape) : (budget : Nat) → Search → Except VerifyError Nat
  | 0, search => .ok search.deepest
  | budget + 1, search =>
      match search.pending with
      | [] => .ok search.deepest
      | offset :: pending =>
          match body.instructions[offset]? with
          | none => .ok search.deepest
          | some instruction => do
              let search ← visit body shape { search with pending := pending } offset instruction
              run body shape budget search

end Search

/-- The greatest stack depth that the body reaches, if it is well formed: operands fit, slots and
targets exist, no path takes more than there is, all paths into an index agree on the depth, and
none runs past the end. Code that no path reaches is not checked. -/
def requiredStack (body : MethodBody) (shape : BodyShape) : Except VerifyError Nat :=
  if body.instructions.isEmpty then
    .error .emptyBody
  else
    Search.run body shape body.instructions.length (Search.initial body.instructions.length)

end Verification

def MethodBody.verify (body : MethodBody) (shape : BodyShape) : Except VerifyError Unit := do
  let required ← Verification.requiredStack body shape
  if body.maxStack.toNat < required then
    throw (.maxStackTooSmall body.maxStack.toNat required)

def MethodDef.verify (method : MethodDef) : Except VerifyError Unit :=
  match method.body with
  | some body => body.verify method.shape
  | none => .ok ()

def TypeDef.verifyMethod (type : TypeDef) (method : MethodDef) : Except VerifyError Unit :=
  method.verify.mapError (.inMethod (type.fullName ++ "::" ++ method.name))

def Module.verify (module : Module) : Except VerifyError Unit :=
  module.types.forM fun type => type.methods.forM type.verifyMethod

end PropertyWeaver
