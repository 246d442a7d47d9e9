import Mathlib.Data.List.Chain
import PropertyWeaver.Verification.Depth

/-!
# The depth machine

A configuration of the machine is the index of an instruction and the depth of the stack in front of
it. The machine starts at index 0 with an empty stack and knows nothing of values, so a conditional
branch may go both ways. A body is stack safe if every configuration that the machine reaches is
legal and no index is reached with two depths.
-/

set_option autoImplicit false

namespace PropertyWeaver

/-- The indices to which control may go from an instruction at `index`. Branches name an index, and
everything but an unconditional branch and a return may continue with the next instruction. -/
inductive Instruction.Leads (instruction : Instruction) (index : Nat) : Nat → Prop where
  | branch {target : UInt64} : instruction.opcode.isBranch = true →
      instruction.operand = .branch target → Leads instruction index target.toNat
  | next : instruction.opcode ≠ .br → instruction.opcode ≠ .ret →
      Leads instruction index (index + 1)

namespace Verification

structure Point where
  index : Nat
  depth : Nat
  deriving DecidableEq, Repr

def Point.depthBehind (point : Point) (shape : BodyShape) (instruction : Instruction) : Nat :=
  point.depth - (instruction.effect shape).pops + (instruction.effect shape).pushes

/-- One step: the instruction finds what it pops and control goes where it may. -/
inductive Step (body : MethodBody) (shape : BodyShape) : Point → Point → Prop where
  | mk {point : Point} {instruction : Instruction} {next : Nat} :
      body.instructions[point.index]? = some instruction →
      (instruction.effect shape).pops ≤ point.depth →
      instruction.Leads point.index next →
      Step body shape point ⟨next, point.depthBehind shape instruction⟩

/-- What the machine reaches in any number of steps. -/
def Reachable (body : MethodBody) (shape : BodyShape) : Point → Prop :=
  Relation.ReflTransGen (Step body shape) ⟨0, 0⟩

/-- The points of a run, from the start on, each one step behind the one before. -/
structure Run (body : MethodBody) (shape : BodyShape) (points : List Point) : Prop where
  starts : points.head? = some ⟨0, 0⟩
  steps : points.IsChain (Step body shape)

/-- An instruction may be executed at a point. -/
structure Legal (body : MethodBody) (shape : BodyShape) (point : Point)
    (instruction : Instruction) : Prop where
  operand : instruction.wellFormed = true
  argument : ∀ index ∈ instruction.argument?, index < shape.argumentCount
  slot : ∀ index ∈ instruction.local?, index < body.locals.length
  enough : (instruction.effect shape).pops ≤ point.depth
  balanced : instruction.opcode = .ret → point.depth = (instruction.effect shape).pops
  inside : ∀ next, instruction.Leads point.index next → next < body.instructions.length

/-- Every reachable point has an instruction that may be executed there, and every index is reached
with one depth. Nothing is asked of code that is not reached. -/
structure StackSafe (body : MethodBody) (shape : BodyShape) : Prop where
  nonempty : body.instructions ≠ []
  consistent : ∀ left right, Reachable body shape left → Reachable body shape right →
    left.index = right.index → left.depth = right.depth
  legal : ∀ point, Reachable body shape point →
    ∃ instruction, body.instructions[point.index]? = some instruction ∧
      Legal body shape point instruction

/-- What an error says is so: some reachable point has the defect that it names, at the index and
with the numbers that it names. -/
inductive Defect (body : MethodBody) (shape : BodyShape) : VerifyError → Prop where
  | emptyBody : body.instructions = [] → Defect body shape .emptyBody
  | operandMismatch {point : Point} {instruction : Instruction} :
      Reachable body shape point → body.instructions[point.index]? = some instruction →
      instruction.wellFormed = false →
      Defect body shape (.operandMismatch instruction.opcode point.index)
  | invalidArgument {point : Point} {instruction : Instruction} {index : Nat} :
      Reachable body shape point → body.instructions[point.index]? = some instruction →
      instruction.argument? = some index → shape.argumentCount ≤ index →
      Defect body shape (.invalidArgument index shape.argumentCount point.index)
  | invalidLocal {point : Point} {instruction : Instruction} {index : Nat} :
      Reachable body shape point → body.instructions[point.index]? = some instruction →
      instruction.local? = some index → body.locals.length ≤ index →
      Defect body shape (.invalidLocal index body.locals.length point.index)
  | unbalancedReturn {point : Point} {instruction : Instruction} :
      Reachable body shape point → body.instructions[point.index]? = some instruction →
      instruction.opcode = .ret → point.depth ≠ (instruction.effect shape).pops →
      Defect body shape (.unbalancedReturn point.index point.depth)
  | stackUnderflow {point : Point} {instruction : Instruction} :
      Reachable body shape point → body.instructions[point.index]? = some instruction →
      point.depth < (instruction.effect shape).pops →
      Defect body shape (.stackUnderflow point.index)
  | invalidTarget {point : Point} {instruction : Instruction} {target : UInt64} :
      Reachable body shape point → body.instructions[point.index]? = some instruction →
      instruction.opcode.isBranch = true → instruction.operand = .branch target →
      body.instructions.length ≤ target.toNat →
      Defect body shape (.invalidTarget target.toNat point.index)
  | fallsOffEnd {point : Point} {instruction : Instruction} :
      Reachable body shape point → body.instructions[point.index]? = some instruction →
      instruction.opcode ≠ .br → instruction.opcode ≠ .ret →
      body.instructions.length ≤ point.index + 1 →
      Defect body shape (.fallsOffEnd point.index)
  | stackMismatch {left right : Point} :
      Reachable body shape left → Reachable body shape right → left.index = right.index →
      left.depth ≠ right.depth →
      Defect body shape (.stackMismatch left.index left.depth right.depth)

variable {body : MethodBody} {shape : BodyShape}

theorem Reachable.start : Reachable body shape ⟨0, 0⟩ :=
  .refl

theorem Reachable.step {point next : Point} (reached : Reachable body shape point)
    (step : Step body shape point next) : Reachable body shape next :=
  .tail reached step

/-- The machine depends on the instructions of a body alone. -/
theorem Reachable.congr {other : MethodBody} {point : Point} (reached : Reachable body shape point)
    (code : other.instructions = body.instructions) : Reachable other shape point := by
  induction reached with
  | refl => exact .start
  | tail _ step reached =>
      cases step with
      | mk found enough leads => exact reached.step (.mk (code ▸ found) enough leads)

theorem Run.reachable {points : List Point} (run : Run body shape points) {point : Point}
    (passes : point ∈ points) : Reachable body shape point := by
  refine run.steps.induction (Reachable body shape) points (fun _ _ step reached => reached.step step)
    (fun nonempty => ?_) point passes
  have first := (List.head?_eq_some_head nonempty).symm.trans run.starts
  rw [Option.some.inj first]
  exact .start

theorem StackSafe.legal_at (safe : StackSafe body shape) {point : Point}
    {instruction : Instruction} (reached : Reachable body shape point)
    (found : body.instructions[point.index]? = some instruction) :
    Legal body shape point instruction := by
  obtain ⟨_, same, legal⟩ := safe.legal point reached
  obtain rfl := Option.some.inj (found.symm.trans same)
  exact legal

/-- The declared stack plays no part in safety. -/
theorem StackSafe.congr {other : MethodBody} (safe : StackSafe body shape)
    (code : other.instructions = body.instructions) (locals : other.locals = body.locals) :
    StackSafe other shape where
  nonempty := code ▸ safe.nonempty
  consistent left right reachesLeft reachesRight :=
    safe.consistent left right (reachesLeft.congr code.symm) (reachesRight.congr code.symm)
  legal point reached := by
    obtain ⟨instruction, found, legal⟩ := safe.legal point (reached.congr code.symm)
    exact ⟨instruction, code ▸ found, {
      operand := legal.operand
      argument := legal.argument
      slot := locals ▸ legal.slot
      enough := legal.enough
      balanced := legal.balanced
      inside := code ▸ legal.inside }⟩

/-- A stack safe body gives no ground for an error. -/
theorem Defect.not_stackSafe {error : VerifyError} (defect : Defect body shape error) :
    ¬ StackSafe body shape := by
  intro safe
  cases defect with
  | emptyBody empty => exact safe.nonempty empty
  | operandMismatch reached found mismatch =>
      have legal := safe.legal_at reached found
      simp [legal.operand] at mismatch
  | invalidArgument reached found names outside =>
      have legal := safe.legal_at reached found
      exact absurd (legal.argument _ names) (Nat.not_lt.mpr outside)
  | invalidLocal reached found names outside =>
      have legal := safe.legal_at reached found
      exact absurd (legal.slot _ names) (Nat.not_lt.mpr outside)
  | unbalancedReturn reached found returns unbalanced =>
      have legal := safe.legal_at reached found
      exact unbalanced (legal.balanced returns)
  | stackUnderflow reached found few =>
      have legal := safe.legal_at reached found
      exact absurd legal.enough (Nat.not_le.mpr few)
  | invalidTarget reached found branches target outside =>
      have legal := safe.legal_at reached found
      exact absurd (legal.inside _ (.branch branches target)) (Nat.not_lt.mpr outside)
  | fallsOffEnd reached found jumps returns outside =>
      have legal := safe.legal_at reached found
      exact absurd (legal.inside _ (.next jumps returns)) (Nat.not_lt.mpr outside)
  | stackMismatch left right same differ =>
      exact differ (safe.consistent _ _ left right same)

end Verification

end PropertyWeaver
