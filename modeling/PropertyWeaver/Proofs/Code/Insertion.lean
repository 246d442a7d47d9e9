import Mathlib.Algebra.Ring.Nat
import PropertyWeaver.Verification.Effect

/-!
# Positions after an insertion

Every instruction of the old body is found again at its shifted index, with its target shifted the
same way, and the block lies in between. Shifting a target does not wrap around as long as the new
length is a 64-bit word.
-/

set_option autoImplicit false

namespace PropertyWeaver

namespace Instruction

variable (shift : UInt64 → UInt64) (instruction : Instruction)

@[simp] theorem opcode_mapTarget : (instruction.mapTarget shift).opcode = instruction.opcode := by
  unfold mapTarget
  split <;> rfl

@[simp] theorem method?_mapTarget :
    (instruction.mapTarget shift).method? = instruction.method? := by
  obtain ⟨opcode, operand⟩ := instruction
  cases operand <;> rfl

@[simp] theorem slot?_mapTarget : (instruction.mapTarget shift).slot? = instruction.slot? := by
  obtain ⟨opcode, operand⟩ := instruction
  cases operand <;> rfl

@[simp] theorem wellFormed_mapTarget :
    (instruction.mapTarget shift).wellFormed = instruction.wellFormed := by
  obtain ⟨opcode, operand⟩ := instruction
  cases operand with
  | branch target =>
      simp only [wellFormed, mapTarget]
      cases opcode.operandKind <;> rfl
  | _ => rfl

@[simp] theorem argument?_mapTarget :
    (instruction.mapTarget shift).argument? = instruction.argument? := by
  simp [argument?]

@[simp] theorem local?_mapTarget :
    (instruction.mapTarget shift).local? = instruction.local? := by
  simp [local?]

@[simp] theorem effect_mapTarget (shape : BodyShape) :
    (instruction.mapTarget shift).effect shape = instruction.effect shape := by
  simp [effect]

theorem operand_mapTarget_eq_branch {target : UInt64} :
    (instruction.mapTarget shift).operand = .branch target ↔
      ∃ old, instruction.operand = .branch old ∧ shift old = target := by
  obtain ⟨opcode, operand⟩ := instruction
  cases operand <;> simp [mapTarget]

theorem mapTarget_of_target? {instruction : Instruction} {shift : UInt64 → UInt64}
    (still : instruction.target? = none) : instruction.mapTarget shift = instruction := by
  obtain ⟨opcode, operand⟩ := instruction
  cases operand with
  | branch target => cases still
  | _ => rfl

theorem map_mapTarget_map (first second : UInt64 → UInt64) (code : List Instruction) :
    (code.map (mapTarget first)).map (mapTarget second) = code.map (mapTarget (second ∘ first)) := by
  rw [List.map_map]
  refine List.map_congr_left fun instruction _ => ?_
  obtain ⟨opcode, operand⟩ := instruction
  cases operand <;> rfl

theorem map_mapTarget_id (code : List Instruction) : code.map (mapTarget id) = code := by
  refine (List.map_congr_left fun instruction _ => ?_).trans (List.map_id code)
  obtain ⟨opcode, operand⟩ := instruction
  cases operand <;> rfl

theorem map_mapTarget_of_still {code : List Instruction} {shift : UInt64 → UInt64}
    (still : ∀ instruction ∈ code, instruction.target? = none) :
    code.map (mapTarget shift) = code := by
  induction code with
  | nil => rfl
  | cons instruction code hypothesis =>
      obtain ⟨here, rest⟩ := List.forall_mem_cons.mp still
      rw [List.map_cons, mapTarget_of_target? here, hypothesis rest]

end Instruction

namespace MethodBody

/-- Where an index goes when `count` instructions are put before index `at_`. -/
def shiftIndex (at_ count index : Nat) : Nat :=
  if at_ ≤ index then index + count else index

theorem shiftIndex_of_le {at_ count index : Nat} (behind : at_ ≤ index) :
    shiftIndex at_ count index = index + count :=
  if_pos behind

theorem shiftIndex_of_lt {at_ count index : Nat} (before : index < at_) :
    shiftIndex at_ count index = index :=
  if_neg (Nat.not_le.mpr before)

theorem shiftIndex_inj {at_ count left right : Nat}
    (same : shiftIndex at_ count left = shiftIndex at_ count right) : left = right := by
  unfold shiftIndex at same
  split at same <;> split at same <;> omega

/-- No old instruction lands inside the block. -/
theorem shiftIndex_ne_add {at_ count index offset : Nat} (inside : offset < count) :
    shiftIndex at_ count index ≠ at_ + offset := by
  unfold shiftIndex
  split <;> omega

theorem shiftIndex_lt_iff {at_ count index size : Nat} (inside : at_ ≤ size) :
    shiftIndex at_ count index < size + count ↔ index < size := by
  unfold shiftIndex
  split <;> omega

theorem toNat_shiftTarget {at_ count : Nat} {target : UInt64}
    (fits : target.toNat + count < 2 ^ 64) :
    (shiftTarget at_ count target).toNat = shiftIndex at_ count target.toNat := by
  unfold shiftTarget shiftIndex
  split
  · rw [UInt64.toNat_add, UInt64.toNat_ofNat']
    omega
  · rfl

variable {body : MethodBody} {at_ : Nat} {block : List Instruction}

theorem instructions_insert :
    (body.insert at_ block).instructions =
      (body.instructions.map (Instruction.mapTarget (shiftTarget at_ block.length))).take at_ ++
        block ++
        (body.instructions.map (Instruction.mapTarget (shiftTarget at_ block.length))).drop at_ :=
  rfl

theorem length_insert (inside : at_ ≤ body.instructions.length) :
    (body.insert at_ block).instructions.length = body.instructions.length + block.length := by
  rw [instructions_insert, List.length_append, List.length_append, List.length_take,
    List.length_drop, List.length_map]
  omega

theorem length_front (inside : at_ ≤ body.instructions.length)
    (change : Instruction → Instruction) :
    ((body.instructions.map change).take at_).length = at_ := by
  rw [List.length_take, List.length_map, Nat.min_eq_left inside]

/-- An old instruction is found again at its shifted index. -/
theorem insert_shiftIndex (inside : at_ ≤ body.instructions.length) (index : Nat) :
    (body.insert at_ block).instructions[shiftIndex at_ block.length index]? =
      body.instructions[index]?.map (Instruction.mapTarget (shiftTarget at_ block.length)) := by
  have front := length_front inside (Instruction.mapTarget (shiftTarget at_ block.length))
  rw [instructions_insert, List.append_assoc]
  by_cases behind : at_ ≤ index
  · rw [shiftIndex_of_le behind, List.getElem?_append_right (by rw [front]; omega),
      List.getElem?_append_right (by rw [front]; omega), front, List.getElem?_drop,
      List.getElem?_map]
    congr 2
    omega
  · have before := Nat.lt_of_not_le behind
    rw [shiftIndex_of_lt before, List.getElem?_append_left (by rw [front]; exact before),
      List.getElem?_take_of_lt before, List.getElem?_map]

/-- The block lies at the index at which it was put in. -/
theorem insert_add (inside : at_ ≤ body.instructions.length) {offset : Nat}
    (within : offset < block.length) :
    (body.insert at_ block).instructions[at_ + offset]? = block[offset]? := by
  have front := length_front inside (Instruction.mapTarget (shiftTarget at_ block.length))
  rw [instructions_insert, List.append_assoc,
    List.getElem?_append_right (by rw [front]; exact Nat.le_add_right ..), front,
    Nat.add_sub_cancel_left, List.getElem?_append_left within]

end MethodBody

end PropertyWeaver
