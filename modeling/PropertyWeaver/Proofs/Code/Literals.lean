import PropertyWeaver.Code.Literal

/-!
# The forms of literals

Whichever constant it is, the code that pushes it has one of seven forms. None of their instructions
has an operand that names a slot, a member, a type or another instruction.
-/

set_option autoImplicit false

namespace PropertyWeaver

/-- The forms of code that pushes a constant: one instruction, or a 32-bit word and its widening. A
text is pushed for a text alone. -/
inductive LiteralForm (constant : Constant) : List Instruction → Prop where
  | string {text : String} : constant.string? = some text →
      LiteralForm constant [.pushString text]
  | int32 {word : Int32} : constant.string? = none → LiteralForm constant [.pushInt32 word]
  | signed {word : Int32} : constant.string? = none →
      LiteralForm constant [.pushInt32 word, Opcode.convI8.plain]
  | unsigned {word : Int32} : constant.string? = none →
      LiteralForm constant [.pushInt32 word, Opcode.convU8.plain]
  | int64 {word : Int64} : constant.string? = none → LiteralForm constant [⟨.ldcI8, .int64 word⟩]
  | float32 {word : Binary32} : constant.string? = none →
      LiteralForm constant [⟨.ldcR4, .float32 word⟩]
  | float64 {word : Binary64} : constant.string? = none →
      LiteralForm constant [⟨.ldcR8, .float64 word⟩]

def Operand.isScalar : Operand → Bool
  | .none | .int32 _ | .int64 _ | .float32 _ | .float64 _ | .string _ => true
  | .slot _ | .field _ | .method _ | .type _ | .branch _ => false

/-- The operand fits its opcode and names nothing else. -/
structure Instruction.Scalar (instruction : Instruction) : Prop where
  fits : instruction.wellFormed = true
  operand : instruction.operand.isScalar = true

namespace Instruction

variable {instruction : Instruction}

theorem Scalar.method?_eq_none (scalar : instruction.Scalar) : instruction.method? = none := by
  obtain ⟨opcode, operand⟩ := instruction
  have named := scalar.operand
  cases operand with
  | method member => cases named
  | _ => rfl

theorem Scalar.field?_eq_none (scalar : instruction.Scalar) : instruction.field? = none := by
  obtain ⟨opcode, operand⟩ := instruction
  have named := scalar.operand
  cases operand with
  | field member => cases named
  | _ => rfl

theorem Scalar.scopes_eq_nil (scalar : instruction.Scalar) : instruction.scopes = [] := by
  obtain ⟨opcode, operand⟩ := instruction
  have named := scalar.operand
  cases operand with
  | field _ | method _ | type _ => cases named
  | _ => rfl

theorem Scalar.ne_stfld (scalar : instruction.Scalar) : instruction.opcode ≠ .stfld := by
  obtain ⟨opcode, operand⟩ := instruction
  obtain ⟨fits, named⟩ := scalar
  rintro rfl
  cases operand with
  | field member => cases named
  | _ => cases fits

theorem scalar_pushInt32 (word : Int32) : (pushInt32 word).Scalar := by
  unfold pushInt32
  split <;> exact ⟨rfl, rfl⟩

private theorem isInt32Literal_pushInt32 (word : Int32) :
    (pushInt32 word).opcode.isInt32Literal = true := by
  unfold pushInt32
  split <;> rfl

private theorem isInt32Literal_iff_of_false (other : instruction.opcode.isInt32Literal = false) :
    instruction.opcode.isInt32Literal = true ↔ ∃ word, instruction = pushInt32 word := by
  constructor
  · intro literal
    rw [other] at literal
    cases literal
  · rintro ⟨word, rfl⟩
    exact isInt32Literal_pushInt32 word

end Instruction

namespace LiteralForm

variable {constant : Constant} {code : List Instruction}

theorem scalar (form : LiteralForm constant code) : ∀ instruction ∈ code, instruction.Scalar := by
  cases form with
  | int32 _ => exact List.forall_mem_singleton.mpr (Instruction.scalar_pushInt32 _)
  | signed _ | unsigned _ =>
      exact List.forall_mem_cons.mpr
        ⟨Instruction.scalar_pushInt32 _, List.forall_mem_singleton.mpr ⟨rfl, rfl⟩⟩
  | string _ | int64 _ | float32 _ | float64 _ => exact List.forall_mem_singleton.mpr ⟨rfl, rfl⟩

/-- Of the instructions of a literal exactly the pushes of 32-bit integers are taken for such. -/
theorem isInt32Literal_iff (form : LiteralForm constant code) :
    ∀ instruction ∈ code,
      (instruction.opcode.isInt32Literal = true ↔ ∃ word, instruction = .pushInt32 word) := by
  have pushed : ∀ word, (Instruction.pushInt32 word).opcode.isInt32Literal = true ↔
      ∃ word', Instruction.pushInt32 word = .pushInt32 word' :=
    fun word => iff_of_true (Instruction.isInt32Literal_pushInt32 word) ⟨word, rfl⟩
  cases form with
  | int32 _ => exact List.forall_mem_singleton.mpr (pushed _)
  | signed _ | unsigned _ =>
      exact List.forall_mem_cons.mpr ⟨pushed _,
        List.forall_mem_singleton.mpr (Instruction.isInt32Literal_iff_of_false rfl)⟩
  | string _ | int64 _ | float32 _ | float64 _ =>
      exact List.forall_mem_singleton.mpr (Instruction.isInt32Literal_iff_of_false rfl)

theorem length_le (form : LiteralForm constant code) : code.length ≤ 2 := by
  cases form <;> simp

end LiteralForm

/-- Every constant that has a literal has one of these forms. -/
theorem Constant.literalForm_of_push? {constant : Constant} {code : List Instruction}
    (pushes : constant.push? = some code) : LiteralForm constant code := by
  cases constant with
  | null | char _ | int8 _ | uint8 _ | type _ | array _ => cases pushes
  | string _ => exact Option.some.inj pushes ▸ .string rfl
  | bool _ | int16 _ | uint16 _ | int32 _ | uint32 _ => exact Option.some.inj pushes ▸ .int32 rfl
  | float32 _ => exact Option.some.inj pushes ▸ .float32 rfl
  | float64 _ => exact Option.some.inj pushes ▸ .float64 rfl
  | int64 _ =>
      rw [push?] at pushes
      split at pushes
      · exact Option.some.inj pushes ▸ .signed rfl
      · exact Option.some.inj pushes ▸ .int64 rfl
  | uint64 _ =>
      rw [push?] at pushes
      split at pushes
      · exact Option.some.inj pushes ▸ .unsigned rfl
      · exact Option.some.inj pushes ▸ .int64 rfl

end PropertyWeaver
