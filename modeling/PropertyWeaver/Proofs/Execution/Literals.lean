import PropertyWeaver.Proofs.Code.Literals
import PropertyWeaver.Proofs.Execution.Instructions
import PropertyWeaver.Proofs.Image.NormalForm

/-!
# What literals denote

A constant stands for a value of the machine whatever its code looks like. The compact forms split a
64-bit number into a 32-bit word and a widening, so its value is put together again only when the
code is performed, by the conversion that fits its sign.
-/

set_option autoImplicit false

namespace PropertyWeaver

open Execution

/-- The value that a constant stands for. A Boolean and a small number are words with the same
number, and an unsigned word or double word is the signed one with the same bits. -/
inductive Constant.Denotes : Constant → Value → Prop where
  | string {text : String} : Denotes (.string text) (.string text)
  | bool {flag : Bool} {word : Int32} : word.toInt = flag.toNat → Denotes (.bool flag) (.int32 word)
  | int16 {number : Int16} {word : Int32} : word.toInt = number.toInt →
      Denotes (.int16 number) (.int32 word)
  | uint16 {number : UInt16} {word : Int32} : word.toInt = number.toNat →
      Denotes (.uint16 number) (.int32 word)
  | int32 {number : Int32} : Denotes (.int32 number) (.int32 number)
  | uint32 {number : UInt32} {word : Int32} : word.toBitVec = number.toBitVec →
      Denotes (.uint32 number) (.int32 word)
  | int64 {number : Int64} : Denotes (.int64 number) (.int64 number)
  | uint64 {number : UInt64} {word : Int64} : word.toBitVec = number.toBitVec →
      Denotes (.uint64 number) (.int64 word)
  | float32 {number : Binary32} : Denotes (.float32 number) (.float32 number)
  | float64 {number : Binary64} : Denotes (.float64 number) (.float64 number)

/-! ## Execution -/

section Performance

variable {World : Type} {activation : Activation World} {frame : Frame World}

private theorem performs_pushInt32 (word : Int32) :
    [Instruction.pushInt32 word].foldlM activation.perform frame =
      some (frame.push (.int32 word)) := by
  rw [List.foldlM_cons, Activation.perform_pushInt32]
  rfl

private theorem performs_signed (word : Int32) :
    [.pushInt32 word, Opcode.convI8.plain].foldlM activation.perform frame =
      some (frame.push (.int64 word.toInt64)) :=
  Activation.foldlM_perform_append (performs_pushInt32 word) rfl

private theorem performs_unsigned (word : Int32) :
    [.pushInt32 word, Opcode.convU8.plain].foldlM activation.perform frame =
      some (frame.push (.int64 word.toUInt32.toUInt64.toInt64)) :=
  Activation.foldlM_perform_append (performs_pushInt32 word) rfl

/-- No part of the code of a literal takes a second slot: a widening puts its result in the place of
the word. -/
theorem LiteralForm.within_one_slot {constant : Constant} {code front : List Instruction}
    {value : Value} (form : LiteralForm constant code)
    (performed : code.foldlM activation.perform frame = some (frame.push value))
    (part : front <+: code) :
    ∃ between, front.foldlM activation.perform frame = some between ∧
      between.stack.length ≤ frame.stack.length + 1 := by
  have nothing : ∃ between, ([] : List Instruction).foldlM activation.perform frame = some between ∧
      between.stack.length ≤ frame.stack.length + 1 :=
    ⟨frame, rfl, Nat.le_succ _⟩
  have everything : ∃ between, code.foldlM activation.perform frame = some between ∧
      between.stack.length ≤ frame.stack.length + 1 :=
    ⟨_, performed, Nat.le_refl _⟩
  cases form with
  | signed _ | unsigned _ =>
      rcases List.prefix_cons_iff.mp part with rfl | ⟨rest, rfl, behind⟩
      · exact nothing
      · rcases List.prefix_cons_iff.mp behind with rfl | ⟨last, rfl, behind'⟩
        · exact ⟨_, performs_pushInt32 _, Nat.le_refl _⟩
        · obtain rfl := List.prefix_nil.mp behind'
          exact everything
  | string _ | int32 _ | int64 _ | float32 _ | float64 _ =>
      rcases List.prefix_cons_iff.mp part with rfl | ⟨rest, rfl, behind⟩
      · exact nothing
      · obtain rfl := List.prefix_nil.mp behind
        exact everything

end Performance

namespace Constant

variable {constant : Constant} {code : List Instruction}

private theorem toInt_toInt32_toUInt32 (number : UInt16) :
    number.toUInt32.toInt32.toInt = number.toNat := by
  have small := number.toNat_lt
  change number.toUInt32.toBitVec.toInt = _
  rw [BitVec.toInt_eq_toNat_of_lt, UInt32.toNat_toBitVec, UInt16.toNat_toUInt32]
  rw [UInt32.toNat_toBitVec, UInt16.toNat_toUInt32]
  omega

/-- Wherever the code of a literal is performed, the value of its constant is pushed. -/
theorem performs_push? (pushes : constant.push? = some code) :
    ∃ value, constant.Denotes value ∧
      ∀ {World : Type} (activation : Activation World) (frame : Frame World),
        code.foldlM activation.perform frame = some (frame.push value) := by
  cases constant with
  | null | char _ | int8 _ | uint8 _ | type _ | array _ => cases pushes
  | string text =>
      obtain rfl := Option.some.inj pushes
      exact ⟨_, .string, fun _ _ => rfl⟩
  | bool flag =>
      obtain rfl := Option.some.inj pushes
      exact ⟨_, .bool (by cases flag <;> rfl), fun _ _ => performs_pushInt32 _⟩
  | int16 number =>
      obtain rfl := Option.some.inj pushes
      exact ⟨_, .int16 (Int16.toInt_toInt32 number), fun _ _ => performs_pushInt32 _⟩
  | uint16 number =>
      obtain rfl := Option.some.inj pushes
      exact ⟨_, .uint16 (toInt_toInt32_toUInt32 number), fun _ _ => performs_pushInt32 _⟩
  | int32 number =>
      obtain rfl := Option.some.inj pushes
      exact ⟨_, .int32, fun _ _ => performs_pushInt32 number⟩
  | uint32 number =>
      obtain rfl := Option.some.inj pushes
      exact ⟨_, .uint32 rfl, fun _ _ => performs_pushInt32 _⟩
  | float32 number =>
      obtain rfl := Option.some.inj pushes
      exact ⟨_, .float32, fun _ _ => rfl⟩
  | float64 number =>
      obtain rfl := Option.some.inj pushes
      exact ⟨_, .float64, fun _ _ => rfl⟩
  | int64 number =>
      rw [push?] at pushes
      split at pushes
      · next narrow =>
        obtain rfl := Option.some.inj pushes
        refine ⟨.int64 number.toInt32.toInt64, ?_, fun _ _ => performs_signed _⟩
        rw [narrow]
        exact .int64
      · obtain rfl := Option.some.inj pushes
        exact ⟨_, .int64, fun _ _ => rfl⟩
  | uint64 number =>
      rw [push?] at pushes
      split at pushes
      · next narrow =>
        obtain rfl := Option.some.inj pushes
        refine ⟨_, ?_, fun _ _ => performs_unsigned _⟩
        rw [UInt32.toUInt32_toInt32, narrow]
        exact .uint64 rfl
      · obtain rfl := Option.some.inj pushes
        exact ⟨_, .uint64 rfl, fun _ _ => rfl⟩

end Constant

/-! ## Images -/

private theorem Instruction.encodable_pushInt32 (word : Int32) : (pushInt32 word).Encodable := by
  unfold pushInt32
  split <;> exact ⟨rfl, trivial⟩

/-- The numbers of a literal are never cut, and a text is not if its length is a 32-bit word. -/
theorem LiteralForm.encodable_iff {constant : Constant} {code : List Instruction}
    (form : LiteralForm constant code) :
    EncodableList Instruction.Encodable code ↔
      ∀ text, constant.string? = some text → EncodableText text := by
  have number : constant.string? = none →
      ∀ text, constant.string? = some text → EncodableText text := by
    intro none text some
    rw [none] at some
    cases some
  cases form with
  | string holds =>
      constructor
      · intro encodable text same
        obtain rfl := Option.some.inj (holds.symm.trans same)
        exact (encodable.each _ (List.mem_singleton_self _)).operand
      · intro short
        exact .singleton ⟨rfl, short _ holds⟩
  | int32 none => exact iff_of_true (.singleton (Instruction.encodable_pushInt32 _)) (number none)
  | signed none | unsigned none =>
      refine iff_of_true ⟨by simp, List.forall_mem_cons.mpr ?_⟩ (number none)
      exact ⟨Instruction.encodable_pushInt32 _, List.forall_mem_singleton.mpr ⟨rfl, trivial⟩⟩
  | int64 none | float32 none | float64 none =>
      exact iff_of_true (.singleton ⟨rfl, trivial⟩) (number none)

namespace Constant

variable {constant : Constant} {code : List Instruction}

/-- A literal denotes its constant. Its code never takes more than one slot and pushes one value,
that of the constant. The operands fit, exactly the pushes of 32-bit integers are taken for such, and
an image gives the code back, unless the length of a text is not a 32-bit word. -/
theorem push?_denotes (pushes : constant.push? = some code) :
    (∃ value, constant.Denotes value ∧
      ∀ {World : Type} (activation : Activation World) (frame : Frame World),
        code.foldlM activation.perform frame = some (frame.push value) ∧
        ∀ front, front <+: code →
          ∃ between, front.foldlM activation.perform frame = some between ∧
            between.stack.length ≤ frame.stack.length + 1) ∧
    (∀ instruction ∈ code, instruction.wellFormed = true ∧
      (instruction.opcode.isInt32Literal = true ↔ ∃ word, instruction = .pushInt32 word)) ∧
    (Reads (Reader.sequence Instruction.read) (Bytes.sequence Instruction.encode code) code ↔
      ∀ text, constant.string? = some text → EncodableText text) := by
  have form := literalForm_of_push? pushes
  obtain ⟨value, denotes, performs⟩ := performs_push? pushes
  refine ⟨⟨value, denotes, fun activation frame => ⟨performs activation frame, ?_⟩⟩, ?_, ?_⟩
  · intro front part
    exact form.within_one_slot (performs activation frame) part
  · intro instruction member
    exact ⟨(form.scalar instruction member).fits, form.isInt32Literal_iff instruction member⟩
  · exact (@NodeKind.reads_sequence_iff .instruction code).trans form.encodable_iff

/-- The greatest number of 32 bits is pushed as a word of ones, which is widened with zeros. -/
theorem push?_denotes_uint64 :
    (uint64 4294967295).push? = some [.pushInt32 (-1), Opcode.convU8.plain] ∧
      ∀ {World : Type} (activation : Activation World) (frame : Frame World),
        [.pushInt32 (-1), Opcode.convU8.plain].foldlM activation.perform frame =
          some (frame.push (.int64 4294967295)) := by
  have pushes : (uint64 4294967295).push? = some [.pushInt32 (-1), Opcode.convU8.plain] := by
    decide
  refine ⟨pushes, fun activation frame => ?_⟩
  obtain ⟨⟨value, denotes, performs⟩, _⟩ := push?_denotes pushes
  cases denotes with
  | uint64 bits =>
      obtain rfl := Int64.toBitVec_inj.mp bits
      exact (performs activation frame).1

end Constant

end PropertyWeaver
