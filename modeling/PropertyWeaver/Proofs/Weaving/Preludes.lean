import PropertyWeaver.Proofs.Weaving.MethodStates
import PropertyWeaver.Proofs.Weaving.SoundEdits

/-!
# Preludes in a row

Each mapped property puts a prelude behind those that a constructor has already. As no prelude
branches, the code behind them is the original one, with its targets shifted once for each prelude.
-/

set_option autoImplicit false

namespace PropertyWeaver

open Verification

theorem Verification.Straight.still {shape : BodyShape} {locals bound depth final : Nat}
    {code : List Instruction} (straight : Straight shape locals bound depth code final) :
    ∀ instruction ∈ code, instruction.target? = none := by
  induction straight with
  | nil _ => simp
  | @cons _ _ instruction _ plain _ _ _ hypothesis =>
      refine List.forall_mem_cons.mpr ⟨?_, hypothesis⟩
      cases names : instruction.target? with
      | none => rfl
      | some target =>
          have branches := (branch_of_target? plain.operand names).1
          rw [plain.branches] at branches
          cases branches

structure Prelude where
  owner : String
  index : Nat
  property : PropertyDef
  identifier : String
  literal : Option (List Instruction)
  constructor : MethodRef
  field : FieldRef

namespace Prelude

/-- The mapping object is made from the name of the property, its identifier and its default value,
and stored into the field. -/
def code (block : Prelude) : List Instruction :=
  [Opcode.ldarg0.plain, .pushString block.property.name, .pushString block.identifier] ++
    block.literal.getD [] ++
    [⟨.newobj, .method block.constructor⟩, ⟨.stfld, .field block.field⟩]

def maxStack (block : Prelude) : UInt16 :=
  if block.literal.isSome then 4 else 3

def edit (constructor : Nat) (block : Prelude) : Edit :=
  .prependToConstructor constructor block.code block.maxStack

def member (block : Prelude) : WovenMember :=
  ⟨block.owner, block.property.name, .mappedProperty, block.identifier⟩

/-- Where a target lands when preludes are put in one behind the other. -/
def shiftBehind : (cursor : Nat) → List Prelude → UInt64 → UInt64
  | _, [] => id
  | cursor, block :: blocks =>
      shiftBehind (cursor + block.code.length) blocks ∘
        MethodBody.shiftTarget cursor block.code.length

theorem toNat_shiftBehind {blocks : List Prelude} {cursor : Nat} {target : UInt64}
    (behind : cursor ≤ target.toNat)
    (fits : target.toNat + (blocks.flatMap code).length < 2 ^ 64) :
    (shiftBehind cursor blocks target).toNat = target.toNat + (blocks.flatMap code).length := by
  induction blocks generalizing cursor target with
  | nil => rfl
  | cons block blocks hypothesis =>
      rw [List.flatMap_cons, List.length_append] at fits ⊢
      have first : (MethodBody.shiftTarget cursor block.code.length target).toNat =
          target.toNat + block.code.length := by
        rw [MethodBody.toNat_shiftTarget (by omega), MethodBody.shiftIndex_of_le behind]
      rw [shiftBehind, Function.comp_apply, hypothesis (by omega) (by omega), first]
      omega

end Prelude

/-- A body with preludes at its start. -/
def MethodBody.behind (body : MethodBody) (blocks : List Prelude) (shift : UInt64 → UInt64) :
    MethodBody :=
  { body with
    maxStack := blocks.foldl (fun bound block => max bound block.maxStack) body.maxStack
    instructions :=
      blocks.flatMap Prelude.code ++ body.instructions.map (Instruction.mapTarget shift) }

namespace MethodState

private theorem withPrelude_append {body : MethodBody} {front back : List Instruction}
    (split : body.instructions = front ++ back)
    (still : ∀ instruction ∈ front, instruction.target? = none) (block : List Instruction)
    (maxStack : UInt16) :
    body.withPrelude front.length block maxStack =
      { body with
        maxStack := max body.maxStack maxStack
        instructions := front ++ block ++
          back.map (Instruction.mapTarget (MethodBody.shiftTarget front.length block.length)) } := by
  have instructions : (body.insert front.length block).instructions = front ++ block ++
      back.map (Instruction.mapTarget (MethodBody.shiftTarget front.length block.length)) := by
    rw [MethodBody.instructions_insert, split, List.map_append,
      Instruction.map_mapTarget_of_still still, List.take_left, List.drop_left]
  rw [MethodBody.withPrelude, ← instructions]
  rfl

/-- Preludes behind a front that does not branch. The cursor follows them. -/
theorem after_preludes {index : Nat} {method : MethodDef} {body : MethodBody}
    {front back : List Instruction} {blocks : List Prelude}
    (split : body.instructions = front ++ back)
    (still : ∀ instruction ∈ front, instruction.target? = none)
    (straight : ∀ block ∈ blocks, ∀ instruction ∈ block.code, instruction.target? = none) :
    MethodState.after ⟨{ method with body := some body }, front.length⟩ index
        (blocks.map (Prelude.edit index)) =
      ⟨{ method with
          body := some { body with
            maxStack := blocks.foldl (fun bound block => max bound block.maxStack) body.maxStack
            instructions := front ++ blocks.flatMap Prelude.code ++
              back.map (Instruction.mapTarget (Prelude.shiftBehind front.length blocks)) } },
        front.length + (blocks.flatMap Prelude.code).length⟩ := by
  induction blocks generalizing body front back with
  | nil =>
      simp only [List.map_nil, after_nil, List.foldl_nil, List.flatMap_nil, List.append_nil,
        List.length_nil, Nat.add_zero, Prelude.shiftBehind, Instruction.map_mapTarget_id, ← split]
  | cons block blocks hypothesis =>
      obtain ⟨here, rest⟩ := List.forall_mem_cons.mp straight
      have step : (Prelude.edit index block).advance index
          ⟨{ method with body := some body }, front.length⟩ =
          ⟨{ method with
              body := some (body.withPrelude front.length block.code block.maxStack) },
            (front ++ block.code).length⟩ := by
        simp [Prelude.edit, Edit.advance]
      have longer : ∀ instruction ∈ front ++ block.code, instruction.target? = none := by
        intro instruction member
        exact (List.mem_append.mp member).elim (still instruction) (here instruction)
      rw [List.map_cons, after_cons, step, withPrelude_append split still,
        hypothesis rfl longer rest]
      simp only [List.foldl_cons, List.flatMap_cons, List.append_assoc, List.length_append,
        Nat.add_assoc, Instruction.map_mapTarget_map, Prelude.shiftBehind]

/-- A constructor that has had no prelude keeps its code behind those that it gets. -/
theorem after_preludes_of_body {index : Nat} {method : MethodDef} {body : MethodBody}
    {blocks : List Prelude} (has : method.body = some body)
    (straight : ∀ block ∈ blocks, ∀ instruction ∈ block.code, instruction.target? = none) :
    (MethodState.after ⟨method, 0⟩ index (blocks.map (Prelude.edit index))).method =
      { method with body := some (body.behind blocks (Prelude.shiftBehind 0 blocks)) } := by
  have same : method = { method with body := some body } := by rw [← has]
  have split : body.instructions = [] ++ body.instructions := rfl
  have prepended := @after_preludes index method body [] body.instructions blocks split (by simp)
    straight
  rw [← same] at prepended
  exact congrArg MethodState.method prepended

/-- One block for each of several methods reaches a method once if it is among them. -/
theorem after_block {constructors : List Nat} (distinct : constructors.Nodup) (block : Prelude)
    (state : MethodState) (index : Nat) :
    state.after index (constructors.map fun constructor => block.edit constructor) =
      if index ∈ constructors then (block.edit index).advance index state else state := by
  induction constructors generalizing state with
  | nil => simp
  | cons constructor constructors hypothesis =>
      obtain ⟨fresh, distinct⟩ := List.nodup_cons.mp distinct
      rw [List.map_cons, after_cons, hypothesis distinct]
      by_cases here : constructor = index
      · subst here
        simp [fresh]
      · have skipped : (block.edit constructor).advance index state = state := if_neg here
        simp [skipped, Ne.symm here]

end MethodState

end PropertyWeaver
