import PropertyWeaver.Proofs.Execution.Machine
import PropertyWeaver.Proofs.Verification.Moves

/-!
# What single instructions do

One lemma for each instruction that synthesized code is made of.
-/

set_option autoImplicit false

namespace PropertyWeaver.Execution.Activation

variable {World : Type} {activation : Activation World} {frame : Frame World} {stack : List Value}
  {locals : List Value} {history : History World}

theorem perform_ldarg0 {value : Value} (given : activation.arguments[0]? = some value) :
    activation.perform ⟨stack, locals, history⟩ Opcode.ldarg0.plain =
      some ⟨value :: stack, locals, history⟩ := by
  simp [perform, Opcode.plain, Instruction.argument?, given, Frame.push]

theorem perform_ldarg1 {value : Value} (given : activation.arguments[1]? = some value) :
    activation.perform ⟨stack, locals, history⟩ Opcode.ldarg1.plain =
      some ⟨value :: stack, locals, history⟩ := by
  simp [perform, Opcode.plain, Instruction.argument?, given, Frame.push]

theorem perform_pushInt32 (value : Int32) :
    activation.perform ⟨stack, locals, history⟩ (.pushInt32 value) =
      some ⟨.int32 value :: stack, locals, history⟩ := by
  have literal : ∀ small : Int32, value.toInt = small.toInt → value = small :=
    fun _ => Int32.toInt_inj.mp
  unfold Instruction.pushInt32
  split
  · next same => rw [literal 0 same]; rfl
  · next same => rw [literal 1 same]; rfl
  · next same => rw [literal 2 same]; rfl
  · next same => rw [literal 3 same]; rfl
  · next same => rw [literal 4 same]; rfl
  · next same => rw [literal 5 same]; rfl
  · next same => rw [literal 6 same]; rfl
  · next same => rw [literal 7 same]; rfl
  · next same => rw [literal 8 same]; rfl
  · rfl

theorem perform_pushString (value : String) :
    activation.perform ⟨stack, locals, history⟩ (.pushString value) =
      some ⟨.string value :: stack, locals, history⟩ :=
  rfl

theorem perform_ceq (left right : Value) :
    activation.perform ⟨right :: left :: stack, locals, history⟩ Opcode.ceq.plain =
      some ⟨.int32 (if activation.runtime.equal left right then 1 else 0) :: stack, locals,
        history⟩ :=
  rfl

theorem perform_ldfld (owner : Nat) (field : FieldRef) :
    activation.perform ⟨.object owner :: stack, locals, history⟩ ⟨.ldfld, .field field⟩ =
      some ⟨history.memory.field owner field :: stack, locals, history⟩ :=
  rfl

theorem perform_stfld (owner : Nat) (field : FieldRef) (value : Value) :
    activation.perform ⟨value :: .object owner :: stack, locals, history⟩
        ⟨.stfld, .field field⟩ =
      some ⟨stack, locals, history.store owner field value⟩ :=
  rfl

/-! ## Jumps -/

section Jumps

variable {index : Nat} {target : UInt64}

theorem step_br
    (found : activation.body.instructions[index]? = some ⟨.br, .branch target⟩) :
    activation.step ⟨index, frame⟩ = some ⟨target.toNat, frame⟩ := by
  simp [step, found, Instruction.target?]

theorem step_brtrue (word : Int32)
    (found : activation.body.instructions[index]? = some ⟨.brtrue, .branch target⟩) :
    activation.step ⟨index, .int32 word :: stack, locals, history⟩ =
      some ⟨if word = 0 then index + 1 else target.toNat, stack, locals, history⟩ := by
  by_cases zero : word = 0 <;>
    simp [step, found, branch, Instruction.target?, Value.truth?, zero]

end Jumps

/-! ## Calls -/

/-- A call takes its arguments from the stack and leaves its result there, if it has one. -/
theorem invoke_eq {kind : CallKind} {opcode : Opcode} {method : MethodRef} (arguments : List Value)
    (count : (if kind = .construction then method.parameters.length else method.popCount) =
      arguments.length)
    (receiver : kind = .virtual → arguments.head? ≠ some .null) :
    activation.invoke kind ⟨arguments.reverse ++ stack, locals, history⟩
        ⟨opcode, .method method⟩ =
      some ⟨if kind = .construction ∨ method.returnsValue then
          (history.call activation.runtime kind method arguments).1 :: stack else stack,
        locals, (history.call activation.runtime kind method arguments).2⟩ := by
  have popped : Frame.pop? ⟨arguments.reverse ++ stack, locals, history⟩ arguments.length =
      some (arguments, ⟨stack, locals, history⟩) := by
    simp [Frame.pop?]
  have present : ¬ (kind = .virtual ∧ arguments.head? = some .null) :=
    fun ⟨virtual, null⟩ => receiver virtual null
  simp only [invoke, Instruction.method?, count, Option.bind_eq_bind, Option.bind_some, popped,
    present, if_false]
  split <;> rfl

variable {method : MethodRef} (arguments : List Value)

theorem perform_call (calls : method.Exchanges arguments.length 1) :
    activation.perform ⟨arguments.reverse ++ stack, locals, history⟩ ⟨.call, .method method⟩ =
      some ⟨(history.call activation.runtime .direct method arguments).1 :: stack, locals,
        (history.call activation.runtime .direct method arguments).2⟩ := by
  have returns : method.returnsValue = true := Bool.toNat_eq_one.mp calls.pushes
  refine (invoke_eq arguments ?_ ?_).trans ?_
  · exact calls.pops
  · intro virtual
    cases virtual
  · simp [returns]

theorem perform_callvirt (calls : method.Exchanges arguments.length 1)
    (receiver : arguments.head? ≠ some .null) :
    activation.perform ⟨arguments.reverse ++ stack, locals, history⟩ ⟨.callvirt, .method method⟩ =
      some ⟨(history.call activation.runtime .virtual method arguments).1 :: stack, locals,
        (history.call activation.runtime .virtual method arguments).2⟩ := by
  have returns : method.returnsValue = true := Bool.toNat_eq_one.mp calls.pushes
  refine (invoke_eq arguments ?_ ?_).trans ?_
  · exact calls.pops
  · exact fun _ => receiver
  · simp [returns]

theorem perform_callvirt_void (calls : method.Exchanges arguments.length 0)
    (receiver : arguments.head? ≠ some .null) :
    activation.perform ⟨arguments.reverse ++ stack, locals, history⟩ ⟨.callvirt, .method method⟩ =
      some ⟨stack, locals, (history.call activation.runtime .virtual method arguments).2⟩ := by
  have returns : method.returnsValue = false := Bool.toNat_eq_zero.mp calls.pushes
  refine (invoke_eq arguments ?_ ?_).trans ?_
  · exact calls.pops
  · exact fun _ => receiver
  · simp [returns]

/-- Making an object takes the arguments of the constructor and leaves the object. -/
theorem perform_newobj (count : method.parameters.length = arguments.length) :
    activation.perform ⟨arguments.reverse ++ stack, locals, history⟩ ⟨.newobj, .method method⟩ =
      some ⟨(history.call activation.runtime .construction method arguments).1 :: stack, locals,
        (history.call activation.runtime .construction method arguments).2⟩ :=
  invoke_eq arguments count nofun

/-! ## Locals and arrays -/

theorem perform_dup (value : Value) :
    activation.perform ⟨value :: stack, locals, history⟩ Opcode.dup.plain =
      some ⟨value :: value :: stack, locals, history⟩ :=
  rfl

theorem perform_loadLocal (value : Value) :
    activation.perform ⟨stack, value :: locals, history⟩ (.loadLocal 0) =
      some ⟨value :: stack, value :: locals, history⟩ :=
  rfl

private theorem index?_ofNat {index : Nat} (short : index < 2 ^ 31) :
    Value.index? (.int32 (Int32.ofNat index)) = some index := by
  rw [Value.index?, Int32.toInt_ofNat_of_lt short]
  rfl

theorem perform_newarr (element : TypeSig) {length : Nat} (short : length < 2 ^ 31) :
    activation.perform ⟨.int32 (Int32.ofNat length) :: stack, locals, history⟩
        ⟨.newarr, .type element⟩ =
      some ⟨.array history.memory.arrays.length :: stack, locals,
        ⟨history.memory.allocate length, history.events ++ [.allocate element length]⟩⟩ := by
  simp [perform, Instruction.type?, index?_ofNat short]

theorem perform_stelemRef {array index : Nat} {elements : List Value} (value : Value)
    (short : index < 2 ^ 31) (found : history.memory.arrays[array]? = some elements)
    (inside : index < elements.length) :
    activation.perform ⟨value :: .int32 (Int32.ofNat index) :: .array array :: stack, locals, history⟩
        Opcode.stelemRef.plain =
      some ⟨stack, locals, history.storeElement array index value⟩ := by
  simp [perform, Opcode.plain, index?_ofNat short, Memory.setElement?, History.storeElement, found,
    inside, List.modify_eq_set_getElem?]

end PropertyWeaver.Execution.Activation
