import PropertyWeaver.Proofs.Verification.Insertion
import PropertyWeaver.Proofs.Verification.Layout
import PropertyWeaver.Proofs.Code.Literals

/-!
# What single instructions do to the stack

One lemma for each instruction that synthesized code is made of. Straight code and layouts are put
together from them.
-/

set_option autoImplicit false

namespace PropertyWeaver

/-- What a call does to the depth of the stack. -/
structure MethodRef.Exchanges (method : MethodRef) (pops pushes : Nat) : Prop where
  pops : method.popCount = pops
  pushes : method.returnsValue.toNat = pushes

namespace Verification

/-- A plain instruction that takes and leaves so many values. -/
structure Moves (shape : BodyShape) (locals : Nat) (instruction : Instruction)
    (pops pushes : Nat) : Prop extends Plain shape locals instruction where
  effect : instruction.effect shape = ⟨pops, pushes⟩

variable {shape : BodyShape} {locals pops pushes : Nat} {instruction : Instruction}

theorem Straight.step {bound depth final : Nat} {code : List Instruction}
    (moves : Moves shape locals instruction pops pushes) (enough : pops ≤ depth)
    (within : depth ≤ bound)
    (rest : Straight shape locals bound (depth - pops + pushes) code final) :
    Straight shape locals bound depth (instruction :: code) final := by
  refine .cons moves.toPlain ?_ within ?_
  · rw [moves.effect]
    exact enough
  · rw [moves.effect]
    exact rest

theorem Moves.agrees {depths : List Nat} {index depth : Nat}
    (moves : Moves shape locals instruction pops pushes) (enough : pops ≤ depth)
    (next : depths[index + 1]? = some (depth - pops + pushes)) :
    Agrees shape locals depths index depth instruction where
  operand := moves.operand
  argument := moves.argument
  slot := moves.slot
  enough := by
    rw [moves.effect]
    exact enough
  balanced returns := absurd returns moves.returns
  jump target names := by
    have branches := (branch_of_target? moves.operand names).1
    rw [moves.branches] at branches
    cases branches
  next _ := by
    rw [Point.depthBehind, moves.effect]
    exact next

/-! ## Plain instructions -/

theorem moves_ldarg0 (receiver : 0 < shape.argumentCount) :
    Moves shape locals Opcode.ldarg0.plain 0 1 where
  operand := rfl
  argument := by simpa [Instruction.argument?, Opcode.plain] using receiver
  slot := by simp [Instruction.local?, Opcode.plain]
  branches := rfl
  returns := by decide
  effect := rfl

theorem moves_ldarg1 (value : 1 < shape.argumentCount) :
    Moves shape locals Opcode.ldarg1.plain 0 1 where
  operand := rfl
  argument := by simpa [Instruction.argument?, Opcode.plain] using value
  slot := by simp [Instruction.local?, Opcode.plain]
  branches := rfl
  returns := by decide
  effect := rfl

theorem moves_ldloc0 (slot : 0 < locals) : Moves shape locals (.loadLocal 0) 0 1 where
  operand := rfl
  argument := by simp [Instruction.argument?, Instruction.loadLocal, Opcode.plain]
  slot := by simpa [Instruction.local?, Instruction.loadLocal, Opcode.plain] using slot
  branches := rfl
  returns := by decide
  effect := rfl

theorem moves_stloc0 (slot : 0 < locals) : Moves shape locals (.storeLocal 0) 1 0 where
  operand := rfl
  argument := by simp [Instruction.argument?, Instruction.storeLocal, Opcode.plain]
  slot := by simpa [Instruction.local?, Instruction.storeLocal, Opcode.plain] using slot
  branches := rfl
  returns := by decide
  effect := rfl

private theorem moves_of_opcode (operand : instruction.wellFormed = true)
    (slots : instruction.argument? = none ∧ instruction.local? = none)
    (control : instruction.opcode.isBranch = false ∧ instruction.fallsThrough = true)
    (effect : instruction.effect shape = ⟨pops, pushes⟩) :
    Moves shape locals instruction pops pushes where
  operand := operand
  argument := by simp [slots.1]
  slot := by simp [slots.2]
  branches := control.1
  returns := (fallsThrough_iff.mp control.2).2
  effect := effect

theorem moves_ceq : Moves shape locals Opcode.ceq.plain 2 1 :=
  moves_of_opcode rfl ⟨rfl, rfl⟩ ⟨rfl, rfl⟩ rfl

theorem moves_dup : Moves shape locals Opcode.dup.plain 1 2 :=
  moves_of_opcode rfl ⟨rfl, rfl⟩ ⟨rfl, rfl⟩ rfl

theorem moves_stelemRef : Moves shape locals Opcode.stelemRef.plain 3 0 :=
  moves_of_opcode rfl ⟨rfl, rfl⟩ ⟨rfl, rfl⟩ rfl

theorem moves_pushInt32 (value : Int32) : Moves shape locals (.pushInt32 value) 0 1 := by
  unfold Instruction.pushInt32
  split <;> exact moves_of_opcode rfl ⟨rfl, rfl⟩ ⟨rfl, rfl⟩ rfl

theorem moves_pushString (value : String) : Moves shape locals (.pushString value) 0 1 :=
  moves_of_opcode rfl ⟨rfl, rfl⟩ ⟨rfl, rfl⟩ rfl

theorem moves_ldfld (field : FieldRef) : Moves shape locals ⟨.ldfld, .field field⟩ 1 1 :=
  moves_of_opcode rfl ⟨rfl, rfl⟩ ⟨rfl, rfl⟩ rfl

theorem moves_stfld (field : FieldRef) : Moves shape locals ⟨.stfld, .field field⟩ 2 0 :=
  moves_of_opcode rfl ⟨rfl, rfl⟩ ⟨rfl, rfl⟩ rfl

theorem moves_newarr (element : TypeSig) : Moves shape locals ⟨.newarr, .type element⟩ 1 1 :=
  moves_of_opcode rfl ⟨rfl, rfl⟩ ⟨rfl, rfl⟩ rfl

theorem moves_call {method : MethodRef} (calls : method.Exchanges pops pushes) :
    Moves shape locals ⟨.call, .method method⟩ pops pushes :=
  moves_of_opcode rfl ⟨rfl, rfl⟩ ⟨rfl, rfl⟩ (by rw [← calls.pops, ← calls.pushes]; rfl)

theorem moves_callvirt {method : MethodRef} (calls : method.Exchanges pops pushes) :
    Moves shape locals ⟨.callvirt, .method method⟩ pops pushes :=
  moves_of_opcode rfl ⟨rfl, rfl⟩ ⟨rfl, rfl⟩ (by rw [← calls.pops, ← calls.pushes]; rfl)

theorem moves_newobj {constructor : MethodRef} {count : Nat}
    (takes : constructor.parameters.length = count) :
    Moves shape locals ⟨.newobj, .method constructor⟩ count 1 :=
  moves_of_opcode rfl ⟨rfl, rfl⟩ ⟨rfl, rfl⟩ (by rw [← takes]; rfl)

/-- The literal of a constant is one value, made within one slot above the depth it starts from. -/
theorem straight_push? {constant : Constant} {code : List Instruction} {bound depth : Nat}
    (pushes : constant.push? = some code) (within : depth + 1 ≤ bound) :
    Straight shape locals bound depth code (depth + 1) := by
  have start : depth ≤ bound := Nat.le_of_succ_le within
  have one : ∀ {instruction : Instruction}, Moves shape locals instruction 0 1 →
      Straight shape locals bound depth [instruction] (depth + 1) :=
    fun moves => .step moves (Nat.zero_le _) start (.nil within)
  have widened : ∀ {opcode : Opcode} (word : Int32), Moves shape locals opcode.plain 1 1 →
      Straight shape locals bound depth [.pushInt32 word, opcode.plain] (depth + 1) :=
    fun word moves => .step (moves_pushInt32 word) (Nat.zero_le _) start
      (.step moves (by omega) within (.nil within))
  cases Constant.literalForm_of_push? pushes with
  | string _ => exact one (moves_pushString _)
  | int32 _ => exact one (moves_pushInt32 _)
  | signed _ | unsigned _ => exact widened _ (moves_of_opcode rfl ⟨rfl, rfl⟩ ⟨rfl, rfl⟩ rfl)
  | int64 _ | float32 _ | float64 _ =>
      exact one (moves_of_opcode rfl ⟨rfl, rfl⟩ ⟨rfl, rfl⟩ rfl)

/-! ## Branches and returns -/

theorem agrees_br {depths : List Nat} {index depth : Nat} {target : UInt64}
    (jump : depths[target.toNat]? = some depth) :
    Agrees shape locals depths index depth ⟨.br, .branch target⟩ where
  operand := rfl
  argument := by simp [Instruction.argument?]
  slot := by simp [Instruction.local?]
  enough := Nat.zero_le depth
  balanced returns := by cases returns
  jump next names := by
    obtain rfl := Option.some.inj names
    exact jump
  next continues := by cases continues

theorem agrees_brtrue {depths : List Nat} {index depth : Nat} {target : UInt64}
    (jump : depths[target.toNat]? = some depth) (next : depths[index + 1]? = some depth) :
    Agrees shape locals depths index (depth + 1) ⟨.brtrue, .branch target⟩ where
  operand := rfl
  argument := by simp [Instruction.argument?]
  slot := by simp [Instruction.local?]
  enough := Nat.le_add_left 1 depth
  balanced returns := by cases returns
  jump next names := by
    obtain rfl := Option.some.inj names
    exact jump
  next _ := next

theorem agrees_ret {depths : List Nat} {index depth : Nat}
    (balanced : depth = shape.returnsValue.toNat) :
    Agrees shape locals depths index depth Opcode.ret.plain where
  operand := rfl
  argument := by simp [Instruction.argument?, Opcode.plain]
  slot := by simp [Instruction.local?, Opcode.plain]
  enough := Nat.le_of_eq balanced.symm
  balanced _ := balanced
  jump _ names := by cases names
  next continues := by cases continues

end Verification

end PropertyWeaver
