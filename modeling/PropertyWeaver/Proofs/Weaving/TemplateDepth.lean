import PropertyWeaver.Proofs.Verification.Moves
import PropertyWeaver.Proofs.Weaving.Templates

/-!
# Stack depth of synthesized code

The bounds that the tasks declare are those that their code needs: for every source of a value,
every equality, every default value and any number of identifiers.
-/

set_option autoImplicit false

namespace PropertyWeaver

open Verification

/-- A comparison that takes two values and leaves one. -/
def Equality.Comparing : Equality → Prop
  | .primitive => True
  | .method member => member.Exchanges 2 1

/-- A source whose methods take and leave what the setter expects. -/
def ValueSource.Accessible : ValueSource → Prop
  | .field _ => True
  | .mapping _ getValue setValue => getValue.Exchanges 2 1 ∧ setValue.Exchanges 3 0

variable {shape : BodyShape}

private theorem moves_compare {locals : Nat} {equality : Equality} (compares : equality.Comparing) :
    Moves shape locals equality.compare 2 1 := by
  cases equality with
  | primitive => exact moves_ceq
  | method member => exact moves_call compares

theorem mappedGetter_verify {field : FieldRef} {getValue : MethodRef}
    (receiver : 0 < shape.argumentCount) (returns : shape.returnsValue = true)
    (reads : getValue.Exchanges 2 1) :
    (WeavingContext.mappedGetter field getValue).verify shape = .ok () := by
  refine Layout.verify [0, 1, 2, 2, 1] ⟨rfl, rfl, ?_, ?_⟩
  · simp only [WeavingContext.mappedGetter, MethodBody.ofCode, forall_getElem?_cons]
    exact ⟨(moves_ldarg0 receiver).agrees (by decide) rfl,
      (moves_ldarg0 receiver).agrees (by decide) rfl,
      (moves_ldfld field).agrees (by decide) rfl,
      (moves_callvirt reads).agrees (by decide) rfl,
      agrees_ret (by simp [returns]), by simp⟩
  · simp [WeavingContext.mappedGetter, MethodBody.ofCode]

/-- The notifying setter stays within two values over a field and within four over a mapping. -/
theorem setter_verify {source : ValueSource} {equality : Equality} {notify : MethodRef}
    (value : 1 < shape.argumentCount) (returns : shape.returnsValue = false)
    (accessible : source.Accessible) (compares : equality.Comparing)
    (notifies : notify.Exchanges 2 0) (propertyName : String) :
    (MethodBody.ofCode source.maxStack
      (setterCode source equality notify propertyName)).verify shape = .ok () := by
  have receiver : 0 < shape.argumentCount := Nat.lt_of_succ_lt value
  cases source with
  | field field =>
      refine Layout.verify [0, 1, 1, 2, 1, 2, 1, 0, 0, 1, 2, 0, 1, 2, 0]
        ⟨rfl, rfl, ?_, ?_⟩
      · simp only [MethodBody.ofCode, setterCode, ValueSource.load, ValueSource.store,
          List.cons_append, List.nil_append, forall_getElem?_cons]
        exact ⟨(moves_ldarg0 receiver).agrees (by decide) rfl,
          (moves_ldfld field).agrees (by decide) rfl,
          (moves_ldarg1 value).agrees (by decide) rfl,
          (moves_compare compares).agrees (by decide) rfl,
          (moves_pushInt32 0).agrees (by decide) rfl,
          moves_ceq.agrees (by decide) rfl,
          agrees_brtrue rfl rfl,
          agrees_br rfl,
          (moves_ldarg0 receiver).agrees (by decide) rfl,
          (moves_ldarg1 value).agrees (by decide) rfl,
          (moves_stfld field).agrees (by decide) rfl,
          (moves_ldarg0 receiver).agrees (by decide) rfl,
          (moves_pushString propertyName).agrees (by decide) rfl,
          (moves_callvirt notifies).agrees (by decide) rfl,
          agrees_ret (by simp [returns]), by simp⟩
      · simp [MethodBody.ofCode, ValueSource.maxStack]
  | mapping field getValue setValue =>
      obtain ⟨reads, writes⟩ := accessible
      refine Layout.verify
        [0, 1, 2, 2, 1, 2, 1, 2, 1, 0, 0, 1, 2, 2, 3, 0, 1, 2, 0] ⟨rfl, rfl, ?_, ?_⟩
      · simp only [MethodBody.ofCode, setterCode, ValueSource.load, ValueSource.store,
          List.cons_append, List.nil_append, forall_getElem?_cons]
        exact ⟨(moves_ldarg0 receiver).agrees (by decide) rfl,
          (moves_ldarg0 receiver).agrees (by decide) rfl,
          (moves_ldfld field).agrees (by decide) rfl,
          (moves_callvirt reads).agrees (by decide) rfl,
          (moves_ldarg1 value).agrees (by decide) rfl,
          (moves_compare compares).agrees (by decide) rfl,
          (moves_pushInt32 0).agrees (by decide) rfl,
          moves_ceq.agrees (by decide) rfl,
          agrees_brtrue rfl rfl,
          agrees_br rfl,
          (moves_ldarg0 receiver).agrees (by decide) rfl,
          (moves_ldarg0 receiver).agrees (by decide) rfl,
          (moves_ldfld field).agrees (by decide) rfl,
          (moves_ldarg1 value).agrees (by decide) rfl,
          (moves_callvirt writes).agrees (by decide) rfl,
          (moves_ldarg0 receiver).agrees (by decide) rfl,
          (moves_pushString propertyName).agrees (by decide) rfl,
          (moves_callvirt notifies).agrees (by decide) rfl,
          agrees_ret (by simp [returns]), by simp⟩
      · simp [MethodBody.ofCode, ValueSource.maxStack]

/-- The code that initialises a mapping field keeps the stack empty. -/
theorem straight_prelude {locals : Nat} {constructor : MethodRef} {field : FieldRef}
    {name identifier : String} {default : Option (List Instruction)}
    (receiver : 0 < shape.argumentCount)
    (literal : ∀ code ∈ default, ∃ constant : Constant, constant.push? = some code)
    (takes : constructor.parameters.length = if default.isSome then 3 else 2) :
    Straight shape locals (if default.isSome then 4 else 3) 0
      ([Opcode.ldarg0.plain, .pushString name, .pushString identifier] ++ default.getD [] ++
        [⟨.newobj, .method constructor⟩, ⟨.stfld, .field field⟩]) 0 := by
  cases default with
  | none =>
      exact .step (moves_ldarg0 receiver) (by decide) (by decide)
        (.step (moves_pushString name) (by decide) (by decide)
          (.step (moves_pushString identifier) (by decide) (by decide)
            (.step (moves_newobj takes) (by decide) (by decide)
              (.step (moves_stfld field) (by decide) (by decide) (.nil (by decide))))))
  | some code =>
      obtain ⟨constant, pushes⟩ := literal code rfl
      have takes : constructor.parameters.length = 3 := takes
      have arguments : Straight shape locals 4 0
          [Opcode.ldarg0.plain, .pushString name, .pushString identifier] 3 :=
        .step (moves_ldarg0 receiver) (by decide) (by decide)
          (.step (moves_pushString name) (by decide) (by decide)
            (.step (moves_pushString identifier) (by decide) (by decide) (.nil (by decide))))
      have made : Straight shape locals 4 4
          [⟨.newobj, .method constructor⟩, ⟨.stfld, .field field⟩] 0 :=
        .step (moves_newobj takes) (by decide) (by decide)
          (.step (moves_stfld field) (by decide) (by decide) (.nil (by decide)))
      exact (arguments.append (straight_push? pushes (by decide))).append made

private theorem straight_storeIdentifiers {locals : Nat} {constructor : MethodRef}
    (takes : constructor.parameters.length = 1) (blocks : List (List Instruction))
    (stores : ∀ block ∈ blocks, ∃ index identifier,
      block = WeavingContext.storeIdentifier constructor index identifier) :
    Straight shape locals 4 1 blocks.flatten 1 := by
  induction blocks with
  | nil => exact .nil (by decide)
  | cons block blocks hypothesis =>
      obtain ⟨⟨index, identifier, rfl⟩, rest⟩ := List.forall_mem_cons.mp stores
      exact .step moves_dup (by decide) (by decide)
        (.step (moves_pushInt32 _) (by decide) (by decide)
          (.step (moves_pushString identifier) (by decide) (by decide)
            (.step (moves_newobj takes) (by decide) (by decide)
              (.step moves_stelemRef (by decide) (by decide) (hypothesis rest)))))

/-- The query is a filled array in front of code that returns the local. -/
theorem queryCode_eq_insert (element : TypeSig) (constructor : MethodRef)
    (identifiers : List String) (maxStack : UInt16) (locals : List TypeSig) (initLocals : Bool) :
    (⟨maxStack, locals, initLocals,
        WeavingContext.queryCode element constructor identifiers⟩ : MethodBody) =
      MethodBody.insert
        ⟨maxStack, locals, initLocals,
          [⟨.br, .branch 1⟩, .loadLocal 0, Opcode.ret.plain]⟩ 0
        ([.pushInt32 (Int32.ofNat identifiers.length), ⟨.newarr, .type element⟩] ++
          (identifiers.mapIdx (WeavingContext.storeIdentifier constructor)).flatten ++
          [.storeLocal 0]) := by
  have length := WeavingContext.length_storeIdentifiers constructor identifiers
  have target : 5 * UInt64.ofNat identifiers.length + 4 =
      MethodBody.shiftTarget 0 (2 + 5 * identifiers.length + 1) 1 := by
    simp only [MethodBody.shiftTarget, Nat.zero_le, if_true, UInt64.ofNat_add, UInt64.ofNat_mul]
    grind
  simp only [MethodBody.insert, WeavingContext.queryCode, List.take_zero, List.nil_append,
    List.drop_zero, List.map_cons, List.map_nil, List.length_append, length, List.length_cons,
    List.length_nil]
  simpa [Instruction.mapTarget, Instruction.loadLocal, Opcode.plain] using target

/-- A query verifies for any number of identifiers whose code can be addressed. -/
theorem query_verify {element returnType : TypeSig} {constructor : MethodRef}
    {identifiers : List String} (returns : shape.returnsValue = true)
    (takes : constructor.parameters.length = 1) (fits : 5 * identifiers.length + 6 < 2 ^ 64) :
    (⟨4, [returnType], true,
      WeavingContext.queryCode element constructor identifiers⟩ : MethodBody).verify shape =
        .ok () := by
  have base : (⟨4, [returnType], true,
      [⟨.br, .branch 1⟩, .loadLocal 0, Opcode.ret.plain]⟩ : MethodBody).verify shape = .ok () := by
    refine Layout.verify [0, 0, 1] ⟨rfl, rfl, ?_, by simp⟩
    simp only [forall_getElem?_cons]
    exact ⟨agrees_br rfl, (moves_ldloc0 (by simp)).agrees (by decide) rfl,
      agrees_ret (by simp [returns]), by simp⟩
  have stores : Straight shape 1 4 1
      (identifiers.mapIdx (WeavingContext.storeIdentifier constructor)).flatten 1 :=
    straight_storeIdentifiers takes _ (by
      intro block member
      obtain ⟨index, inside, rfl⟩ := List.mem_mapIdx.mp member
      exact ⟨index, _, rfl⟩)
  have made : Straight shape 1 4 0
      [.pushInt32 (Int32.ofNat identifiers.length), ⟨.newarr, .type element⟩] 1 :=
    .step (moves_pushInt32 _) (by decide) (by decide)
      (.step (moves_newarr element) (by decide) (by decide) (.nil (by decide)))
  have kept : Straight shape 1 4 1 [.storeLocal 0] 0 :=
    .step (moves_stloc0 (by decide)) (by decide) (by decide) (.nil (by decide))
  rw [queryCode_eq_insert]
  refine verify_insert 4 base .start ?_ ((made.append stores).append kept)
  have length := WeavingContext.length_storeIdentifiers constructor identifiers
  simp only [List.length_append, length, List.length_cons, List.length_nil]
  omega

end PropertyWeaver
