import PropertyWeaver.Proofs.Image.Lengths
import PropertyWeaver.Proofs.Weaving.EmittedScopes
import PropertyWeaver.Proofs.Weaving.PassFrame

/-!
# Images of woven modules

Weaving keeps what decoding establishes: synthesized operands fit, code that stays is shifted only, and
methods are appended at most. So a woven module that can be counted is read back.
-/

set_option autoImplicit false

namespace PropertyWeaver

/-! ## Edits -/

namespace Edit

variable {holds : Instruction → Prop} {edit : Edit} {type : TypeDef}

private theorem allCode_changeMethod
    (stable : ∀ instruction shift, holds instruction → holds (instruction.mapTarget shift))
    (brings : edit.Brings holds) (cursor : Nat → Nat) (index : Nat) {method : MethodDef}
    (all : ∀ body ∈ method.body, ∀ instruction ∈ body.instructions, holds instruction) :
    ∀ body ∈ (edit.changeMethod cursor index method).body, ∀ instruction ∈ body.instructions,
      holds instruction := by
  cases edit with
  | replaceBody target body =>
      simp only [changeMethod]
      split
      · intro other has
        obtain rfl := Option.some.inj has
        exact brings
      · exact all
  | prependToConstructor target block maxStack =>
      simp only [changeMethod]
      split
      · intro other has instruction member
        obtain ⟨body, stored, rfl⟩ := Option.map_eq_some_iff.mp has
        have shifted : ∀ instruction ∈ body.instructions.map (Instruction.mapTarget
            (MethodBody.shiftTarget (cursor target) block.length)), holds instruction := by
          intro instruction member
          obtain ⟨before, listed, rfl⟩ := List.mem_map.mp member
          exact stable before _ (all body stored before listed)
        rw [MethodBody.withPrelude, MethodBody.instructions_insert] at member
        simp only [List.mem_append] at member
        rcases member with (front | inside) | back
        · exact shifted instruction (List.mem_of_mem_take front)
        · exact brings instruction inside
        · exact shifted instruction (List.mem_of_mem_drop back)
      · exact all
  | addField field => exact all
  | removeField name => exact all
  | addMethod added => exact all

private theorem allCode_change
    (stable : ∀ instruction shift, holds instruction → holds (instruction.mapTarget shift))
    (brings : edit.Brings holds) (cursor : Nat → Nat) (all : type.AllCode holds) :
    (edit.change cursor type).AllCode holds := by
  intro method member
  rcases List.mem_append.mp member with kept | added
  · obtain ⟨index, inside, rfl⟩ := List.mem_mapIdx.mp kept
    exact allCode_changeMethod stable brings cursor index (all _ (List.getElem_mem inside))
  · cases edit with
    | addMethod method =>
        obtain rfl := List.mem_singleton.mp added
        exact brings
    | _ => exact absurd added List.not_mem_nil

private theorem hasAccessors_change (cursor : Nat → Nat) (accessors : type.HasAccessors) :
    (edit.change cursor type).HasAccessors := by
  intro property declared accessor named
  have before := accessors property declared accessor named
  simp only [change, List.length_append, List.length_mapIdx]
  omega

end Edit

/-! ## The pass -/

namespace Module

variable {resolver : Resolver} {configuration : Configuration} {module woven : Module}
  {report : WeaveReport}

private theorem Decoded.applyEdit {state : WeavingState} (decoded : state.module.Decoded)
    {edit : Edit}
    (fits : edit.Brings fun instruction => instruction.wellFormed = true) (type : Nat) :
    (WeavingState.applyEdit type state edit).module.Decoded := by
  have stable : ∀ (instruction : Instruction) shift, instruction.wellFormed = true →
      (instruction.mapTarget shift).wellFormed = true :=
    fun instruction shift fits => by rw [Instruction.wellFormed_mapTarget, fits]
  have rest := (WeavingState.grows_applyEdit type state edit).rest
  have types := WeavingState.types_applyEdit type state edit
  refine ⟨?_, ?_, ?_, ?_⟩
  · rw [rest]
    exact decoded.magic
  · rw [rest]
    exact decoded.version
  · rw [AllCode, types]
    exact forall_mem_modify decoded.fits fun definition => Edit.allCode_change stable fits _
  · rw [types]
    exact forall_mem_modify decoded.accessors fun definition => Edit.hasAccessors_change _

private theorem isInstrumented_markInstrumented (module : Module) :
    module.markInstrumented.isInstrumented = true := by
  have marked : (module.flags ||| ModuleFlag.instrumented) &&& ModuleFlag.instrumented =
      ModuleFlag.instrumented := by
    refine UInt32.toBitVec_inj.mp (BitVec.eq_of_getLsbD_eq fun index _ => ?_)
    simp only [UInt32.toBitVec_and, UInt32.toBitVec_or, BitVec.getLsbD_and, BitVec.getLsbD_or]
    exact Bool.and_eq_right_iff_imp.mpr fun set => by rw [set, Bool.or_true]
  simp only [isInstrumented, hasFlag, markInstrumented, marked]
  rfl

theorem Decoded.weave (decoded : module.Decoded)
    (weaves : module.weave resolver configuration = .ok (woven, report)) : woven.Decoded := by
  rcases weave_eq_ok weaves with ⟨-, rfl⟩ | ⟨-, state, ran, rfl, -⟩
  · exact decoded
  have made : state.module.Decoded := by
    refine WeavingState.preserves_visits
      (fun between task edit _ executed change member state decoded => ?_) decoded ran
    -- Operands fit wherever lookups lead, so every scope counts as known here.
    have within : (WeavingContext.ofModule between.module resolver configuration).metadata.Within
        fun _ => True := ⟨fun _ _ => trivial, trivial, fun _ _ _ _ _ => ⟨trivial, fun _ _ => trivial⟩⟩
    exact decoded.applyEdit (Task.fitting_of_execute within trivial executed change member).fits _
  exact ⟨made.magic, made.version, made.fits, made.accessors⟩

theorem isInstrumented_of_weave (weaves : module.weave resolver configuration = .ok (woven, report)) :
    woven.isInstrumented = true := by
  rcases weave_eq_ok weaves with ⟨instrumented, rfl⟩ | ⟨-, state, -, rfl, -⟩
  · exact instrumented
  · exact isInstrumented_markInstrumented state.module

end Module

end PropertyWeaver
