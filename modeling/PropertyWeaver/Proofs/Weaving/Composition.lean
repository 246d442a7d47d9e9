import PropertyWeaver.Proofs.Weaving.Links
import PropertyWeaver.Proofs.Weaving.Preludes

/-!
# What woven code is composed of

A body is synthesized code and, behind it, what is kept of the original code: nothing once the body has
been replaced, and otherwise all of it with its targets shifted. The synthesized part links in the woven
module, since everything that it refers to has been there when it was made and is there at the end.
-/

set_option autoImplicit false

namespace PropertyWeaver

/-- A body whose instructions have a quality, but for those that are kept of the original one. -/
def MethodBody.Composed (holds : Instruction → Prop) (original : Option MethodBody)
    (body : MethodBody) : Prop :=
  ∃ synthesized kept, body.instructions = synthesized ++ kept ∧
    (∀ instruction ∈ synthesized, holds instruction) ∧
    (kept = [] ∨ ∃ before ∈ original, ∃ shift,
      kept = before.instructions.map (Instruction.mapTarget shift))

/-- A method whose next prelude goes behind the synthesized code. -/
def MethodState.Composed (holds : Instruction → Prop) (original : Option MethodBody)
    (slot : MethodState) : Prop :=
  ∀ body ∈ slot.method.body, ∃ synthesized kept, body.instructions = synthesized ++ kept ∧
    (∀ instruction ∈ synthesized, holds instruction) ∧
    (kept = [] ∨ slot.cursor = synthesized.length ∧ ∃ before ∈ original, ∃ shift,
      kept = before.instructions.map (Instruction.mapTarget shift))

namespace MethodState

variable {holds : Instruction → Prop} {original : Option MethodBody} {slot : MethodState}

theorem Composed.mono {holds' : Instruction → Prop} (composed : slot.Composed holds original)
    (weaker : ∀ instruction, holds instruction → holds' instruction) :
    slot.Composed holds' original := by
  intro body has
  obtain ⟨synthesized, kept, split, each, rest⟩ := composed body has
  exact ⟨synthesized, kept, split, fun instruction member => weaker _ (each instruction member), rest⟩

theorem composed_original (holds : Instruction → Prop) (method : MethodDef) :
    Composed holds method.body ⟨method, 0⟩ := by
  intro body has
  exact ⟨[], body.instructions, rfl, by simp, .inr ⟨rfl, body, has, id,
    (Instruction.map_mapTarget_id _).symm⟩⟩

theorem Composed.advance (composed : slot.Composed holds original)
    (stable : ∀ instruction shift, holds instruction → holds (instruction.mapTarget shift))
    {edit : Edit} (brings : edit.Brings holds) (index : Nat) :
    (edit.advance index slot).Composed holds original := by
  cases edit with
  | replaceBody target body =>
      simp only [Edit.advance]
      split
      · intro other has
        obtain rfl := Option.some.inj has
        exact ⟨body.instructions, [], (List.append_nil _).symm, brings, .inl rfl⟩
      · exact composed
  | prependToConstructor target block maxStack =>
      simp only [Edit.advance]
      split
      · split
        · exact composed
        · next old stored =>
          intro body has
          obtain rfl := Option.some.inj has
          obtain ⟨synthesized, kept, split, each, rest⟩ := composed old stored
          have shifted : ∀ instruction ∈ synthesized.map
              (Instruction.mapTarget (MethodBody.shiftTarget slot.cursor block.length)),
              holds instruction := by
            intro instruction member
            obtain ⟨before, listed, rfl⟩ := List.mem_map.mp member
            exact stable before _ (each before listed)
          rcases rest with rfl | ⟨cursor, before, original, shift, rfl⟩
          · rw [List.append_nil] at split
            refine ⟨(old.insert slot.cursor block).instructions, [], (List.append_nil _).symm, ?_,
              .inl rfl⟩
            rw [MethodBody.instructions_insert, split]
            intro instruction member
            simp only [List.mem_append] at member
            rcases member with (front | inside) | back
            · exact shifted instruction (List.mem_of_mem_take front)
            · exact brings instruction inside
            · exact shifted instruction (List.mem_of_mem_drop back)
          · have front : (synthesized.map (Instruction.mapTarget
                (MethodBody.shiftTarget slot.cursor block.length))).length = slot.cursor := by
              rw [List.length_map, cursor]
            refine ⟨_, _, ?_, List.forall_mem_append.mpr ⟨shifted, brings⟩,
              .inr ⟨?_, before, original, _, Instruction.map_mapTarget_map shift
                (MethodBody.shiftTarget slot.cursor block.length) before.instructions⟩⟩
            · change (old.insert slot.cursor block).instructions = _
              rw [MethodBody.instructions_insert, split, List.map_append, List.take_left' front,
                List.drop_left' front]
            · rw [List.length_append, front]
      · exact composed
  | _ => exact composed

end MethodState

namespace WeavingState

variable {holds : Instruction → Prop} {resolver : Resolver} {configuration : Configuration}
  {module : Module} {type : Nat} {state before after : WeavingState}

def Composed (holds : Instruction → Prop) (module : Module) (state : WeavingState) : Prop :=
  ∀ type index slot, state.methodState? type index = some slot →
    slot.Composed holds ((module.methodAt? type index).bind (·.body))

/-- A method behind an edit is one that the edit has acted on, or the one that it has added. -/
theorem methodState?_applyEdit_cases {edit : Edit} {index : Nat} {slot : MethodState}
    (found : (applyEdit type state edit).methodState? type index = some slot) :
    (∃ old, state.methodState? type index = some old ∧ slot = edit.advance index old) ∨
      edit = .addMethod slot.method := by
  cases here : state.methodState? type index with
  | some old =>
      have advanced := @methodState?_applyEdit _ _ _ _ edit here
      rw [found] at advanced
      exact .inl ⟨old, rfl, Option.some.inj advanced⟩
  | none =>
      have absent : state.module.methodAt? type index = none := Option.map_eq_none_iff.mp here
      have listed := (methodState?_eq_some.mp found).1
      rw [methodAt?_applyEdit] at listed
      obtain ⟨definition, stored, listed⟩ := Option.bind_eq_some_iff.mp listed
      rw [Module.methodAt?, stored, Option.bind_some] at absent
      have behind : definition.methods.length ≤ index := List.getElem?_eq_none_iff.mp absent
      rw [List.getElem?_append_right (by simpa using behind)] at listed
      have member := List.mem_of_getElem? listed
      cases edit with
      | addMethod method =>
          obtain same := List.mem_singleton.mp member
          exact .inr (congrArg Edit.addMethod same.symm)
      | _ => exact absurd member List.not_mem_nil

section Edits

variable (stable : ∀ instruction shift, holds instruction → holds (instruction.mapTarget shift))

include stable

private theorem Composed.applyEdit (composed : Composed holds module state) {edit : Edit}
    (brings : edit.Brings holds) : Composed holds module (applyEdit type state edit) := by
  intro other index slot found
  by_cases own : other = type
  · subst own
    rcases methodState?_applyEdit_cases found with ⟨old, here, rfl⟩ | added
    · exact (composed other index old here).advance stable brings index
    · subst added
      intro body has
      exact ⟨body.instructions, [], (List.append_nil _).symm, brings body has, .inl rfl⟩
  · rw [(elsewhere_applyEdit type state edit).methodState? own] at found
    exact composed other index slot found

private theorem Composed.foldl (composed : Composed holds module state) {edits : List Edit}
    (brings : ∀ edit ∈ edits, edit.Brings holds) :
    Composed holds module (edits.foldl (WeavingState.applyEdit type) state) := by
  induction edits generalizing state with
  | nil => exact composed
  | cons edit edits hypothesis =>
      obtain ⟨here, rest⟩ := List.forall_mem_cons.mp brings
      exact hypothesis (composed.applyEdit stable here) rest

end Edits

/-- What holds throughout a pass: names stay distinct, and the code that has been synthesized so far
links in the module so far. -/
structure Linked (resolver : Resolver) (configuration : Configuration) (module : Module)
    (state : WeavingState) : Prop where
  distinct : (state.module.types.map TypeDef.fullName).Nodup
  composed : Composed (WeavingContext.ofModule state.module resolver configuration).Links module state

private theorem Linked.runTask (names : resolver.OwnNames) {task : Task}
    (linked : Linked resolver configuration module state)
    (ran : WeavingState.runTask resolver configuration state task = .ok after) :
    Linked resolver configuration module after := by
  have extended := extends_runTask ran
  rcases runTask_eq_ok ran with rfl | ⟨edit, executed, rfl⟩
  · exact linked
  · have stable : ∀ instruction shift,
        (WeavingContext.ofModule state.module resolver configuration).Links instruction →
        (WeavingContext.ofModule state.module resolver configuration).Links
          (instruction.mapTarget shift) := by
      intro instruction shift links member named
      rw [Instruction.opcode_mapTarget]
      rw [Instruction.method?_mapTarget] at named
      exact links member named
    have composed : Composed (WeavingContext.ofModule state.module resolver configuration).Links
        module (edit.edits.foldl (applyEdit edit.type) state) :=
      linked.composed.foldl stable (Task.links_of_execute names linked.distinct executed)
    refine ⟨?_, fun type index slot found => ?_⟩
    · rw [TypeDef.fullNames_of_headers (elsewhere_apply state edit).headers]
      exact linked.distinct
    · refine (composed type index slot found).mono fun instruction links => ?_
      exact links.mono (extended.metadata resolver configuration) rfl names

private theorem Linked.foldlM (names : resolver.OwnNames) {tasks : List Task}
    (linked : Linked resolver configuration module before)
    (ran : tasks.foldlM (WeavingState.runTask resolver configuration) before = .ok after) :
    Linked resolver configuration module after :=
  Outcome.foldlM_invariant (fun _ state => Linked resolver configuration module state)
    (fun _ _ _ _ linked executed => linked.runTask names executed) linked ran

theorem Linked.weaveType (names : resolver.OwnNames)
    (linked : Linked resolver configuration module state)
    (visited : WeavingState.weaveType resolver configuration state type = .ok after) :
    Linked resolver configuration module after := by
  have ready : Linked resolver configuration module { state with touched := [] } :=
    ⟨linked.distinct, linked.composed⟩
  exact ready.foldlM names (weaveType_eq_ok.mp visited).1

theorem linked_initial (distinct : (module.types.map TypeDef.fullName).Nodup) :
    Linked resolver configuration module (.initial module) := by
  refine ⟨distinct, fun type index slot found => ?_⟩
  obtain ⟨method, cursor⟩ := slot
  obtain ⟨stored, same⟩ := methodState?_eq_some.mp found
  obtain rfl : 0 = cursor := same
  change module.methodAt? type index = some method at stored
  rw [stored]
  exact MethodState.composed_original _ method

end WeavingState

end PropertyWeaver
