import PropertyWeaver.Proofs.Weaving.Frame

/-!
# One method under edits

The edits of a type act on each of its methods alone: what they make of a method depends on that
method and on the place of its next prelude. Methods that are added come behind all others.
-/

set_option autoImplicit false

namespace PropertyWeaver

/-- A method and the number of prelude instructions at its start. -/
structure MethodState where
  method : MethodDef
  cursor : Nat

def Edit.advance (index : Nat) (state : MethodState) : Edit → MethodState
  | .replaceBody target body =>
      if target = index then ⟨{ state.method with body := some body }, state.cursor⟩ else state
  | .prependToConstructor target block maxStack =>
      if target = index then
        match state.method.body with
        | none => state
        | some body =>
            ⟨{ state.method with body := some (body.withPrelude state.cursor block maxStack) },
              state.cursor + block.length⟩
      else state
  | .addField _ | .removeField _ | .addMethod _ => state

def MethodState.after (state : MethodState) (index : Nat) (edits : List Edit) : MethodState :=
  edits.foldl (Edit.advance index) state

namespace Edit

def hasBody (definition : Option TypeDef) (method : Nat) : Bool :=
  ((definition.bind fun type => type.methods[method]?).bind (·.body)).isSome

/-- The number of prelude instructions at the start of each method of the type, after an edit. -/
def advanceCursor (definition : Option TypeDef) (cursor : Nat → Nat) : Edit → Nat → Nat
  | .prependToConstructor method block _ => fun index =>
      if hasBody definition method ∧ index = method then cursor method + block.length else cursor index
  | .replaceBody _ _ | .addField _ | .removeField _ | .addMethod _ => cursor

def touches (definition : Option TypeDef) : Edit → List Nat
  | .replaceBody method _ => [method]
  | .prependToConstructor method _ _ => if hasBody definition method then [method] else []
  | .addMethod _ => [(definition.map fun type => type.methods.length).getD 0]
  | .addField _ | .removeField _ => []

end Edit

namespace MethodState

variable {state : MethodState} {index : Nat}

@[simp] theorem after_nil : state.after index [] = state := rfl

@[simp] theorem after_cons {edit : Edit} {edits : List Edit} :
    state.after index (edit :: edits) = (edit.advance index state).after index edits := rfl

theorem after_append {first second : List Edit} :
    state.after index (first ++ second) = (state.after index first).after index second :=
  List.foldl_append ..

@[simp] theorem header_advance (edit : Edit) :
    (edit.advance index state).method.header = state.method.header := by
  cases edit with
  | replaceBody target body =>
      simp only [Edit.advance]
      split <;> rfl
  | prependToConstructor target block maxStack =>
      simp only [Edit.advance]
      split
      · split <;> rfl
      · rfl
  | _ => rfl

theorem header_after (edits : List Edit) :
    (state.after index edits).method.header = state.method.header := by
  induction edits generalizing state with
  | nil => rfl
  | cons edit edits hypothesis => rw [after_cons, hypothesis, header_advance]

/-- Edits that leave the state of a method alone can be left out. -/
theorem after_eq_self {edits : List Edit}
    (still : ∀ edit ∈ edits, edit.advance index state = state) : state.after index edits = state := by
  induction edits with
  | nil => rfl
  | cons edit edits hypothesis =>
      obtain ⟨here, rest⟩ := List.forall_mem_cons.mp still
      rw [after_cons, here, hypothesis rest]

end MethodState

namespace WeavingState

variable {type index : Nat} {state : WeavingState} {slot : MethodState}

def methodState? (state : WeavingState) (type index : Nat) : Option MethodState :=
  (state.module.methodAt? type index).map fun method => ⟨method, state.cursors (type, index)⟩

theorem methodState?_eq_some :
    state.methodState? type index = some slot ↔
      state.module.methodAt? type index = some slot.method ∧
        state.cursors (type, index) = slot.cursor := by
  obtain ⟨method, cursor⟩ := slot
  simp only [methodState?, Option.map_eq_some_iff, MethodState.mk.injEq]
  constructor
  · rintro ⟨_, found, rfl, rfl⟩
    exact ⟨found, rfl⟩
  · rintro ⟨found, rfl⟩
    exact ⟨method, found, rfl, rfl⟩

/-- Where a method is after an edit: at its index, or behind all others if it has been added. -/
theorem methodAt?_applyEdit (state : WeavingState) (edit : Edit) (type index : Nat) :
    (applyEdit type state edit).module.methodAt? type index =
      state.module.types[type]?.bind fun definition =>
        (definition.methods.mapIdx (edit.changeMethod (state.cursor type)) ++
          edit.addedMethods)[index]? := by
  rw [Module.methodAt?, types_applyEdit, List.getElem?_modify_eq]
  cases state.module.types[type]? <;> rfl

theorem methodAt?_eq_some {module : Module} {method : MethodDef} :
    module.methodAt? type index = some method ↔
      ∃ definition, module.types[type]? = some definition ∧
        definition.methods[index]? = some method :=
  Option.bind_eq_some_iff

theorem body?_eq_bind (state : WeavingState) :
    state.body? type index = (state.module.methodAt? type index).bind (·.body) := by
  simp only [body?, Module.methodAt?, Option.bind_eq_bind, Option.bind_assoc]

theorem hasBody_eq (type : Nat) (state : WeavingState) (method : Nat) :
    Edit.hasBody state.module.types[type]? method = (state.body? type method).isSome := by
  rw [body?_eq_bind]
  rfl

theorem cursors_applyEdit (type : Nat) (state : WeavingState) (edit : Edit) (key : Nat × Nat) :
    (applyEdit type state edit).cursors key =
      if key.1 = type then
        edit.advanceCursor state.module.types[type]? (state.cursor type) key.2
      else state.cursors key := by
  obtain ⟨other, index⟩ := key
  by_cases here : other = type
  · subst here
    rw [if_pos rfl]
    cases edit with
    | prependToConstructor method block maxStack =>
        simp only [Edit.advanceCursor, hasBody_eq]
        cases has : state.body? other method with
        | none =>
            rw [applyEdit_prepend_of_none has]
            simp [cursor, importScopes]
        | some body =>
            obtain ⟨-, cursors⟩ := @applyEdit_prepend_of_some _ _ _ block maxStack _ has
            simpa [cursor] using cursors index
    | _ => rfl
  · rw [if_neg here]
    exact (elsewhere_applyEdit type state edit).cursors other here index

theorem touched_applyEdit_eq (type : Nat) (state : WeavingState) (edit : Edit) :
    (applyEdit type state edit).touched = edit.touches state.module.types[type]? ++ state.touched := by
  cases edit with
  | prependToConstructor method block maxStack =>
      simp only [Edit.touches, hasBody_eq]
      cases has : state.body? type method with
      | none =>
          rw [applyEdit_prepend_of_none has]
          rfl
      | some body =>
          obtain ⟨touched, -⟩ := @applyEdit_prepend_of_some _ _ _ block maxStack _ has
          exact touched
  | addMethod method => simp [applyEdit, addMethod, importScopes, Edit.touches]
  | _ => rfl

private theorem method_advance {edit : Edit} (cursor : state.cursors (type, index) = slot.cursor) :
    edit.changeMethod (state.cursor type) index slot.method = (edit.advance index slot).method := by
  cases edit with
  | replaceBody target body =>
      simp only [Edit.changeMethod, Edit.advance, eq_comm (a := index)]
      split <;> rfl
  | prependToConstructor target block maxStack =>
      simp only [Edit.changeMethod, Edit.advance, eq_comm (a := index)]
      split
      · next here =>
        subst here
        cases has : slot.method.body with
        | none => exact congrArg _ has.symm
        | some body => simp [WeavingState.cursor, cursor]
      · rfl
  | _ => rfl

private theorem hasBody_of_methodAt? {method : MethodDef}
    (stored : state.module.methodAt? type index = some method) :
    Edit.hasBody state.module.types[type]? index = method.body.isSome := by
  rw [hasBody_eq, body?_eq_bind, stored, Option.bind_some]

private theorem cursor_advance {edit : Edit} (found : state.methodState? type index = some slot) :
    (applyEdit type state edit).cursors (type, index) = (edit.advance index slot).cursor := by
  obtain ⟨stored, same⟩ := methodState?_eq_some.mp found
  rw [cursors_applyEdit, if_pos rfl]
  cases edit with
  | prependToConstructor target block maxStack =>
      simp only [Edit.advanceCursor, Edit.advance]
      by_cases here : target = index
      · subst here
        rw [hasBody_of_methodAt? stored]
        cases slot.method.body <;> simp [cursor, same]
      · rw [if_neg here, if_neg fun both => here both.2.symm]
        exact same
  | replaceBody target body =>
      simp only [Edit.advance]
      split <;> exact same
  | _ => exact same

/-- An edit acts on each method alone. -/
theorem methodState?_applyEdit {edit : Edit} (found : state.methodState? type index = some slot) :
    (applyEdit type state edit).methodState? type index = some (edit.advance index slot) := by
  obtain ⟨stored, same⟩ := methodState?_eq_some.mp found
  obtain ⟨definition, there, listed⟩ := methodAt?_eq_some.mp stored
  refine methodState?_eq_some.mpr ⟨?_, cursor_advance found⟩
  rw [methodAt?_applyEdit, there, Option.bind_some, ← method_advance same]
  have inside : index < definition.methods.length := (List.getElem?_eq_some_iff.mp listed).1
  rw [List.getElem?_append_left (by simpa using inside), List.getElem?_mapIdx, listed]
  rfl

private theorem methodState?_foldl {edits : List Edit}
    (found : state.methodState? type index = some slot) :
    (edits.foldl (applyEdit type) state).methodState? type index = some (slot.after index edits) := by
  induction edits generalizing state slot with
  | nil => exact found
  | cons edit edits hypothesis => exact hypothesis (methodState?_applyEdit found)

theorem methodState?_apply {edit : TypeEdit}
    (found : state.methodState? edit.type index = some slot) :
    (state.apply edit).methodState? edit.type index = some (slot.after index edit.edits) :=
  methodState?_foldl found

theorem Elsewhere.methodState? {before after : WeavingState} {other : Nat}
    (elsewhere : Elsewhere type before after) (different : other ≠ type) :
    after.methodState? other index = before.methodState? other index := by
  unfold WeavingState.methodState? Module.methodAt?
  rw [elsewhere.types other different, elsewhere.cursors other different]

/-! ## Touched methods -/

theorem touched_applyEdit (edit : Edit) : state.touched ⊆ (applyEdit type state edit).touched := by
  rw [touched_applyEdit_eq]
  exact List.subset_append_right ..

private theorem not_mem_touches {edit : Edit}
    (fresh : index ∉ (applyEdit type state edit).touched) :
    index ∉ edit.touches state.module.types[type]? := by
  rw [touched_applyEdit_eq] at fresh
  exact fun member => fresh (List.mem_append_left _ member)

private theorem changeMethod_of_untouched {edit : Edit} {method : MethodDef}
    (found : state.module.methodAt? type index = some method)
    (fresh : index ∉ (applyEdit type state edit).touched) :
    edit.changeMethod (state.cursor type) index method = method := by
  have untouched := not_mem_touches fresh
  cases edit with
  | replaceBody target body =>
      have other : index ≠ target := fun same => untouched (same ▸ List.mem_cons_self)
      exact if_neg other
  | prependToConstructor target block maxStack =>
      simp only [Edit.changeMethod]
      split
      · next here =>
        -- nothing is put into a method without a body, so such a method is not touched either
        subst here
        rw [Edit.touches, hasBody_of_methodAt? found] at untouched
        have bodiless : method.body = none := by
          cases has : method.body with
          | none => rfl
          | some body => simp [has] at untouched
        rw [bodiless]
        exact congrArg _ bodiless.symm
      · rfl
  | _ => rfl

/-- A method that an edit does not touch stays as it is, and none appears at its index. -/
theorem methodAt?_applyEdit_of_untouched {edit : Edit}
    (fresh : index ∉ (applyEdit type state edit).touched) :
    (applyEdit type state edit).module.methodAt? type index = state.module.methodAt? type index := by
  rw [methodAt?_applyEdit]
  unfold Module.methodAt?
  cases there : state.module.types[type]? with
  | none => rfl
  | some definition =>
      simp only [Option.bind_some]
      cases listed : definition.methods[index]? with
      | some method =>
          have inside := (List.getElem?_eq_some_iff.mp listed).1
          rw [List.getElem?_append_left (by simpa using inside), List.getElem?_mapIdx, listed]
          exact congrArg some
            (changeMethod_of_untouched (methodAt?_eq_some.mpr ⟨definition, there, listed⟩) fresh)
      | none =>
          have outside := List.getElem?_eq_none_iff.mp listed
          rw [List.getElem?_append_right (by simpa using outside), List.getElem?_eq_none_iff]
          cases edit with
          | addMethod method =>
              have other : index ≠ definition.methods.length := by
                have untouched := not_mem_touches fresh
                simpa [Edit.touches, there] using untouched
              simp only [Edit.addedMethods, List.length_mapIdx, List.length_singleton]
              omega
          | _ => exact Nat.zero_le _

end WeavingState

end PropertyWeaver
