import PropertyWeaver.Proofs.Module.Header
import PropertyWeaver.Proofs.Weaving.Tasks
import PropertyWeaver.Weaving.Pass

/-!
# What an edit changes

An edit changes one type, and of a method it changes the body at most. Everything else about the
methods, types and the module stays: their headers.
-/

set_option autoImplicit false

namespace PropertyWeaver

namespace Module

private theorem addReference_eq (module : Module) (scope : String) :
    ∃ references, module.addReference scope = { module with references := references } := by
  unfold addReference
  split
  · exact ⟨module.references, rfl⟩
  · exact ⟨_, rfl⟩

/-- Listing scopes changes the reference table only. -/
theorem addReferences_eq (module : Module) (scopes : List String) :
    ∃ references, module.addReferences scopes = { module with references := references } := by
  unfold addReferences
  induction scopes generalizing module with
  | nil => exact ⟨module.references, rfl⟩
  | cons scope scopes hypothesis =>
      obtain ⟨first, step⟩ := module.addReference_eq scope
      obtain ⟨references, rest⟩ := hypothesis (module.addReference scope)
      exact ⟨references, by rw [List.foldl_cons, rest, step]⟩

@[simp] theorem types_addReferences (module : Module) (scopes : List String) :
    (module.addReferences scopes).types = module.types := by
  obtain ⟨_, same⟩ := module.addReferences_eq scopes
  rw [same]

@[simp] theorem name_addReferences (module : Module) (scopes : List String) :
    (module.addReferences scopes).name = module.name := by
  obtain ⟨_, same⟩ := module.addReferences_eq scopes
  rw [same]

@[simp] theorem types_modifyType (module : Module) (index : Nat) (change : TypeDef → TypeDef) :
    (module.modifyType index change).types = module.types.modify index change := rfl

@[simp] theorem name_modifyType (module : Module) (index : Nat) (change : TypeDef → TypeDef) :
    (module.modifyType index change).name = module.name := rfl

end Module

/-! ## The change to a type -/

/-- A body with a further prelude behind those that it has. -/
def MethodBody.withPrelude (body : MethodBody) (cursor : Nat) (block : List Instruction)
    (maxStack : UInt16) : MethodBody :=
  { body.insert cursor block with maxStack := max body.maxStack maxStack }

namespace Edit

/-- What an edit makes of a method, given the number of prelude instructions of each. -/
def changeMethod (cursor : Nat → Nat) (edit : Edit) (index : Nat) (method : MethodDef) :
    MethodDef :=
  match edit with
  | .replaceBody target body => if index = target then { method with body := some body } else method
  | .prependToConstructor target block maxStack =>
      if index = target then
        { method with
          body := method.body.map fun body => body.withPrelude (cursor target) block maxStack }
      else method
  | .addField _ | .removeField _ | .addMethod _ => method

def changeFields (edit : Edit) (fields : List FieldDef) : List FieldDef :=
  match edit with
  | .addField field => fields ++ [field]
  | .removeField name => fields.filter fun field => field.name ≠ name
  | .replaceBody _ _ | .prependToConstructor _ _ _ | .addMethod _ => fields

def addedMethods : Edit → List MethodDef
  | .addMethod method => [method]
  | .replaceBody _ _ | .prependToConstructor _ _ _ | .addField _ | .removeField _ => []

def change (cursor : Nat → Nat) (edit : Edit) (type : TypeDef) : TypeDef :=
  { type with
    fields := edit.changeFields type.fields
    methods := type.methods.mapIdx (edit.changeMethod cursor) ++ edit.addedMethods }

variable {cursor : Nat → Nat} {edit : Edit}

@[simp] theorem header_change (cursor : Nat → Nat) (edit : Edit) (type : TypeDef) :
    (edit.change cursor type).header = type.header := rfl

@[simp] theorem header_changeMethod (cursor : Nat → Nat) (edit : Edit) (index : Nat)
    (method : MethodDef) : (edit.changeMethod cursor index method).header = method.header := by
  unfold changeMethod
  split
  · split <;> rfl
  · split <;> rfl
  all_goals rfl

theorem methods_change_of_adds {type : TypeDef} (adds : edit.addedMethods = []) (index : Nat) :
    (edit.change cursor type).methods[index]? =
      type.methods[index]?.map (edit.changeMethod cursor index) := by
  rw [change, adds, List.append_nil, List.getElem?_mapIdx]

/-- An edit that adds no method leaves the headers of the methods as they are. -/
theorem headers_change {type : TypeDef} (adds : edit.addedMethods = []) :
    (edit.change cursor type).methods.map MethodDef.header =
      type.methods.map MethodDef.header := by
  rw [change, adds, List.append_nil]
  apply List.ext_getElem?
  intro index
  rw [List.getElem?_map, List.getElem?_map, List.getElem?_mapIdx]
  cases type.methods[index]? <;> simp

end Edit

/-! ## The change to the state -/

namespace WeavingState

variable (type : Nat) (state : WeavingState) (edit : Edit)

/-- The number of prelude instructions at the start of each method of a type. -/
def cursor (index : Nat) : Nat := state.cursors (type, index)

theorem modify_congr {α : Type} {items : List α} {index : Nat} {left right : α → α}
    (same : ∀ item, items[index]? = some item → left item = right item) :
    items.modify index left = items.modify index right := by
  apply List.ext_getElem?
  intro position
  rw [List.getElem?_modify, List.getElem?_modify]
  by_cases here : index = position
  · subst here
    cases found : items[index]? with
    | none => rfl
    | some item => simp [same item found]
  · simp [here]

theorem modify_eq_mapIdx {α : Type} (items : List α) (index : Nat) (change : α → α) :
    items.modify index change =
      items.mapIdx fun position item => if position = index then change item else item := by
  apply List.ext_getElem?
  intro position
  rw [List.getElem?_modify, List.getElem?_mapIdx]
  simp only [eq_comm]
  rfl

theorem mapIdx_eq_self {α : Type} {change : Nat → α → α} (items : List α)
    (same : ∀ index item, items[index]? = some item → change index item = item) :
    items.mapIdx change = items := by
  apply List.ext_getElem?
  intro index
  rw [List.getElem?_mapIdx]
  cases found : items[index]? with
  | none => rfl
  | some item => exact congrArg some (same index item found)

private theorem types_prepend (method : Nat) (block : List Instruction) (maxStack : UInt16) :
    (state.prepend type method block maxStack).module.types =
      state.module.types.modify type
        ((Edit.prependToConstructor method block maxStack).change (state.cursor type)) := by
  have changed : ∀ definition : TypeDef,
      (Edit.prependToConstructor method block maxStack).change (state.cursor type) definition =
        definition.modifyMethod method fun old =>
          { old with
            body := old.body.map fun body =>
              body.withPrelude (state.cursor type method) block maxStack } := by
    intro definition
    simp only [Edit.change, Edit.changeFields, Edit.addedMethods, List.append_nil,
      TypeDef.modifyMethod, modify_eq_mapIdx]
    rfl
  unfold prepend
  cases stored : state.body? type method with
  | none =>
      refine ((modify_congr fun definition found => ?_).trans (List.modify_id ..)).symm
      have same : ∀ old, definition.methods[method]? = some old →
          { old with
            body := old.body.map fun body =>
              body.withPrelude (state.cursor type method) block maxStack } = id old := by
        intro old there
        have bodiless : old.body = none := by simpa [body?, found, there] using stored
        rw [bodiless]
        exact congrArg _ bodiless.symm
      rw [changed, TypeDef.modifyMethod, modify_congr same, List.modify_id]
      rfl
  | some body =>
      refine modify_congr fun definition found => ?_
      rw [changed, TypeDef.modifyMethod, TypeDef.modifyMethod]
      congr 1
      refine modify_congr fun old there => ?_
      have same : old.body = some body := by simpa [body?, found, there] using stored
      rw [same]
      rfl

/-- An edit is one change to the type that it is for. -/
theorem types_applyEdit :
    (applyEdit type state edit).module.types =
      state.module.types.modify type (edit.change (state.cursor type)) := by
  cases edit with
  | prependToConstructor method block maxStack =>
      have prepended := types_prepend type (state.importScopes
        (Edit.prependToConstructor method block maxStack).scopes) method block maxStack
      simp only [importScopes, Module.types_addReferences] at prepended
      exact prepended
  | replaceBody method body =>
      simp only [applyEdit, importScopes, setBody, Module.types_modifyType,
        Module.types_addReferences]
      refine modify_congr fun definition found => ?_
      simp only [Edit.change, Edit.changeFields, Edit.addedMethods, List.append_nil,
        TypeDef.modifyMethod, modify_eq_mapIdx]
      rfl
  | addField field =>
      simp only [applyEdit, importScopes, addField, Module.types_modifyType,
        Module.types_addReferences]
      refine modify_congr fun definition found => ?_
      have methods : definition.methods.mapIdx
          ((Edit.addField field).changeMethod (state.cursor type)) = definition.methods :=
        mapIdx_eq_self definition.methods fun _ _ _ => rfl
      simp [Edit.change, Edit.changeFields, Edit.addedMethods, methods]
  | removeField name =>
      simp only [applyEdit, importScopes, removeField, Module.types_modifyType,
        Module.types_addReferences]
      refine modify_congr fun definition found => ?_
      have methods : definition.methods.mapIdx
          ((Edit.removeField name).changeMethod (state.cursor type)) = definition.methods :=
        mapIdx_eq_self definition.methods fun _ _ _ => rfl
      simp [Edit.change, Edit.changeFields, Edit.addedMethods, methods]
  | addMethod method =>
      simp only [applyEdit, importScopes, addMethod, Module.types_modifyType,
        Module.types_addReferences]
      refine modify_congr fun definition found => ?_
      have methods : definition.methods.mapIdx
          ((Edit.addMethod method).changeMethod (state.cursor type)) = definition.methods :=
        mapIdx_eq_self definition.methods fun _ _ _ => rfl
      simp [Edit.change, Edit.changeFields, Edit.addedMethods, methods, TypeDef.addMethod]

@[simp] theorem name_applyEdit : (applyEdit type state edit).module.name = state.module.name := by
  cases edit with
  | prependToConstructor method block maxStack =>
      simp only [applyEdit, prepend]
      split <;> simp [importScopes, setBody]
  | _ => simp [applyEdit, importScopes, setBody, addField, removeField, addMethod]

variable {type state edit}

/-- A prelude for a method without a body is not put anywhere. -/
theorem applyEdit_prepend_of_none {method : Nat} {block : List Instruction} {maxStack : UInt16}
    (bodiless : state.body? type method = none) :
    applyEdit type state (.prependToConstructor method block maxStack) =
      state.importScopes (Edit.prependToConstructor method block maxStack).scopes := by
  have bodiless' : (state.importScopes
      (Edit.prependToConstructor method block maxStack).scopes).body? type method = none := by
    rw [← bodiless]
    simp [body?, importScopes]
  simp only [applyEdit, prepend, bodiless']

/-- A prelude moves the cursor of its method behind itself. -/
theorem applyEdit_prepend_of_some {method : Nat} {block : List Instruction} {maxStack : UInt16}
    {body : MethodBody} (stored : state.body? type method = some body) :
    (applyEdit type state (.prependToConstructor method block maxStack)).touched =
        method :: state.touched ∧
      ∀ index, (applyEdit type state (.prependToConstructor method block maxStack)).cursor type
        index = if index = method then state.cursor type method + block.length
          else state.cursor type index := by
  have stored' : (state.importScopes
      (Edit.prependToConstructor method block maxStack).scopes).body? type method = some body := by
    rw [← stored]
    simp [body?, importScopes]
  simp only [applyEdit, prepend, stored']
  exact ⟨rfl, fun index => by simp [cursor, setBody, importScopes]⟩

/-- What one type's edits leave alone: the other types and their cursors, and all headers. -/
structure Elsewhere (type : Nat) (before after : WeavingState) : Prop where
  name : after.module.name = before.module.name
  headers : after.module.types.map TypeDef.header = before.module.types.map TypeDef.header
  types : ∀ other, other ≠ type → after.module.types[other]? = before.module.types[other]?
  cursors : ∀ other, other ≠ type → ∀ index,
    after.cursors (other, index) = before.cursors (other, index)

private theorem Elsewhere.refl (type : Nat) (state : WeavingState) : Elsewhere type state state :=
  ⟨rfl, rfl, fun _ _ => rfl, fun _ _ _ => rfl⟩

private theorem Elsewhere.trans {before between after : WeavingState}
    (first : Elsewhere type before between) (second : Elsewhere type between after) :
    Elsewhere type before after where
  name := second.name.trans first.name
  headers := second.headers.trans first.headers
  types other different := (second.types other different).trans (first.types other different)
  cursors other different index :=
    (second.cursors other different index).trans (first.cursors other different index)

theorem elsewhere_applyEdit (type : Nat) (state : WeavingState) (edit : Edit) :
    Elsewhere type state (applyEdit type state edit) where
  name := name_applyEdit type state edit
  headers := by
    rw [types_applyEdit]
    apply List.ext_getElem?
    intro index
    rw [List.getElem?_map, List.getElem?_map, List.getElem?_modify]
    cases state.module.types[index]? with
    | none => rfl
    | some definition => by_cases here : type = index <;> simp [here]
  types other different := by
    rw [types_applyEdit, List.getElem?_modify_ne]
    exact Ne.symm different
  cursors other different index := by
    cases edit with
    | prependToConstructor method block maxStack =>
        simp only [applyEdit, prepend]
        split
        · rfl
        · simp [importScopes, setBody, different]
    | _ => rfl

private theorem elsewhere_foldl (type : Nat) (edits : List Edit) (state : WeavingState) :
    Elsewhere type state (edits.foldl (applyEdit type) state) := by
  induction edits generalizing state with
  | nil => exact .refl type state
  | cons edit edits hypothesis =>
      exact (elsewhere_applyEdit type state edit).trans (hypothesis (applyEdit type state edit))

theorem elsewhere_apply (state : WeavingState) (edit : TypeEdit) :
    Elsewhere edit.type state (state.apply edit) := by
  obtain ⟨name, headers, types, cursors⟩ := elsewhere_foldl edit.type edit.edits state
  exact ⟨name, headers, types, cursors⟩

/-- What a task that succeeds does to the state: nothing, or the edits that it asks for. -/
theorem runTask_eq_ok {resolver : Resolver} {configuration : Configuration}
    {after : WeavingState} {task : Task}
    (ran : runTask resolver configuration state task = .ok after) :
    after = state ∨
      ∃ edit, task.execute (.ofModule state.module resolver configuration) = .ok edit ∧
        after = state.apply edit := by
  unfold runTask at ran
  simp only at ran
  split at ran
  · simp only [Outcome.bind_eq_ok, Outcome.pure_eq, Except.ok.injEq] at ran
    obtain ⟨edit, executed, rfl⟩ := ran
    split
    · exact .inl rfl
    · exact .inr ⟨edit, executed, rfl⟩
  · exact .inl (Except.ok.inj ran).symm

theorem elsewhere_runTask {resolver : Resolver} {configuration : Configuration}
    {after : WeavingState} {task : Task}
    (ran : runTask resolver configuration state task = .ok after) :
    Elsewhere task.typeIndex state after := by
  rcases runTask_eq_ok ran with rfl | ⟨edit, executed, rfl⟩
  · exact .refl _ _
  · rw [← Task.type_of_execute executed]
    exact elsewhere_apply state edit

theorem elsewhere_foldlM {resolver : Resolver} {configuration : Configuration}
    {before after : WeavingState} {tasks : List Task}
    (own : ∀ task ∈ tasks, task.typeIndex = type)
    (ran : tasks.foldlM (runTask resolver configuration) before = .ok after) :
    Elsewhere type before after := by
  refine (Outcome.foldlM_invariant (fun rest state =>
    (∀ task ∈ rest, task.typeIndex = type) ∧ Elsewhere type before state)
    ?_ ⟨own, .refl type before⟩ ran).2
  rintro task rest state next ⟨own, elsewhere⟩ executed
  obtain ⟨here, others⟩ := List.forall_mem_cons.mp own
  exact ⟨others, elsewhere.trans (here ▸ elsewhere_runTask executed)⟩

end WeavingState

end PropertyWeaver
