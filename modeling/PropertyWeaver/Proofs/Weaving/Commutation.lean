import PropertyWeaver.Proofs.Module.Scopes
import PropertyWeaver.Proofs.Weaving.MethodStates
import PropertyWeaver.Proofs.Weaving.PassFrame

/-!
# Edits of different types

An edit reads and writes the part of a state that belongs to its type. Beyond that it adds to the
reference table and to the report. So edits of different types may change places: all that depends on
their order is in which order references and woven members are listed.
-/

set_option autoImplicit false

namespace PropertyWeaver

/-! ## The reference table -/

namespace Module

theorem references_addReference (module : Module) (scope : String) :
    (module.addReference scope).references =
      if module.knowsScope scope then module.references else module.references ++ [scope] := by
  unfold addReference
  split <;> rfl

theorem name_addReference (module : Module) (scope : String) :
    (module.addReference scope).name = module.name := by
  unfold addReference
  split <;> rfl

variable {left right : Module}

private theorem perm_addReference (name : right.name = left.name)
    (listed : right.references.Perm left.references) (scope : String) :
    (right.addReference scope).references.Perm (left.addReference scope).references := by
  have known : right.knowsScope scope = left.knowsScope scope := by
    rw [Bool.eq_iff_iff, knowsScope_iff, knowsScope_iff, name, listed.mem_iff]
  rw [references_addReference, references_addReference, known]
  split
  · exact listed
  · exact listed.append_right [scope]

private theorem knowsScope_addReference_iff {module : Module} {first second : String} :
    (module.addReference first).knowsScope second = true ↔
      module.knowsScope second = true ∨ second = first := by
  rw [knowsScope_iff, knowsScope_iff, name_addReference, references_addReference]
  split
  · next known =>
    refine ⟨.inl, fun either => either.elim id ?_⟩
    rintro rfl
    exact knowsScope_iff.mp known
  · rw [List.mem_append, List.mem_singleton, or_assoc]

private theorem perm_addReference_comm (module : Module) (first second : String) :
    ((module.addReference first).addReference second).references.Perm
      ((module.addReference second).addReference first).references := by
  simp only [references_addReference, knowsScope_addReference_iff]
  by_cases same : first = second
  · subst same
    exact .refl _
  · have same' : ¬ second = first := Ne.symm same
    simp only [same, same', or_false]
    split
    · exact .refl _
    · split
      · exact .refl _
      · rw [List.append_assoc, List.append_assoc]
        exact (List.Perm.swap second first []).append_left module.references

private theorem perm_addReferences (name : right.name = left.name)
    (listed : right.references.Perm left.references) (scopes : List String) :
    (right.addReferences scopes).references.Perm (left.addReferences scopes).references := by
  induction scopes generalizing left right with
  | nil => exact listed
  | cons scope scopes hypothesis =>
      refine hypothesis ?_ (perm_addReference name listed scope)
      rw [name_addReference, name_addReference, name]

/-- The order in which scopes are listed shows in the order of the references alone. -/
theorem perm_addReferences_of_perm (module : Module) {scopes scopes' : List String}
    (perm : scopes.Perm scopes') :
    (module.addReferences scopes).references.Perm (module.addReferences scopes').references := by
  induction perm generalizing module with
  | nil => exact .refl _
  | cons scope _ hypothesis => exact hypothesis (module.addReference scope)
  | swap first second rest =>
      refine perm_addReferences ?_ (perm_addReference_comm module second first) rest
      simp only [name_addReference]
  | trans _ _ front back => exact (front module).trans (back module)

end Module

/-! ## One edit -/

namespace Edit

def count (definition : Option TypeDef) (report : WeaveReport) : Edit → WeaveReport
  | .replaceBody _ _ => report
  | .prependToConstructor method _ _ =>
      { report with
        constructorsPatched :=
          report.constructorsPatched + (if hasBody definition method then 1 else 0) }
  | .addField _ => { report with fieldsInjected := report.fieldsInjected + 1 }
  | .removeField name =>
      { report with
        fieldsRemoved := report.fieldsRemoved +
          (if definition.any fun type => (type.field? name).isSome then 1 else 0) }
  | .addMethod _ => { report with methodsAdded := report.methodsAdded + 1 }

end Edit

namespace WeavingState

variable (type : Nat) (state : WeavingState) (edit : Edit)

theorem module_applyEdit :
    (applyEdit type state edit).module =
      { state.module with
        references := (state.module.addReferences edit.scopes).references
        types := state.module.types.modify type (edit.change (state.cursor type)) } := by
  rw [← references_applyEdit type, ← types_applyEdit]
  exact (grows_applyEdit type state edit).rest

theorem report_applyEdit :
    (applyEdit type state edit).report = edit.count state.module.types[type]? state.report := by
  cases edit with
  | prependToConstructor method block maxStack =>
      have same : (state.importScopes
          (Edit.prependToConstructor method block maxStack).scopes).body? type method =
            state.body? type method := by
        simp [body?, importScopes]
      simp only [Edit.count, hasBody_eq, applyEdit, prepend, same]
      cases state.body? type method <;> rfl
  | removeField name => simp [applyEdit, removeField, importScopes, Edit.count]
  | _ => rfl

end WeavingState

namespace Edit

private theorem members_count (definition : Option TypeDef) (report : WeaveReport) (edit : Edit) :
    (edit.count definition report).members = report.members := by
  cases edit <;> rfl

private theorem count_with_members (definition : Option TypeDef) (report : WeaveReport)
    (members : List WovenMember) (edit : Edit) :
    edit.count definition { report with members := members } =
      { edit.count definition report with members := members } := by
  cases edit <;> rfl

private theorem count_comm (definition definition' : Option TypeDef) (report : WeaveReport)
    (edit edit' : Edit) :
    edit'.count definition' (edit.count definition report) =
      edit.count definition (edit'.count definition' report) := by
  cases edit <;> cases edit' <;> simp only [count, Nat.add_right_comm]

end Edit

/-! ## States up to the order of what is listed -/

namespace WeavingState

/-- The same state up to the order in which references and members are listed. Which methods have been
touched is left open, since every visit starts without any. -/
structure Permuted (left right : WeavingState) : Prop where
  module : right.module = { left.module with references := right.module.references }
  references : right.module.references.Perm left.module.references
  cursors : right.cursors = left.cursors
  report : right.report = { left.report with members := right.report.members }
  members : right.report.members.Perm left.report.members

variable {left between right state : WeavingState}

namespace Permuted

theorem refl (state : WeavingState) : Permuted state state :=
  ⟨rfl, .refl _, rfl, rfl, .refl _⟩

private theorem of_eq (same : left = right) : Permuted left right :=
  same ▸ refl left

theorem symm (permuted : Permuted left right) : Permuted right left where
  module := (congrArg (fun module : Module =>
    { module with references := left.module.references }) permuted.module).symm
  references := permuted.references.symm
  cursors := permuted.cursors.symm
  report := (congrArg (fun report : WeaveReport =>
    { report with members := left.report.members }) permuted.report).symm
  members := permuted.members.symm

theorem trans (first : Permuted left between) (second : Permuted between right) :
    Permuted left right where
  module := second.module.trans (congrArg (fun module : Module =>
    { module with references := right.module.references }) first.module)
  references := second.references.trans first.references
  cursors := second.cursors.trans first.cursors
  report := second.report.trans (congrArg (fun report : WeaveReport =>
    { report with members := right.report.members }) first.report)
  members := second.members.trans first.members

theorem types (permuted : Permuted left right) : right.module.types = left.module.types := by
  rw [permuted.module]

theorem name (permuted : Permuted left right) : right.module.name = left.module.name := by
  rw [permuted.module]

private theorem applyEdit (permuted : Permuted left right) (type : Nat) (edit : Edit) :
    Permuted (applyEdit type left edit) (applyEdit type right edit) where
  module := by
    have cursor : right.cursor type = left.cursor type :=
      funext fun index => congrFun permuted.cursors (type, index)
    rw [module_applyEdit, module_applyEdit, permuted.types, cursor]
    exact congrArg (fun module : Module => { module with
      references := (right.module.addReferences edit.scopes).references
      types := left.module.types.modify type (edit.change (left.cursor type)) }) permuted.module
  references := by
    rw [references_applyEdit, references_applyEdit]
    exact Module.perm_addReferences permuted.name permuted.references edit.scopes
  cursors := by
    have cursor : right.cursor type = left.cursor type :=
      funext fun index => congrFun permuted.cursors (type, index)
    funext key
    rw [cursors_applyEdit, cursors_applyEdit, permuted.types, cursor, permuted.cursors]
  report := by
    rw [report_applyEdit, report_applyEdit, permuted.types, Edit.members_count,
      ← Edit.count_with_members]
    exact congrArg (edit.count left.module.types[type]? ·) permuted.report
  members := by
    rw [report_applyEdit, report_applyEdit, Edit.members_count, Edit.members_count]
    exact permuted.members

theorem foldl {α : Type} {step : WeavingState → α → WeavingState}
    (congr : ∀ item {left right}, Permuted left right → Permuted (step left item) (step right item))
    (items : List α) (permuted : Permuted left right) :
    Permuted (items.foldl step left) (items.foldl step right) := by
  induction items generalizing left right with
  | nil => exact permuted
  | cons item items hypothesis => exact hypothesis (congr item permuted)

end Permuted

/-! ## Two edits -/

private theorem references_twice (type other : Nat) (state : WeavingState) (edit edit' : Edit) :
    (applyEdit other (applyEdit type state edit) edit').module.references.Perm
      (state.module.addReferences (edit.scopes ++ edit'.scopes)).references := by
  rw [references_applyEdit, Module.addReferences_append]
  refine Module.perm_addReferences ?_ (.of_eq (references_applyEdit type state edit)) edit'.scopes
  rw [name_applyEdit, Module.name_addReferences]

private theorem applyEdit_comm {type other : Nat} (different : other ≠ type) (state : WeavingState)
    (edit edit' : Edit) :
    Permuted (applyEdit other (applyEdit type state edit) edit')
      (applyEdit type (applyEdit other state edit') edit) := by
  have here := elsewhere_applyEdit other state edit'
  have there := elsewhere_applyEdit type state edit
  have cursor : (applyEdit other state edit').cursor type = state.cursor type :=
    funext fun index => here.cursors type (Ne.symm different) index
  have cursor' : (applyEdit type state edit).cursor other = state.cursor other :=
    funext fun index => there.cursors other different index
  refine ⟨?_, ?_, ?_, ?_, ?_⟩
  · simp only [module_applyEdit, cursor, cursor', List.modify_modify_ne _ _ _ different]
  · refine (references_twice other type state edit' edit).trans (.trans ?_
      (references_twice type other state edit edit').symm)
    exact Module.perm_addReferences_of_perm state.module List.perm_append_comm
  · funext ⟨index, method⟩
    simp only [cursors_applyEdit, cursor, cursor', here.types type (Ne.symm different),
      there.types other different]
    split
    · next same =>
      subst same
      rw [if_neg (Ne.symm different)]
    · rfl
  · simp only [report_applyEdit, here.types type (Ne.symm different), there.types other different]
    rw [Edit.count_comm]
  · simp only [report_applyEdit, Edit.members_count]
    exact .refl _

/-! ## What may change places -/

/-- Two changes of the state that may change places. -/
def Swaps (first second : WeavingState → WeavingState) : Prop :=
  ∀ state, Permuted (second (first state)) (first (second state))

namespace Swaps

variable {first second third : WeavingState → WeavingState}

private theorem symm (swaps : Swaps first second) : Swaps second first :=
  fun state => (swaps state).symm

private theorem comp (near : Swaps first second) (far : Swaps first third)
    (congr : ∀ {left right}, Permuted left right → Permuted (third left) (third right)) :
    Swaps first fun state => third (second state) :=
  fun state => (congr (near state)).trans (far (second state))

theorem foldl {α : Type} {step : WeavingState → α → WeavingState} {items : List α}
    (congr : ∀ item {left right}, Permuted left right → Permuted (step left item) (step right item))
    (each : ∀ item ∈ items, Swaps first (step · item)) : Swaps first (items.foldl step ·) := by
  induction items with
  | nil => exact fun state => .refl _
  | cons item items hypothesis =>
      obtain ⟨here, rest⟩ := List.forall_mem_cons.mp each
      exact here.comp (hypothesis rest) (Permuted.foldl congr items)

end Swaps

def announce (state : WeavingState) (woven : Option WovenMember) : WeavingState :=
  { state with report := { state.report with members := state.report.members ++ woven.toList } }

private theorem Permuted.announce (permuted : Permuted left right) (woven : Option WovenMember) :
    Permuted (left.announce woven) (right.announce woven) where
  module := permuted.module
  references := permuted.references
  cursors := permuted.cursors
  report := congrArg (fun report : WeaveReport =>
    { report with members := right.report.members ++ woven.toList }) permuted.report
  members := permuted.members.append_right woven.toList

private theorem Permuted.apply (permuted : Permuted left right) (edit : TypeEdit) :
    Permuted (left.apply edit) (right.apply edit) :=
  (Permuted.foldl (fun change _ _ permuted => permuted.applyEdit edit.type change) edit.edits
    permuted).announce edit.woven

theorem Permuted.foldl_apply (permuted : Permuted left right) (edits : List TypeEdit) :
    Permuted (edits.foldl WeavingState.apply left) (edits.foldl WeavingState.apply right) :=
  Permuted.foldl (fun edit _ _ permuted => permuted.apply edit) edits permuted

private theorem swaps_announce_announce (woven woven' : Option WovenMember) :
    Swaps (announce · woven) (announce · woven') := by
  intro state
  refine ⟨rfl, .refl _, rfl, rfl, ?_⟩
  simp only [announce, List.append_assoc]
  exact List.perm_append_comm.append_left _

private theorem applyEdit_announce (type : Nat) (state : WeavingState) (woven : Option WovenMember)
    (edit : Edit) :
    applyEdit type (state.announce woven) edit = (applyEdit type state edit).announce woven := by
  cases edit with
  | prependToConstructor method block maxStack =>
      have same : ∀ scopes, ((state.announce woven).importScopes scopes).body? type method =
          (state.importScopes scopes).body? type method := fun _ => rfl
      simp only [applyEdit, prepend, same]
      split <;> rfl
  | _ => rfl

private theorem swaps_announce_applyEdit (woven : Option WovenMember) (type : Nat) (edit : Edit) :
    Swaps (announce · woven) (applyEdit type · edit) :=
  fun state => .of_eq (applyEdit_announce type state woven edit)

private theorem swaps_apply {act : WeavingState → WeavingState} (edit : TypeEdit)
    (changes : ∀ change ∈ edit.edits, Swaps act (applyEdit edit.type · change))
    (announces : Swaps act (announce · edit.woven)) : Swaps act (apply · edit) :=
  (Swaps.foldl (fun change _ _ permuted => permuted.applyEdit edit.type change) changes).comp announces
    fun permuted => permuted.announce edit.woven

private theorem swaps_announce_apply (woven : Option WovenMember) (edit : TypeEdit) :
    Swaps (announce · woven) (apply · edit) :=
  swaps_apply edit (fun change _ => swaps_announce_applyEdit woven edit.type change)
    (swaps_announce_announce woven edit.woven)

private theorem swaps_applyEdit_apply {type : Nat} {edit : TypeEdit} (different : edit.type ≠ type)
    (change : Edit) : Swaps (applyEdit type · change) (apply · edit) :=
  swaps_apply edit (fun change' _ state => applyEdit_comm different state change change')
    (swaps_announce_applyEdit edit.woven type change).symm

/-- Edits of two types may change places. -/
theorem swaps_apply_apply {edit edit' : TypeEdit} (different : edit'.type ≠ edit.type) :
    Swaps (apply · edit) (apply · edit') :=
  swaps_apply edit' (fun change _ => (swaps_applyEdit_apply (Ne.symm different) change).symm)
    (swaps_announce_apply edit'.woven edit).symm

theorem swaps_foldl_apply {edits edits' : List TypeEdit}
    (different : ∀ edit ∈ edits, ∀ edit' ∈ edits', edit'.type ≠ edit.type) :
    Swaps (edits.foldl apply ·) (edits'.foldl apply ·) := by
  have congr : ∀ (edit : TypeEdit) {left right}, Permuted left right →
      Permuted (left.apply edit) (right.apply edit) := fun edit _ _ permuted => permuted.apply edit
  refine Swaps.foldl congr fun edit' member' => (Swaps.foldl congr fun edit member => ?_).symm
  exact (swaps_apply_apply (different edit member edit' member')).symm

end WeavingState

end PropertyWeaver
