import PropertyWeaver.Proofs.Metadata.Extension
import PropertyWeaver.Proofs.Weaving.Visits

/-!
# Weaving extends the module

The only methods that tasks add are queries, and those have no parameters. So every state of a pass
extends the states before it.
-/

set_option autoImplicit false

namespace PropertyWeaver

namespace Module

theorem references_subset_addReferences (module : Module) (scopes : List String) :
    module.references ⊆ (module.addReferences scopes).references := by
  unfold addReferences
  induction scopes generalizing module with
  | nil => exact List.Subset.refl _
  | cons scope scopes hypothesis =>
      refine List.Subset.trans ?_ (hypothesis (module.addReference scope))
      unfold addReference
      split
      · exact List.Subset.refl _
      · exact List.subset_append_left ..

end Module

/-- An edit that adds methods without parameters only. -/
def Edit.Plain (edit : Edit) : Prop :=
  ∀ method ∈ edit.addedMethods, method.parameters = []

/-- An edit appends the methods that it adds. -/
theorem Edit.headers_change_append (edit : Edit) (cursor : Nat → Nat) (type : TypeDef) :
    (edit.change cursor type).methods.map MethodDef.header =
      (type.methods ++ edit.addedMethods).map MethodDef.header := by
  have same : (type.methods.mapIdx (edit.changeMethod cursor)).map MethodDef.header =
      type.methods.map MethodDef.header := by
    apply List.ext_getElem?
    intro index
    rw [List.getElem?_map, List.getElem?_map, List.getElem?_mapIdx]
    cases type.methods[index]? <;> simp
  rw [change, List.map_append, List.map_append, same]

private theorem Edit.Plain.extends_change {edit : Edit} (plain : edit.Plain) (cursor : Nat → Nat)
    (type : TypeDef) : type.Extends (edit.change cursor type) :=
  ⟨rfl, edit.addedMethods, plain, edit.headers_change_append cursor type⟩

/-- Only tasks for the query add methods. -/
theorem Task.addedMethods_of_execute {context : WeavingContext} {task : Task} {edit : TypeEdit}
    (executed : task.execute context = .ok edit) :
    (∀ change ∈ edit.edits, change.addedMethods = []) ∨ task = .typeHierarchy task.typeIndex := by
  cases task with
  | mappedProperty type property =>
      refine .inl ?_
      rcases WeavingContext.mapProperty_eq_ok executed with rfl | ⟨_, _, _, _, _, _, _, _, _, _, _,
        routed⟩
      · exact fun change member => absurd member List.not_mem_nil
      · obtain ⟨_, _, _, setterEdits, -, -, setters, -, rfl⟩ :=
          WeavingContext.routeThrough_eq_ok routed
        intro change member
        simp only [List.mem_append, List.mem_cons, List.mem_map] at member
        obtain (((rfl | ⟨_, _, rfl⟩) | member) | ⟨_, _, rfl⟩) | ⟨_, _, rfl⟩ := member
        · rfl
        · rfl
        · obtain ⟨_, _, _, rfl, _⟩ := setters change member
          rfl
        · rfl
        · rfl
  | changeNotification type property =>
      refine .inl ?_
      rcases WeavingContext.notifyChanges_eq_ok executed with rfl | ⟨_, _, _, _, _, _, _, _, _, _, _,
        rfl⟩
      · exact fun change member => absurd member List.not_mem_nil
      · intro change member
        obtain rfl := List.mem_singleton.mp member
        rfl
  | typeHierarchy type => exact .inr rfl

theorem Task.plain_of_execute {context : WeavingContext} {task : Task} {edit : TypeEdit}
    (executed : task.execute context = .ok edit) : ∀ change ∈ edit.edits, change.Plain := by
  rcases Task.addedMethods_of_execute executed with none | hierarchy
  · intro change member method added
    rw [none change member] at added
    cases added
  · rw [hierarchy] at executed
    rcases WeavingContext.overrideQuery_eq_ok executed with rfl | ⟨_, _, _, _, _, _, _, _, _, _,
      rfl⟩
    · exact fun change member => absurd member List.not_mem_nil
    · intro change member
      obtain rfl := List.mem_singleton.mp member
      simp [Edit.Plain, Edit.addedMethods]

namespace WeavingState

variable {resolver : Resolver} {configuration : Configuration} {type : Nat}
  {state before after : WeavingState}

/-- An edit lists the scopes that it brings, and nothing else. -/
theorem references_applyEdit (type : Nat) (state : WeavingState) (edit : Edit) :
    (applyEdit type state edit).module.references =
      (state.module.addReferences edit.scopes).references := by
  cases edit with
  | prependToConstructor method block maxStack =>
      simp only [applyEdit, prepend]
      split <;> rfl
  | _ => rfl

theorem extends_applyEdit {edit : Edit} (plain : edit.Plain) (type : Nat) (state : WeavingState) :
    state.module.Extends (applyEdit type state edit).module := by
  refine ⟨name_applyEdit type state edit, ?_, ?_⟩
  · rw [references_applyEdit]
    exact state.module.references_subset_addReferences edit.scopes
  rw [types_applyEdit]
  exact forall₂_modify TypeDef.Extends.refl (plain.extends_change (state.cursor type)) _ type

theorem extends_foldl {edits : List Edit} (plain : ∀ edit ∈ edits, edit.Plain) (type : Nat)
    (state : WeavingState) :
    state.module.Extends (edits.foldl (applyEdit type) state).module := by
  induction edits generalizing state with
  | nil => exact .refl state.module
  | cons edit edits hypothesis =>
      obtain ⟨here, rest⟩ := List.forall_mem_cons.mp plain
      exact (extends_applyEdit here type state).trans (hypothesis rest (applyEdit type state edit))

theorem extends_runTask {task : Task}
    (ran : runTask resolver configuration state task = .ok after) :
    state.module.Extends after.module := by
  rcases runTask_eq_ok ran with rfl | ⟨edit, executed, rfl⟩
  · exact .refl _
  · exact extends_foldl (Task.plain_of_execute executed) edit.type state

theorem extends_foldlM {tasks : List Task}
    (ran : tasks.foldlM (runTask resolver configuration) before = .ok after) :
    before.module.Extends after.module :=
  Outcome.foldlM_invariant (fun _ state => before.module.Extends state.module)
    (fun _ _ _ _ extended executed => extended.trans (extends_runTask executed))
    (.refl before.module) ran

private theorem extends_runPlan {module : Module}
    (ran : runPlan resolver configuration module state type = .ok after) :
    state.module.Extends after.module :=
  @extends_foldlM resolver configuration { state with touched := [] } after _ ran

theorem extends_weaveType (visited : weaveType resolver configuration state type = .ok after) :
    state.module.Extends after.module :=
  extends_runPlan (weaveType_eq_ok.mp visited).1

theorem extends_visits {types : List Nat}
    (ran : types.foldlM (weaveType resolver configuration) before = .ok after) :
    before.module.Extends after.module :=
  Outcome.foldlM_invariant (fun _ state => before.module.Extends state.module)
    (fun _ _ _ _ extended visited => extended.trans (extends_weaveType visited))
    (.refl before.module) ran

end WeavingState

namespace Module

variable {resolver : Resolver} {configuration : Configuration} {module woven : Module}
  {report : WeaveReport}

theorem extends_markInstrumented (module : Module) : module.Extends module.markInstrumented :=
  ⟨rfl, List.Subset.refl _, (Extends.refl module).types⟩

theorem extends_weave (weaves : module.weave resolver configuration = .ok (woven, report)) :
    module.Extends woven := by
  rcases weave_eq_ok weaves with ⟨-, rfl⟩ | ⟨-, state, ran, rfl, -⟩
  · exact .refl _
  · exact (WeavingState.extends_visits ran).trans (extends_markInstrumented state.module)

end Module

theorem Module.Extends.metadata {before after : Module} (extended : before.Extends after)
    (resolver : Resolver) (configuration : Configuration) :
    (WeavingContext.ofModule before resolver configuration).metadata.Extends
      (WeavingContext.ofModule after resolver configuration).metadata :=
  ⟨extended, rfl, rfl⟩

namespace WeavingContext

variable {before after : WeavingContext}

theorem runtimeType_extends (extended : before.metadata.Extends after.metadata)
    (same : after.configuration = before.configuration) {fullName : String} {host : LocatedType}
    (found : before.runtimeType fullName = .ok host) :
    ∃ host', after.runtimeType fullName = .ok host' ∧ host.Extends host' := by
  simp only [runtimeType, orError_eq_ok, same] at found ⊢
  exact exists_of_rel (extended.findType? ..) found

theorem runtimeType_of_extends (extended : before.metadata.Extends after.metadata)
    (same : after.configuration = before.configuration) {fullName : String} {host' : LocatedType}
    (found : after.runtimeType fullName = .ok host') :
    ∃ host, before.runtimeType fullName = .ok host ∧ host.Extends host' := by
  simp only [runtimeType, orError_eq_ok, same] at found ⊢
  exact exists_of_rel_right (extended.findType? ..) found

theorem mappingType_extends (extended : before.metadata.Extends after.metadata)
    (same : after.configuration = before.configuration) {host : LocatedType}
    (found : before.mappingType = .ok host) :
    ∃ host', after.mappingType = .ok host' ∧ host.Extends host' := by
  rw [mappingType, same]
  exact runtimeType_extends extended same found

theorem identifierType_extends (extended : before.metadata.Extends after.metadata)
    (same : after.configuration = before.configuration) {host : LocatedType}
    (found : before.identifierType = .ok host) :
    ∃ host', after.identifierType = .ok host' ∧ host.Extends host' := by
  rw [identifierType, same]
  exact runtimeType_extends extended same found

end WeavingContext

end PropertyWeaver
