import PropertyWeaver.Proofs.Weaving.Reweaving

/-!
# What a visit reaches

One visit of a pass decides about a type: before it the type is the original one, and behind it nothing
changes any more. The visit writes to accessors of the properties that are planned, and to constructors
if there are properties to be mapped. No other method changes.
-/

set_option autoImplicit false

namespace PropertyWeaver

variable {resolver : Resolver} {configuration : Configuration}

def Edit.target? : Edit → Option Nat
  | .replaceBody method _ | .prependToConstructor method _ _ => some method
  | .addField _ | .removeField _ | .addMethod _ => none

theorem Edit.advance_of_target? {edit : Edit} {index : Nat} (other : edit.target? ≠ some index)
    (slot : MethodState) : edit.advance index slot = slot := by
  cases edit with
  | replaceBody method body => exact if_neg fun same => other (congrArg some same)
  | prependToConstructor method block maxStack =>
      exact if_neg fun same => other (congrArg some same)
  | addField field => rfl
  | removeField name => rfl
  | addMethod method => rfl

namespace Task

def property? : Task → Option Nat
  | .mappedProperty _ property | .changeNotification _ property => some property
  | .typeHierarchy _ => none

/-- A task may write to the method at an index: an accessor of its property, or a constructor if the
property is to be mapped. -/
def Writes (definition : TypeDef) (task : Task) (index : Nat) : Prop :=
  (∃ declared, (task.property?.bind fun property => definition.properties[property]?) = some declared ∧
      index ∈ declared.accessors) ∨
    task.routed?.isSome = true ∧ index ∈ definition.constructors

variable {context : WeavingContext} {task : Task} {edit : TypeEdit} {type : LocatedType} {index : Nat}

theorem writes_of_execute (located : context.targetType task.typeIndex = .ok type)
    (executed : task.execute context = .ok edit) {change : Edit} (member : change ∈ edit.edits)
    (target : change.target? = some index) : task.Writes type.definition index := by
  cases task with
  | mappedProperty typeIndex property =>
      rcases WeavingContext.mapProperty_eq_ok executed with rfl | ⟨type', declared, identifier, mapping,
        located', listed, -, -, -, -, -, routed⟩
      · cases member
      obtain rfl := Except.ok.inj (located'.symm.trans located)
      have found := WeavingContext.propertyOf_eq_ok.mp listed
      obtain ⟨_, _, _, setterEdits, -, -, setters, -, rfl⟩ := WeavingContext.routeThrough_eq_ok routed
      simp only [List.mem_append, List.mem_cons, List.mem_map] at member
      obtain (((rfl | ⟨getter, accessor, rfl⟩) | member) | ⟨_, _, rfl⟩) | ⟨constructor, constructs,
        rfl⟩ := member
      · cases target
      · obtain rfl := Option.some.inj target
        exact .inl ⟨declared, found, List.mem_append_left _ accessor⟩
      · obtain ⟨setter, _, accessor, rfl, _⟩ := setters change member
        obtain rfl := Option.some.inj target
        exact .inl ⟨declared, found, List.mem_append_right _ (Option.mem_toList.mpr accessor)⟩
      · cases target
      · obtain rfl := Option.some.inj target
        exact .inr ⟨rfl, constructs⟩
  | changeNotification typeIndex property =>
      rcases WeavingContext.notifyChanges_eq_ok executed with rfl | ⟨type', declared, setter, _, _,
        located', listed, accessor, -, -, -, rfl⟩
      · cases member
      obtain rfl := Except.ok.inj (located'.symm.trans located)
      obtain rfl := List.mem_singleton.mp member
      obtain rfl := Option.some.inj target
      exact .inl ⟨declared, WeavingContext.propertyOf_eq_ok.mp listed,
        List.mem_append_right _ (Option.mem_toList.mpr accessor)⟩
  | typeHierarchy typeIndex =>
      rcases WeavingContext.overrideQuery_eq_ok executed with rfl | ⟨_, _, _, _, _, _, _, _, _, _, rfl⟩
      · cases member
      · obtain rfl := List.mem_singleton.mp member
        cases target

/-- What a task may write to does not depend on the code and on the methods that have been added. -/
theorem Writes.of_extends {before after : TypeDef} (writes : task.Writes after index)
    (extended : before.Extends after) (inside : index < before.methods.length) :
    task.Writes before index := by
  rcases writes with ⟨declared, found, member⟩ | ⟨routes, constructs⟩
  · have properties : after.properties = before.properties :=
      TypeDef.eq_of_header extended.header TypeDef.properties fun _ => rfl
    exact .inl ⟨declared, properties ▸ found, member⟩
  · refine .inr ⟨routes, ?_⟩
    obtain ⟨method, listed, header⟩ := extended.getElem? (List.getElem?_eq_getElem inside)
    obtain ⟨found, same, constructs⟩ := WeavingContext.mem_constructors.mp constructs
    obtain rfl := Option.some.inj (listed.symm.trans same)
    exact WeavingContext.mem_constructors.mpr ⟨_, List.getElem?_eq_getElem inside,
      (MethodDef.isConstructor_of_header header).symm.trans constructs⟩

end Task

namespace WeavingState

variable {type index : Nat} {definition : TypeDef} {slot : MethodState}
  {state before after : WeavingState} {task : Task} {tasks : List Task}

/-- A task leaves the methods alone that it does not write to. -/
theorem methodState?_runTask (found : state.module.types[task.typeIndex]? = some definition)
    (there : state.methodState? task.typeIndex index = some slot)
    (spared : ¬ task.Writes definition index)
    (ran : runTask resolver configuration state task = .ok after) :
    after.methodState? task.typeIndex index = some slot := by
  rcases runTask_eq_ok ran with rfl | ⟨edit, executed, rfl⟩
  · exact there
  have located : (WeavingContext.ofModule state.module resolver configuration).targetType
      task.typeIndex = .ok ⟨definition, none⟩ := WeavingContext.targetType_eq_ok.mpr ⟨found, rfl⟩
  have same := Task.type_of_execute executed
  rw [← same] at there ⊢
  rw [methodState?_apply there, MethodState.after_eq_self fun change member =>
    Edit.advance_of_target? (fun target =>
      spared (Task.writes_of_execute located executed member target)) slot]

/-- Tasks leave the methods alone that none of them writes to. -/
theorem methodState?_foldlM (found : before.module.types[type]? = some definition)
    (there : before.methodState? type index = some slot)
    (own : ∀ task ∈ tasks, task.typeIndex = type)
    (spared : ∀ task ∈ tasks, ¬ task.Writes definition index)
    (ran : tasks.foldlM (runTask resolver configuration) before = .ok after) :
    after.methodState? type index = some slot := by
  have inside : index < definition.methods.length := by
    obtain ⟨definition', found', listed⟩ := methodAt?_eq_some.mp (methodState?_eq_some.mp there).1
    obtain rfl := Option.some.inj (found.symm.trans found')
    exact (List.getElem?_eq_some_iff.mp listed).1
  refine (Outcome.foldlM_invariant (fun rest state =>
    (∀ task ∈ rest, task.typeIndex = type) ∧ (∀ task ∈ rest, ¬ task.Writes definition index) ∧
      before.module.Extends state.module ∧ state.methodState? type index = some slot)
    ?_ ⟨own, spared, .refl _, there⟩ ran).2.2.2
  rintro task rest state next ⟨own, spared, extended, there⟩ executed
  obtain ⟨rfl, own⟩ := List.forall_mem_cons.mp own
  obtain ⟨here, spared⟩ := List.forall_mem_cons.mp spared
  obtain ⟨definition', found', types⟩ := exists_of_rel extended.types? found
  exact ⟨own, spared, extended.trans (extends_runTask executed),
    methodState?_runTask found' there (fun writes => here (writes.of_extends types inside)) executed⟩

end WeavingState

/-! ## One visit of a pass -/

/-- The visit to a type within a pass from a module to a woven one. -/
structure Visit (resolver : Resolver) (configuration : Configuration) (module woven : Module)
    (type : Nat) (original : TypeDef) (before after : WeavingState) : Prop where
  found : before.module.types[type]? = some original
  cursors : ∀ index, before.cursors (type, index) = 0
  earlier : module.Extends before.module
  ran : (original.tasks configuration type).foldlM (WeavingState.runTask resolver configuration)
    before = .ok after
  later : after.module.Extends woven
  stays : woven.types[type]? = after.module.types[type]?

theorem TypeDef.typeIndex_of_mem_tasks {definition : TypeDef} {type : Nat} {task : Task}
    (planned : task ∈ definition.tasks configuration type) : task.typeIndex = type := by
  simp only [tasks, List.mem_append, List.mem_map] at planned
  obtain (⟨_, _, rfl⟩ | ⟨_, _, rfl⟩) | last := planned
  · rfl
  · rfl
  · rw [TypeDef.mem_queryTasks last]
    rfl

theorem WeavingState.Waiting.visit {module : Module} {type : Nat} {waiting : List Nat}
    {original : TypeDef} {state after : WeavingState} (waits : Waiting module (type :: waiting) state)
    (extended : module.Extends state.module) (found : module.types[type]? = some original)
    (visited : WeavingState.weaveType resolver configuration state type = .ok after) :
    Visit resolver configuration module after.module type original { state with touched := [] } after := by
  obtain ⟨here, cursors⟩ := waits.waits type List.mem_cons_self
  have ran := waits.runPlan visited
  rw [WeavingState.runPlan, Module.plan_eq found] at ran
  exact ⟨here.trans found, cursors, extended, ran, .refl _, rfl⟩

namespace Module

variable {module woven : Module} {report : WeaveReport} {type index : Nat} {original : TypeDef}

/-- A pass that succeeds visits every type. What tasks preserve of the module holds at the visit. -/
theorem exists_visit_of_preserved (holds : Module → Prop) (initially : holds module)
    (preserved : ∀ (state after : WeavingState) (task : Task), holds state.module →
      state.runTask resolver configuration task = .ok after → holds after.module)
    (fresh : module.isInstrumented = false)
    (weaves : module.weave resolver configuration = .ok (woven, report))
    (found : module.types[type]? = some original) :
    ∃ before after, Visit resolver configuration module woven type original before after ∧
      holds before.module := by
  rcases weave_eq_ok weaves with ⟨instrumented, -⟩ | ⟨-, state, ran, rfl, -⟩
  · rw [fresh] at instrumented
    cases instrumented
  obtain ⟨inside, -⟩ := List.getElem?_eq_some_iff.mp found
  obtain ⟨front, back, order⟩ := List.append_of_mem (mem_baseFirstOrder.mpr inside)
  have start := WeavingState.waiting_initial module
  rw [order] at ran start
  rw [List.foldlM_append] at ran
  obtain ⟨between, first, ran⟩ := Outcome.bind_eq_ok.mp ran
  rw [List.foldlM_cons] at ran
  obtain ⟨after, visited, rest⟩ := Outcome.bind_eq_ok.mp ran
  obtain ⟨waits, extended, kept⟩ := Outcome.foldlM_invariant (fun rest state =>
    WeavingState.Waiting module (rest ++ type :: back) state ∧ module.Extends state.module ∧
      holds state.module)
    (fun _ _ _ _ ⟨waits, extended, kept⟩ visited => ⟨waits.weaveType visited,
      extended.trans (WeavingState.extends_weaveType visited),
      Outcome.foldlM_invariant (fun _ state => holds state.module)
        (fun task _ state after kept ran => preserved state after task kept ran) kept
        (WeavingState.weaveType_eq_ok.mp visited).1⟩)
    ⟨start, .refl module, initially⟩ first
  obtain ⟨absent, -⟩ := List.nodup_cons.mp waits.distinct
  exact ⟨{ between with touched := [] }, after, { waits.visit extended found visited with
    later := (WeavingState.extends_visits rest).trans (extends_markInstrumented state.module)
    stays := WeavingState.types_of_visits rest absent }, kept⟩

theorem exists_visit (fresh : module.isInstrumented = false)
    (weaves : module.weave resolver configuration = .ok (woven, report))
    (found : module.types[type]? = some original) :
    ∃ before after, Visit resolver configuration module woven type original before after := by
  obtain ⟨before, after, visit, -⟩ := exists_visit_of_preserved (fun _ => True) trivial
    (fun _ _ _ _ _ => trivial) fresh weaves found
  exact ⟨before, after, visit⟩

end Module

namespace Visit

variable {module woven : Module} {type index : Nat} {original : TypeDef} {before after : WeavingState}
  {method : MethodDef}
  (visit : Visit resolver configuration module woven type original before after)

include visit

theorem methodState? (listed : original.methods[index]? = some method) :
    before.methodState? type index = some ⟨method, 0⟩ :=
  WeavingState.methodState?_eq_some.mpr
    ⟨WeavingState.methodAt?_eq_some.mpr ⟨original, visit.found, listed⟩, visit.cursors index⟩

theorem extended : before.module.Extends after.module :=
  WeavingState.extends_foldlM visit.ran

theorem methodAt? : woven.methodAt? type index = after.module.methodAt? type index :=
  Module.methodAt?_congr visit.stays index

/-- A method that no planned task writes to is the same in the woven module. -/
theorem methodAt?_of_spared (listed : original.methods[index]? = some method)
    (spared : ∀ task ∈ original.tasks configuration type, ¬ task.Writes original index) :
    woven.methodAt? type index = some method := by
  have kept := WeavingState.methodState?_foldlM visit.found (visit.methodState? listed)
    (fun _ planned => TypeDef.typeIndex_of_mem_tasks planned) spared visit.ran
  exact visit.methodAt?.trans (WeavingState.methodState?_eq_some.mp kept).1

end Visit

end PropertyWeaver
