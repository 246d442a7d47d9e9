import PropertyWeaver.Proofs.Weaving.InjectedFields

/-!
# What a pass leaves alone

Of the module itself a pass changes the mark and what it lists, of a type its fields and methods,
and of a method its code. What changes there is what the plan of the type asks for: accessors of its
properties, constructors, mapping fields in place of backing fields, and one query behind the
methods.
-/

set_option autoImplicit false

namespace PropertyWeaver

variable {resolver : Resolver} {configuration : Configuration}

/-! ## The module -/

/-- A module that differs in its types, and that lists what the first one lists, in the same order. -/
structure Module.Grows (before after : Module) : Prop where
  rest : after = { before with references := after.references, types := after.types }
  references : before.references <+: after.references

namespace Module

private theorem Grows.refl (module : Module) : module.Grows module :=
  ⟨rfl, List.prefix_refl _⟩

private theorem Grows.trans {before between after : Module} (first : before.Grows between)
    (second : between.Grows after) : before.Grows after := by
  refine ⟨?_, first.references.trans second.references⟩
  calc after = { between with references := after.references, types := after.types } := second.rest
    _ = { before with references := after.references, types := after.types } := by rw [first.rest]

private theorem prefix_addReferences (module : Module) (scopes : List String) :
    module.references <+: (module.addReferences scopes).references := by
  unfold addReferences
  induction scopes generalizing module with
  | nil => exact List.prefix_refl _
  | cons scope scopes hypothesis =>
      refine List.IsPrefix.trans ?_ (hypothesis (module.addReference scope))
      unfold addReference
      split
      · exact List.prefix_refl _
      · exact List.prefix_append _ _

end Module

namespace WeavingState

variable {state before after : WeavingState} {task : Task}

theorem grows_applyEdit (type : Nat) (state : WeavingState) (edit : Edit) :
    state.module.Grows (applyEdit type state edit).module := by
  have references : state.module.references <+: (applyEdit type state edit).module.references := by
    rw [references_applyEdit]
    exact state.module.prefix_addReferences edit.scopes
  obtain ⟨listed, same⟩ := state.module.addReferences_eq edit.scopes
  have imported : (state.importScopes edit.scopes).module =
      { state.module with references := listed } := same
  refine ⟨?_, references⟩
  cases edit with
  | replaceBody method body => simp only [applyEdit, setBody, Module.modifyType, imported]
  | prependToConstructor method block maxStack =>
      simp only [applyEdit, prepend]
      split
      · rw [imported]
      · simp only [setBody, Module.modifyType, imported]
  | addField field => simp only [applyEdit, addField, Module.modifyType, imported]
  | removeField name => simp only [applyEdit, removeField, Module.modifyType, imported]
  | addMethod method => simp only [applyEdit, addMethod, Module.modifyType, imported]

private theorem grows_runTask (ran : runTask resolver configuration state task = .ok after) :
    state.module.Grows after.module := by
  rcases runTask_eq_ok ran with rfl | ⟨edit, -, rfl⟩
  · exact .refl _
  · exact List.foldlRecOn edit.edits (applyEdit edit.type)
      (motive := fun next => state.module.Grows next.module) (.refl _)
      fun next grows change _ => grows.trans (grows_applyEdit edit.type next change)

theorem grows_visits {types : List Nat}
    (ran : types.foldlM (weaveType resolver configuration) before = .ok after) :
    before.module.Grows after.module :=
  Outcome.foldlM_invariant (fun _ state => before.module.Grows state.module)
    (fun _ _ state _ grows visited => grows.trans
      (Outcome.foldlM_invariant (fun _ next => state.module.Grows next.module)
        (fun _ _ _ _ grows ran => grows.trans (grows_runTask ran)) (.refl state.module)
        (weaveType_eq_ok.mp visited).1))
    (.refl before.module) ran

/-! ## The type -/

variable {type : Nat} {definition : TypeDef} {index : Nat}

private theorem types_notify (found : state.module.types[type]? = some definition)
    (ran : runTask resolver configuration state (.changeNotification type index) = .ok after) :
    ∃ methods, after.module.types[type]? = some { definition with methods := methods } ∧
      methods.map MethodDef.header = definition.methods.map MethodDef.header := by
  rcases runTask_eq_ok ran with rfl | ⟨edit, executed, rfl⟩
  · exact ⟨definition.methods, found, rfl⟩
  · rcases WeavingContext.notifyChanges_eq_ok executed with rfl | ⟨_, _, setter, _, body, -, -, -, -, -,
      -, rfl⟩
    · exact ⟨definition.methods, found, rfl⟩
    · obtain ⟨methods, there, headers⟩ := types_foldl [.replaceBody setter body] found
      exact ⟨methods, there, headers (by simp [Edit.addedMethods])⟩

private theorem types_query (found : state.module.types[type]? = some definition)
    (ran : runTask resolver configuration state (.typeHierarchy type) = .ok after) :
    ∃ added, after.module.types[type]? =
        some { definition with methods := definition.methods ++ added } ∧ added.length ≤ 1 ∧
      ∀ method ∈ added, method.name = configuration.runtime.typeQuery := by
  rcases runTask_eq_ok ran with rfl | ⟨edit, executed, rfl⟩
  · exact ⟨[], by rw [found, List.append_nil], by simp, by simp⟩
  · rcases WeavingContext.overrideQuery_eq_ok executed with rfl | ⟨_, _, _, _, _, -, -, -, -, -, rfl⟩
    · exact ⟨[], by rw [List.append_nil]; exact found, by simp, by simp⟩
    · refine ⟨[_], types_addMethod found _, Nat.le_refl 1, fun method member => ?_⟩
      obtain rfl := List.mem_singleton.mp member
      rfl

theorem types_notifying {indices : List Nat} (found : state.module.types[type]? = some definition)
    (ran : (indices.map (Task.changeNotification type)).foldlM (runTask resolver configuration) state =
      .ok after) :
    ∃ methods, after.module.types[type]? = some { definition with methods := methods } ∧
      methods.map MethodDef.header = definition.methods.map MethodDef.header := by
  rw [List.foldlM_map] at ran
  refine Outcome.foldlM_invariant (fun _ next => ∃ methods,
    next.module.types[type]? = some { definition with methods := methods } ∧
      methods.map MethodDef.header = definition.methods.map MethodDef.header)
    ?_ ⟨definition.methods, found, rfl⟩ ran
  rintro index rest between next ⟨methods, found, headers⟩ executed
  obtain ⟨methods', found', headers'⟩ := types_notify found executed
  exact ⟨methods', found', headers'.trans headers⟩

theorem types_queryTasks {original : TypeDef} (found : state.module.types[type]? = some definition)
    (ran : (original.queryTasks configuration type).foldlM (runTask resolver configuration) state =
      .ok after) :
    ∃ added, after.module.types[type]? =
        some { definition with methods := definition.methods ++ added } ∧ added.length ≤ 1 ∧
      ∀ method ∈ added, method.name = configuration.runtime.typeQuery := by
  unfold TypeDef.queryTasks at ran
  split at ran
  · rw [List.foldlM_cons] at ran
    obtain ⟨next, executed, done⟩ := Outcome.bind_eq_ok.mp ran
    obtain rfl := Except.ok.inj done
    exact types_query found executed
  · obtain rfl := Except.ok.inj ran
    exact ⟨[], by rw [found, List.append_nil], by simp, by simp⟩

end WeavingState

/-- What a pass may make of a type: mapping fields come in the place of backing fields, accessors and
constructors get other code, and a query is added. -/
structure TypeDef.Framed (context : WeavingContext) (before after : TypeDef) : Prop where
  header : after.header = before.header
  fields : ∃ removed routed injected, after.fields = before.fieldsWith removed injected ∧
    routed.Sublist (before.mappedProperties context.configuration) ∧
    List.Forall₂ (context.Injects before) routed injected ∧
    ∀ name ∈ removed, ∃ index ∈ before.mappedProperties context.configuration,
      ∃ property backing, before.properties[index]? = some property ∧
        before.backingField? property = some backing ∧ backing.name = name
  methods : ∃ kept added, after.methods = kept ++ added ∧
    kept.map MethodDef.header = before.methods.map MethodDef.header ∧ added.length ≤ 1 ∧
    ∀ method ∈ added, method.name = context.configuration.runtime.typeQuery
  code : ∀ index method, before.methods[index]? = some method →
    (∀ planned ∈ before.mappedProperties context.configuration ++
      before.notifyingProperties context.configuration,
      ∀ property, before.properties[planned]? = some property → index ∉ property.accessors) →
    (method.isConstructor = true → before.mappedProperties context.configuration = []) →
    after.methods[index]? = some method

/-- The tasks behind those for mapped properties write to accessors of the properties that are to
notify. -/
theorem TypeDef.not_writes_of_notifying {definition : TypeDef} {type index : Nat} {task : Task}
    (accessors : ∀ notifies ∈ definition.notifyingProperties configuration,
      ∀ property, definition.properties[notifies]? = some property → index ∉ property.accessors)
    (planned : task ∈ (definition.notifyingProperties configuration).map (.changeNotification type) ++
      definition.queryTasks configuration type) : ¬ task.Writes definition index := by
  rcases List.mem_append.mp planned with notifies | query
  · obtain ⟨position, member, rfl⟩ := List.mem_map.mp notifies
    rintro (⟨property, found, accessor⟩ | ⟨routes, -⟩)
    · exact accessors position member property found accessor
    · cases routes
  · rw [TypeDef.mem_queryTasks query]
    rintro (⟨property, found, -⟩ | ⟨routes, -⟩)
    · cases found
    · cases routes

private theorem TypeDef.not_writes {definition : TypeDef} {type index : Nat} {method : MethodDef}
    {task : Task} (listed : definition.methods[index]? = some method)
    (accessors : ∀ planned ∈ definition.mappedProperties configuration ++
      definition.notifyingProperties configuration,
      ∀ property, definition.properties[planned]? = some property → index ∉ property.accessors)
    (constructs : method.isConstructor = true → definition.mappedProperties configuration = [])
    (planned : task ∈ definition.tasks configuration type) : ¬ task.Writes definition index := by
  obtain ⟨mapped, notifying⟩ := List.forall_mem_append.mp accessors
  rw [tasks, List.append_assoc] at planned
  rcases List.mem_append.mp planned with routes | rest
  · obtain ⟨position, member, rfl⟩ := List.mem_map.mp routes
    rintro (⟨property, found, accessor⟩ | ⟨-, constructor⟩)
    · exact mapped position member property found accessor
    · obtain ⟨method', listed', constructor⟩ := WeavingContext.mem_constructors.mp constructor
      obtain rfl := Option.some.inj (listed.symm.trans listed')
      rw [constructs constructor] at member
      cases member
  · exact TypeDef.not_writes_of_notifying notifying rest

namespace Visit

variable {module woven : Module} {type : Nat} {original : TypeDef} {before after : WeavingState}
  (visit : Visit resolver configuration module woven type original before after)

include visit

theorem framed : ∃ definition, woven.types[type]? = some definition ∧
    original.Framed (.ofModule module resolver configuration) definition := by
  obtain ⟨mapped, notified, removed, routed, injected, first, second, last, injecting⟩ := visit.phases
  obtain ⟨methods, found, headers⟩ := injecting.types
  obtain ⟨methods', found', headers'⟩ := WeavingState.types_notifying found second
  obtain ⟨added, found'', few, named⟩ := WeavingState.types_queryTasks found' last
  refine ⟨_, visit.stays.trans found'', rfl, ?_,
    ⟨methods', added, rfl, headers'.trans headers, few, named⟩, ?_⟩
  · have order := injecting.order
    rw [List.append_nil] at order
    exact ⟨removed, routed, injected, rfl, order, injecting.injects, injecting.sources⟩
  · intro index method listed accessors constructs
    have kept := visit.methodAt?_of_spared listed fun task planned writes =>
      TypeDef.not_writes listed accessors constructs planned writes
    rw [Module.methodAt?, visit.stays, found'', Option.bind_some] at kept
    exact kept

/-- A type without a plan stays as it is. -/
theorem unplanned (none : original.tasks configuration type = []) :
    woven.types[type]? = some original := by
  have ran := visit.ran
  rw [none] at ran
  obtain rfl := Except.ok.inj ran
  exact visit.stays.trans visit.found

end Visit

namespace Module

variable {module woven : Module} {report : WeaveReport}

/-- Weaving marks the module and lists what it refers to. A type without a plan stays as it is, and
of any other one what the plan does not ask for. -/
theorem weave_frames (fresh : module.isInstrumented = false)
    (weaves : module.weave resolver configuration = .ok (woven, report)) :
    woven = { module with
      flags := module.flags ||| ModuleFlag.instrumented
      references := woven.references
      types := woven.types } ∧
    module.references <+: woven.references ∧
    woven.types.map TypeDef.header = module.types.map TypeDef.header ∧
    ∀ typeIndex type, module.types[typeIndex]? = some type →
      ∃ type', woven.types[typeIndex]? = some type' ∧
        type.Framed (.ofModule module resolver configuration) type' ∧
        (module.plan configuration typeIndex = [] → type' = type) := by
  have types : ∀ typeIndex type, module.types[typeIndex]? = some type →
      ∃ type', woven.types[typeIndex]? = some type' ∧
        type.Framed (.ofModule module resolver configuration) type' ∧
        (module.plan configuration typeIndex = [] → type' = type) := by
    intro typeIndex type found
    obtain ⟨before, after, visit⟩ := exists_visit fresh weaves found
    obtain ⟨type', found', framed⟩ := visit.framed
    refine ⟨type', found', framed, fun none => ?_⟩
    rw [plan_eq found] at none
    exact Option.some.inj (found'.symm.trans (visit.unplanned none))
  rcases weave_eq_ok weaves with ⟨instrumented, -⟩ | ⟨-, state, ran, rfl, -⟩
  · rw [fresh] at instrumented
    cases instrumented
  have grows := WeavingState.grows_visits ran
  have extended := WeavingState.extends_visits ran
  exact ⟨congrArg markInstrumented grows.rest, grows.references, extended.headers, types⟩

theorem weave_frames_sampleModule :
    ∃ woven report, sampleModule.weave sampleResolver {} = .ok (woven, report) ∧
      sampleModule.references <+: woven.references ∧
      woven.types.map TypeDef.header = sampleModule.types.map TypeDef.header ∧
      ∃ type', woven.types[0]? = some type' ∧
        sampleCounter.Framed (.ofModule sampleModule sampleResolver {}) type' := by
  have weaves : (sampleModule.weave sampleResolver {}).isOk = true := by decide +kernel
  obtain ⟨⟨woven, report⟩, outcome⟩ := Outcome.exists_of_isOk weaves
  obtain ⟨-, references, headers, types⟩ := weave_frames (by decide) outcome
  obtain ⟨type', found, framed, -⟩ := types 0 sampleCounter rfl
  exact ⟨woven, report, outcome, references, headers, type', found, framed⟩

end Module

end PropertyWeaver
