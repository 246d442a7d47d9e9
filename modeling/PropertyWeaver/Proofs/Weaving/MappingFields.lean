import PropertyWeaver.Proofs.Weaving.Extension
import PropertyWeaver.Proofs.Weaving.Initialisation

/-!
# Mapping fields stay

A task for a mapped property leaves its mapping field behind, and no later task takes that field away:
only fields that a compiler has marked are removed, and mapping fields have no marks. So a task that has
run once has nothing left to do.
-/

set_option autoImplicit false

namespace PropertyWeaver

variable {resolver : Resolver} {configuration : Configuration}

/-! ## Tasks that change nothing -/

/-- If the task applies, it succeeds without edits. -/
def Task.Quiet (resolver : Resolver) (configuration : Configuration) (module : Module)
    (task : Task) : Prop :=
  task.canExecute (.ofModule module resolver configuration) = true →
    ∃ edit, task.execute (.ofModule module resolver configuration) = .ok edit ∧ edit.edits = []

namespace WeavingState

variable {state after : WeavingState} {task : Task}

theorem runTask_of_quiet (quiet : task.Quiet resolver configuration state.module) :
    runTask resolver configuration state task = .ok state := by
  unfold runTask
  dsimp only
  split
  · next applies =>
    obtain ⟨edit, executed, nothing⟩ := quiet applies
    rw [executed, Outcome.ok_bind, nothing]
    rfl
  · rfl

theorem runTask_of_execute {edit : TypeEdit}
    (applies : task.canExecute (.ofModule state.module resolver configuration) = true)
    (executed : task.execute (.ofModule state.module resolver configuration) = .ok edit)
    (asks : edit.edits ≠ []) :
    runTask resolver configuration state task = .ok (state.apply edit) := by
  simp only [runTask, applies, if_true, executed, Outcome.ok_bind, List.isEmpty_eq_false_iff.mpr asks,
    Bool.false_eq_true, if_false, Outcome.pure_eq]

theorem runTask_cases (ran : runTask resolver configuration state task = .ok after) :
    after = state ∧ task.Quiet resolver configuration state.module ∨
      ∃ edit, task.canExecute (.ofModule state.module resolver configuration) = true ∧
        task.execute (.ofModule state.module resolver configuration) = .ok edit ∧
        edit.edits ≠ [] ∧ after = state.apply edit := by
  unfold runTask at ran
  dsimp only at ran
  split at ran
  · next applies =>
    obtain ⟨edit, executed, done⟩ := Outcome.bind_eq_ok.mp ran
    obtain rfl := Except.ok.inj done
    split
    · next nothing => exact .inl ⟨rfl, fun _ => ⟨edit, executed, List.isEmpty_iff.mp nothing⟩⟩
    · next some => exact .inr ⟨edit, applies, executed, mt List.isEmpty_iff.mpr some, rfl⟩
  · next skipped =>
    exact .inl ⟨(Except.ok.inj ran).symm, fun applies => absurd applies skipped⟩

end WeavingState

/-! ## Extended modules -/

namespace Module.Extends

variable {before after : Module} (extended : before.Extends after) {typeIndex propertyIndex : Nat}

include extended

theorem types? : Option.Rel TypeDef.Extends before.types[typeIndex]? after.types[typeIndex]? :=
  rel_getElem? extended.types typeIndex

theorem targetType {type : LocatedType}
    (located : (WeavingContext.ofModule before resolver configuration).targetType typeIndex =
      .ok type) :
    ∃ type', (WeavingContext.ofModule after resolver configuration).targetType typeIndex =
      .ok type' ∧ type.Extends type' := by
  obtain ⟨found, scope⟩ := WeavingContext.targetType_eq_ok.mp located
  obtain ⟨definition, found', types⟩ := exists_of_rel extended.types? found
  exact ⟨⟨definition, none⟩, WeavingContext.targetType_eq_ok.mpr ⟨found', rfl⟩, types, scope.symm⟩

theorem properties :
    before.types[typeIndex]?.map TypeDef.properties =
      after.types[typeIndex]?.map TypeDef.properties :=
  map_eq_of_rel extended.types? fun _ _ types =>
    (TypeDef.eq_of_header types.header TypeDef.properties fun _ => rfl).symm

private theorem property? :
    (before.types[typeIndex]?.bind fun definition => definition.properties[propertyIndex]?) =
      after.types[typeIndex]?.bind fun definition => definition.properties[propertyIndex]? := by
  have through : ∀ found : Option TypeDef,
      (found.bind fun definition => definition.properties[propertyIndex]?) =
        (found.map TypeDef.properties).bind (·[propertyIndex]?) := by
    rintro (_ | definition) <;> rfl
  rw [through, through, extended.properties]

private theorem canMap :
    (WeavingContext.ofModule before resolver configuration).canMap typeIndex propertyIndex =
      (WeavingContext.ofModule after resolver configuration).canMap typeIndex propertyIndex :=
  congrArg (Option.any _) extended.property?

theorem canNotify :
    (WeavingContext.ofModule before resolver configuration).canNotify typeIndex propertyIndex =
      (WeavingContext.ofModule after resolver configuration).canNotify typeIndex propertyIndex :=
  congrArg (Option.any _) extended.property?

end Module.Extends

namespace LocatedType.Extends

variable {type type' : LocatedType} (types : type.Extends type')

include types

theorem propertyOf {index : Nat} {property : PropertyDef}
    (listed : WeavingContext.propertyOf type index = .ok property) :
    WeavingContext.propertyOf type' index = .ok property := by
  rw [WeavingContext.propertyOf_eq_ok] at listed ⊢
  rw [← listed]
  exact congrArg (·[index]?)
    (LocatedType.eq_of_header types.header (fun type => type.definition.properties) fun _ => rfl)

theorem checkAccessor {property : PropertyDef} {accessor : Accessor} {index : Nat}
    (checked : WeavingContext.checkAccessor type.definition property accessor index = .ok ()) :
    WeavingContext.checkAccessor type'.definition property accessor index = .ok () := by
  obtain ⟨method, listed, synthesized⟩ := WeavingContext.checkAccessor_eq_ok.mp checked
  obtain ⟨method', listed', header⟩ := types.definition.getElem? listed
  refine WeavingContext.checkAccessor_eq_ok.mpr ⟨method', listed', ?_⟩
  exact (MethodDef.eq_of_header header MethodDef.isSynthesized fun _ => rfl).trans synthesized

end LocatedType.Extends

/-! ## Mapped properties -/

namespace WeavingContext

variable {context : WeavingContext} {typeIndex propertyIndex : Nat} {type : LocatedType}
  {property : PropertyDef} {edit : TypeEdit}

/-- The mapping field of a property is there, with the type that it has to have, and the accessors may
be replaced. -/
structure Mapped (context : WeavingContext) (type : LocatedType) (property : PropertyDef) : Prop where
  getters : ∀ getter ∈ property.getter,
    checkAccessor type.definition property .getter getter = .ok ()
  setters : ∀ setter ∈ property.setter,
    checkAccessor type.definition property .setter setter = .ok ()
  field : ∃ mapping field, context.mappingType = .ok mapping ∧
    type.definition.field? (context.configuration.mappingFieldName property.name) = some field ∧
    field.fieldType = .instantiated mapping.typeRef false [property.propertyType]

theorem mapProperty_cases (executed : context.mapProperty typeIndex propertyIndex = .ok edit) :
    ∃ type property identifier, context.targetType typeIndex = .ok type ∧
      propertyOf type propertyIndex = .ok property ∧
      context.persistentIdentifier type.definition property = .ok identifier ∧
      (identifier = none ∨ context.Mapped type property ∨
        ∃ identifier mapping,
          (∀ getter ∈ property.getter,
            checkAccessor type.definition property .getter getter = .ok ()) ∧
          (∀ setter ∈ property.setter,
            checkAccessor type.definition property .setter setter = .ok ()) ∧
          context.mappingType = .ok mapping ∧
          type.definition.field? (context.configuration.mappingFieldName property.name) = none ∧
          context.routeThrough typeIndex type property mapping identifier
            (context.configuration.mappingFieldName property.name)
            (.instantiated mapping.typeRef false [property.propertyType]) = .ok edit) := by
  simp only [mapProperty, Outcome.bind_eq_ok] at executed
  obtain ⟨type, located, property, listed, identifier, annotated, rest⟩ := executed
  refine ⟨type, property, identifier, located, listed, annotated, ?_⟩
  cases identifier with
  | none => exact .inl rfl
  | some identifier =>
      simp only [Outcome.bind_eq_ok] at rest
      obtain ⟨_, getters, _, setters, mapping, found, rest⟩ := rest
      have getters := checkAccessors_eq_ok.mp getters
      have setters := checkAccessors_eq_ok.mp setters
      split at rest
      · next absent => exact .inr (.inr ⟨identifier, mapping, getters, setters, found, absent, rest⟩)
      · next existing there =>
        split at rest
        · next same => exact .inr (.inl ⟨getters, setters, mapping, existing, found, there, same⟩)
        · cases rest

private theorem mapProperty_of_none (located : context.targetType typeIndex = .ok type)
    (listed : propertyOf type propertyIndex = .ok property)
    (annotated : context.persistentIdentifier type.definition property = .ok none) :
    context.mapProperty typeIndex propertyIndex = .ok (TypeEdit.none typeIndex) := by
  simp only [mapProperty, located, listed, annotated, Outcome.ok_bind, Outcome.pure_eq]

theorem mapProperty_of_mapped (located : context.targetType typeIndex = .ok type)
    (listed : propertyOf type propertyIndex = .ok property) {identifier : Option String}
    (annotated : context.persistentIdentifier type.definition property = .ok identifier)
    (mapped : context.Mapped type property) :
    context.mapProperty typeIndex propertyIndex = .ok (TypeEdit.none typeIndex) := by
  cases identifier with
  | none => exact mapProperty_of_none located listed annotated
  | some identifier =>
      obtain ⟨mapping, field, found, there, same⟩ := mapped.field
      simp only [mapProperty, located, listed, annotated, checkAccessors_eq_ok.mpr mapped.getters,
        checkAccessors_eq_ok.mpr mapped.setters, found, there, same, Outcome.ok_bind, if_true,
        Outcome.pure_eq]

private theorem Mapped.extends {before after : WeavingContext} {type' : LocatedType}
    {mapping : LocatedType} {field : FieldDef} (extended : before.metadata.Extends after.metadata)
    (same : after.configuration = before.configuration) (types : type.Extends type')
    (getters : ∀ getter ∈ property.getter,
      checkAccessor type.definition property .getter getter = .ok ())
    (setters : ∀ setter ∈ property.setter,
      checkAccessor type.definition property .setter setter = .ok ())
    (found : before.mappingType = .ok mapping)
    (there : type'.definition.field? (before.configuration.mappingFieldName property.name) =
      some field)
    (typed : field.fieldType = .instantiated mapping.typeRef false [property.propertyType]) :
    after.Mapped type' property := by
  obtain ⟨mapping', found', mappings⟩ := mappingType_extends extended same found
  refine ⟨fun getter accessor => types.checkAccessor (getters getter accessor),
    fun setter accessor => types.checkAccessor (setters setter accessor), mapping', field, found',
    by rw [same, there], ?_⟩
  rw [typed, LocatedType.eq_of_header mappings.header LocatedType.typeRef fun _ => rfl]

end WeavingContext

/-- A task for a mapped property stays quiet as long as its mapping field stays. -/
theorem Task.Quiet.mappedProperty {before after : Module} {typeIndex propertyIndex : Nat}
    (quiet : (Task.mappedProperty typeIndex propertyIndex).Quiet resolver configuration before)
    (extended : before.Extends after)
    (kept : ∀ definition definition' property field, before.types[typeIndex]? = some definition →
      after.types[typeIndex]? = some definition' →
      definition.properties[propertyIndex]? = some property →
      definition.field? (configuration.mappingFieldName property.name) = some field →
      definition'.field? (configuration.mappingFieldName property.name) = some field) :
    (Task.mappedProperty typeIndex propertyIndex).Quiet resolver configuration after := by
  intro applies
  obtain ⟨edit, executed, nothing⟩ := quiet (extended.canMap.trans applies)
  obtain ⟨type, property, identifier, located, listed, annotated, rest⟩ :=
    WeavingContext.mapProperty_cases executed
  obtain ⟨type', located', types⟩ := extended.targetType located
  have listed' := types.propertyOf listed
  have annotated' := annotated
  rw [WeavingContext.persistentIdentifier_of_alike rfl types.header.symm] at annotated'
  refine ⟨TypeEdit.none typeIndex, ?_, rfl⟩
  rcases rest with rfl | mapped | ⟨identifier, mapping, -, -, -, -, routed⟩
  · exact WeavingContext.mapProperty_of_none located' listed' annotated'
  · obtain ⟨mapping, field, found, there, typed⟩ := mapped.field
    have stays := kept type.definition type'.definition property field
      (WeavingContext.targetType_eq_ok.mp located).1 (WeavingContext.targetType_eq_ok.mp located').1
      (WeavingContext.propertyOf_eq_ok.mp listed) there
    exact WeavingContext.mapProperty_of_mapped located' listed' annotated'
      (.extends (extended.metadata resolver configuration) rfl types mapped.getters mapped.setters
        found stays typed)
  · obtain ⟨_, _, _, _, -, -, -, -, rfl⟩ := WeavingContext.routeThrough_eq_ok routed
    cases nothing

/-! ## Fields under edits -/

/-- The first field of a name, if there is one, has no mark of a compiler. -/
def Unmarked (name : String) (fields : List FieldDef) : Prop :=
  ∀ field ∈ fields.find? fun field => field.name = name, field.isCompilerGenerated = false

/-- An edit that adds no field that a compiler has marked. -/
def Edit.AddsUnmarked (edit : Edit) : Prop :=
  ∀ field, edit = .addField field → field.isCompilerGenerated = false

namespace Edit

variable {edit : Edit} {edits : List Edit} {name : String} {fields : List FieldDef} {field : FieldDef}

private theorem find?_filter_name (other : String) :
    (fields.filter fun field => field.name ≠ other).find? (fun field => field.name = name) =
      if other = name then none else fields.find? fun field => field.name = name := by
  rw [List.find?_filter]
  split
  · next same =>
    subst same
    refine List.find?_eq_none.mpr fun field _ => ?_
    simp
  · next different =>
    congr 1
    funext field
    by_cases named : field.name = name
    · simp [named, Ne.symm different]
    · simp [named]

private theorem find?_changeFields (kept : edit ≠ .removeField name)
    (found : (fields.find? fun field => field.name = name) = some field) :
    ((edit.changeFields fields).find? fun field => field.name = name) = some field := by
  cases edit with
  | addField added => rw [changeFields, List.find?_append, found, Option.some_or]
  | removeField other =>
      have different : other ≠ name := fun same => kept (congrArg _ same)
      rw [changeFields, find?_filter_name, if_neg different, found]
  | _ => exact found

private theorem find?_foldl (kept : .removeField name ∉ edits)
    (found : (fields.find? fun field => field.name = name) = some field) :
    ((edits.foldl (fun fields edit => edit.changeFields fields) fields).find?
      fun field => field.name = name) = some field := by
  induction edits generalizing fields with
  | nil => exact found
  | cons edit edits hypothesis =>
      obtain ⟨here, rest⟩ := not_or.mp (mt List.mem_cons.mpr kept)
      exact hypothesis rest (find?_changeFields (Ne.symm here) found)

private theorem unmarked_changeFields (adds : edit.AddsUnmarked) (unmarked : Unmarked name fields) :
    Unmarked name (edit.changeFields fields) := by
  cases edit with
  | addField added =>
      intro field found
      rw [changeFields, List.find?_append, Option.mem_def, Option.or_eq_some_iff] at found
      rcases found with old | ⟨-, new⟩
      · exact unmarked field old
      · obtain rfl := List.mem_singleton.mp (List.mem_of_find?_eq_some new)
        exact adds field rfl
  | removeField other =>
      intro field found
      rw [changeFields, find?_filter_name] at found
      split at found
      · cases found
      · exact unmarked field found
  | _ => exact unmarked

private theorem unmarked_foldl (adds : ∀ edit ∈ edits, edit.AddsUnmarked)
    (unmarked : Unmarked name fields) :
    Unmarked name (edits.foldl (fun fields edit => edit.changeFields fields) fields) := by
  induction edits generalizing fields with
  | nil => exact unmarked
  | cons edit edits hypothesis =>
      obtain ⟨here, rest⟩ := List.forall_mem_cons.mp adds
      exact hypothesis rest (unmarked_changeFields here unmarked)

end Edit

/-- A property that is routed gets its mapping field. What goes has been marked by a compiler. -/
theorem WeavingContext.routeThrough_fields {context : WeavingContext} {typeIndex : Nat}
    {type : LocatedType} {property : PropertyDef} {mapping : LocatedType}
    {identifier fieldName : String} {fieldType : TypeSig} {edit : TypeEdit}
    (routed : context.routeThrough typeIndex type property mapping identifier fieldName fieldType =
      .ok edit) :
    (∃ rest, edit.edits = .addField ⟨fieldName, FieldFlag.privateAccess, fieldType, []⟩ :: rest) ∧
      (∀ change ∈ edit.edits, change.AddsUnmarked) ∧
      ∀ name, .removeField name ∈ edit.edits →
        ∃ field, type.definition.field? name = some field ∧ field.isCompilerGenerated = true := by
  obtain ⟨api, code, maxStack, setterEdits, -, -, setters, -, rfl⟩ := routeThrough_eq_ok routed
  refine ⟨⟨_, rfl⟩, ?_, ?_⟩
  · intro change member field same
    subst same
    simp only [List.mem_append, List.mem_cons, List.mem_map] at member
    obtain (((same | ⟨_, _, same⟩) | member) | ⟨_, _, same⟩) | ⟨_, _, same⟩ := member
    · obtain rfl := Edit.addField.inj same
      rfl
    · cases same
    · obtain ⟨_, _, _, same, _⟩ := setters _ member
      cases same
    · cases same
    · cases same
  · intro name member
    simp only [List.mem_append, List.mem_cons, List.mem_map] at member
    obtain (((same | ⟨_, _, same⟩) | member) | ⟨removed, found, same⟩) | ⟨_, _, same⟩ := member
    · cases same
    · cases same
    · obtain ⟨_, _, _, same, _⟩ := setters _ member
      cases same
    · obtain rfl := Edit.removeField.inj same
      have removable := Option.mem_toList.mp found
      simp only [removableBackingField?, Option.bind_eq_bind, Option.bind_eq_some_iff] at removable
      obtain ⟨backing, -, field, there, rest⟩ := removable
      split at rest
      · next goes =>
        obtain rfl := Option.some.inj rest
        simp only [Bool.and_eq_true] at goes
        exact ⟨field, there, goes.1⟩
      · cases rest
    · cases same

/-! ## The tasks for mapped properties -/

namespace WeavingState

variable {type : Nat} {state after : WeavingState} {definition : TypeDef}

private theorem fields_foldl {edits : List Edit}
    (found : state.module.types[type]? = some definition) :
    ∃ definition', (edits.foldl (applyEdit type) state).module.types[type]? = some definition' ∧
      definition'.fields =
        edits.foldl (fun fields edit => edit.changeFields fields) definition.fields := by
  induction edits generalizing state definition with
  | nil => exact ⟨definition, found, rfl⟩
  | cons edit edits hypothesis =>
      have changed : (applyEdit type state edit).module.types[type]? =
          some (edit.change (state.cursor type) definition) := by
        rw [types_applyEdit, List.getElem?_modify_eq, found]
        rfl
      exact hypothesis changed

/-- What routing a property does to the fields: its mapping field is there, and fields without a mark
stay. -/
theorem routed_apply {context : WeavingContext} {edit : TypeEdit} {located mapping : LocatedType}
    {property : PropertyDef} {identifier fieldName : String} {fieldType : TypeSig}
    (found : state.module.types[edit.type]? = some located.definition)
    (absent : located.definition.field? fieldName = none)
    (routed : context.routeThrough type located property mapping identifier fieldName fieldType =
      .ok edit) :
    ∃ definition', (state.apply edit).module.types[edit.type]? = some definition' ∧
      definition'.field? fieldName =
        some ⟨fieldName, FieldFlag.privateAccess, fieldType, []⟩ ∧
      (∀ name field, located.definition.field? name = some field →
        field.isCompilerGenerated = false → definition'.field? name = some field) ∧
      ∀ name, Unmarked name located.definition.fields → Unmarked name definition'.fields := by
  obtain ⟨⟨rest, added⟩, adds, removes⟩ := WeavingContext.routeThrough_fields routed
  obtain ⟨definition', there, fields⟩ := @fields_foldl edit.type state _ edit.edits found
  refine ⟨definition', there, ?_, fun name field first unmarked => ?_, fun name unmarked => ?_⟩
  · rw [TypeDef.field?, fields, added, List.foldl_cons]
    refine Edit.find?_foldl (fun removed => ?_) ?_
    · obtain ⟨marked, again, -⟩ := removes fieldName (added ▸ List.mem_cons_of_mem _ removed)
      cases absent.symm.trans again
    · rw [TypeDef.field?] at absent
      rw [Edit.changeFields, List.find?_append, absent]
      simp
  · rw [TypeDef.field?, fields]
    refine Edit.find?_foldl (fun removed => ?_) first
    obtain ⟨marked, again, generated⟩ := removes name removed
    obtain rfl := Option.some.inj (first.symm.trans again)
    rw [unmarked] at generated
    cases generated
  · rw [fields]
    exact Edit.unmarked_foldl adds unmarked

/-- What holds between two tasks for mapped properties: mapping fields have no marks, and the tasks
that are done would change nothing. -/
structure Mapping (resolver : Resolver) (configuration : Configuration) (type : Nat)
    (indices : List Nat) (tasks : List Task) (state : WeavingState) : Prop where
  own : ∀ task ∈ tasks, ∃ index ∈ indices, task = .mappedProperty type index
  unmarked : ∀ index ∈ indices, ∀ definition property,
    state.module.types[type]? = some definition → definition.properties[index]? = some property →
    Unmarked (configuration.mappingFieldName property.name) definition.fields
  quiet : ∀ index ∈ indices, .mappedProperty type index ∉ tasks →
    (Task.mappedProperty type index).Quiet resolver configuration state.module

variable {indices : List Nat} {task : Task} {tasks : List Task}

private theorem Mapping.runTask
    (mapping : Mapping resolver configuration type indices (task :: tasks) state)
    (ran : WeavingState.runTask resolver configuration state task = .ok after) :
    Mapping resolver configuration type indices tasks after := by
  obtain ⟨⟨index, planned, rfl⟩, own⟩ := List.forall_mem_cons.mp mapping.own
  have extended := extends_runTask ran
  rcases runTask_cases ran with ⟨rfl, quiet⟩ | ⟨edit, applies, executed, asks, rfl⟩
  · refine ⟨own, mapping.unmarked, fun other member fresh => ?_⟩
    by_cases same : other = index
    · exact same ▸ quiet
    · exact mapping.quiet other member (by simpa [same] using fresh)
  obtain ⟨located, property, identifier, found, listed, annotated, rest⟩ :=
    WeavingContext.mapProperty_cases executed
  have still : WeavingContext.mapProperty (.ofModule state.module resolver configuration) type index
      ≠ .ok (TypeEdit.none type) := by
    intro nothing
    obtain rfl := Except.ok.inj (nothing.symm.trans executed)
    exact asks rfl
  rcases rest with rfl | mapped | ⟨identifier, host, getters, setters, hosts, absent, routed⟩
  · exact absurd (WeavingContext.mapProperty_of_none found listed annotated) still
  · exact absurd (WeavingContext.mapProperty_of_mapped found listed annotated mapped) still
  obtain rfl : edit.type = type := Task.type_of_execute executed
  have here : state.module.types[edit.type]? = some located.definition :=
    (WeavingContext.targetType_eq_ok.mp found).1
  obtain ⟨definition, there, injected, kept, unmarked⟩ := routed_apply here absent routed
  refine ⟨own, fun other member definition' property' stored declared => ?_,
    fun other member fresh => ?_⟩
  · obtain rfl := Option.some.inj (there.symm.trans stored)
    have properties := @Module.Extends.properties _ _ extended edit.type
    rw [here, there] at properties
    rw [← show located.definition.properties = definition.properties from Option.some.inj properties]
      at declared
    exact unmarked _ (mapping.unmarked other member located.definition property' here declared)
  · by_cases same : other = index
    · subst same
      intro _
      obtain ⟨type', found', types⟩ := extended.targetType found
      have there' := (WeavingContext.targetType_eq_ok.mp found').1
      obtain rfl := Option.some.inj (there.symm.trans there')
      rw [WeavingContext.persistentIdentifier_of_alike rfl types.header.symm] at annotated
      exact ⟨_, WeavingContext.mapProperty_of_mapped found' (types.propertyOf listed) annotated
        (.extends (extended.metadata resolver configuration) rfl types getters setters hosts injected
          rfl), rfl⟩
    · refine (mapping.quiet other member (by simpa [same] using fresh)).mappedProperty extended ?_
      intro before after' property' field stored stored' declared first
      obtain rfl := Option.some.inj (here.symm.trans stored)
      obtain rfl := Option.some.inj (there.symm.trans stored')
      exact kept _ field first (mapping.unmarked other member _ property' here declared field first)

/-- Once all tasks for mapped properties have run, none of them would change anything. -/
theorem quiet_of_mapped (unclaimed : ∀ definition, state.module.types[type]? = some definition →
      ∀ property ∈ definition.properties,
        TypeDef.mapsProperty configuration property = true →
        definition.field? (configuration.mappingFieldName property.name) = none)
    (found : state.module.types[type]? = some definition)
    (ran : ((definition.mappedProperties configuration).map (Task.mappedProperty type)).foldlM
      (WeavingState.runTask resolver configuration) state = .ok after) :
    ∀ index ∈ definition.mappedProperties configuration,
      (Task.mappedProperty type index).Quiet resolver configuration after.module := by
  have start : Mapping resolver configuration type (definition.mappedProperties configuration)
      ((definition.mappedProperties configuration).map (Task.mappedProperty type)) state := by
    refine ⟨fun task member => ?_, fun index member definition' property stored declared => ?_,
      fun index member fresh => absurd (List.mem_map_of_mem member) fresh⟩
    · obtain ⟨index, planned, rfl⟩ := List.mem_map.mp member
      exact ⟨index, planned, rfl⟩
    · obtain rfl := Option.some.inj (found.symm.trans stored)
      have maps : TypeDef.mapsProperty configuration property = true := by
        have quality := (List.mem_filter.mp member).2
        rwa [declared] at quality
      intro field first
      cases (unclaimed definition found property (List.mem_of_getElem? declared) maps).symm.trans
        first
  have done := Outcome.foldlM_invariant
    (Mapping resolver configuration type (definition.mappedProperties configuration))
    (fun _ _ _ _ mapping executed => mapping.runTask executed) start ran
  exact fun index member => done.quiet index member List.not_mem_nil

end WeavingState

end PropertyWeaver
