import PropertyWeaver.Proofs.Weaving.Templates
import PropertyWeaver.Weaving.Plan

/-!
# What tasks ask for

The edits of a task that succeeds, and what it has found on the way.
-/

set_option autoImplicit false

namespace PropertyWeaver.WeavingContext

variable {context : WeavingContext} {typeIndex propertyIndex : Nat} {type : LocatedType}
  {property : PropertyDef} {edit : TypeEdit}

theorem targetType_eq_ok :
    context.targetType typeIndex = .ok type ↔
      context.metadata.target.types[typeIndex]? = some type.definition ∧ type.scope = none := by
  obtain ⟨definition, scope⟩ := type
  simp only [targetType, orError_eq_ok, Metadata.targetType?, Option.map_eq_some_iff,
    LocatedType.mk.injEq]
  constructor
  · rintro ⟨_, found, rfl, rfl⟩
    exact ⟨found, rfl⟩
  · rintro ⟨found, rfl⟩
    exact ⟨definition, found, rfl, rfl⟩

theorem propertyOf_eq_ok :
    propertyOf type propertyIndex = .ok property ↔
      type.definition.properties[propertyIndex]? = some property := by
  simp [propertyOf]

/-- An accessor that may be replaced is one of the methods. -/
theorem checkAccessor_eq_ok {definition : TypeDef} {accessor : Accessor} {method : Nat} :
    checkAccessor definition property accessor method = .ok () ↔
      ∃ found, definition.methods[method]? = some found ∧ found.isSynthesized = true := by
  unfold checkAccessor
  cases definition.methods[method]? with
  | none => simp
  | some found => cases found.isSynthesized <;> simp

theorem checkAccessors_eq_ok {definition : TypeDef} {accessor : Accessor} {accessors : Option Nat} :
    accessors.toList.forM (checkAccessor definition property accessor) = .ok () ↔
      ∀ index ∈ accessors, checkAccessor definition property accessor index = .ok () := by
  rw [Outcome.forM_eq_ok]
  exact forall_congr' fun index => imp_congr_left Option.mem_toList

/-- A notifying setter replaces the setter of a property over its backing field. -/
theorem notifyChanges_eq_ok (notified : context.notifyChanges typeIndex propertyIndex = .ok edit) :
    edit = TypeEdit.none typeIndex ∨
      ∃ type property setter field body,
        context.targetType typeIndex = .ok type ∧
        propertyOf type propertyIndex = .ok property ∧
        property.setter = some setter ∧
        checkAccessor type.definition property .setter setter = .ok () ∧
        type.definition.backingField? property = some field ∧
        context.setter type property (.field field) = .ok body ∧
        edit = ⟨typeIndex, [.replaceBody setter body],
          some ⟨type.fullName, property.name, .changeNotification, "notify"⟩⟩ := by
  simp only [notifyChanges, Outcome.bind_eq_ok] at notified
  obtain ⟨type, located, property, listed, rest⟩ := notified
  cases accessor : property.setter with
  | none =>
      rw [accessor] at rest
      exact .inl (Except.ok.inj rest).symm
  | some setter =>
      rw [accessor] at rest
      simp only [Outcome.bind_eq_ok, orError_eq_ok, Outcome.pure_eq, Except.ok.injEq] at rest
      obtain ⟨_, checked, field, backing, body, made, rfl⟩ := rest
      exact .inr ⟨type, property, setter, field, body, located, listed, accessor, checked, backing,
        made, rfl⟩

/-! ## Mapped properties -/

theorem mappingParameter_eq_ok {mapping : LocatedType} {parameter : String} :
    mappingParameter mapping = .ok parameter ↔ mapping.definition.genericParameters = [parameter] := by
  unfold mappingParameter
  split
  · next only same => simp [same]
  · next other => simpa using other parameter

theorem mappingApi_eq_ok {mapping : LocatedType} {api : MappingApi} :
    context.mappingApi type property mapping = .ok api ↔
      ∃ parameter, mapping.definition.genericParameters = [parameter] ∧
        context.metadata.inheritedGenericMethod? type context.configuration.runtime.getValue
          [mapping.sig] = some api.getValue ∧
        context.metadata.inheritedGenericMethod? type context.configuration.runtime.setValue
          [mapping.sig, .typeParameter parameter] = some api.setValue := by
  obtain ⟨getValue, setValue⟩ := api
  simp only [mappingApi, Outcome.bind_eq_ok, orError_eq_ok, mappingParameter_eq_ok, Outcome.pure_eq,
    Except.ok.injEq, MappingApi.mk.injEq]
  constructor
  · rintro ⟨parameter, only, _, reads, _, writes, rfl, rfl⟩
    exact ⟨parameter, only, reads, writes⟩
  · rintro ⟨parameter, only, reads, writes⟩
    exact ⟨parameter, only, getValue, reads, setValue, writes, rfl, rfl⟩

/-- The default value of a property has literal code. -/
theorem defaultCode_eq_ok {default : Option (List Instruction)}
    (found : context.defaultCode type property = .ok default) :
    ∀ code ∈ default, ∃ constant : Constant, constant.push? = some code := by
  simp only [defaultCode, Outcome.bind_eq_ok] at found
  obtain ⟨value, _, rest⟩ := found
  cases value with
  | none =>
      obtain rfl := Except.ok.inj rest
      simp
  | some value =>
      simp only [Outcome.bind_eq_ok, orError_eq_ok, Outcome.pure_eq, Except.ok.injEq] at rest
      obtain ⟨code, pushes, rfl⟩ := rest
      intro code' same
      obtain rfl := Option.some.inj same
      exact ⟨value, pushes⟩

theorem constructorBlock_eq_ok {mapping : LocatedType} {identifier : String} {field : FieldRef}
    {code : List Instruction} {maxStack : UInt16}
    (built : context.constructorBlock type property mapping identifier field =
      .ok (code, maxStack)) :
    ∃ default parameter constructor,
      context.defaultCode type property = .ok default ∧
      mapping.definition.genericParameters = [parameter] ∧
      context.metadata.constructor? mapping
        (["System.String", "System.String"] ++ if default.isSome then [parameter] else []) =
          some constructor ∧
      code = [Opcode.ldarg0.plain, .pushString property.name, .pushString identifier] ++
        default.getD [] ++
        [⟨.newobj, .method (constructor.methodRef.bindTo field.fieldType)⟩,
         ⟨.stfld, .field field⟩] ∧
      maxStack = if default.isSome then 4 else 3 := by
  simp only [constructorBlock, Outcome.bind_eq_ok, orError_eq_ok, mappingParameter_eq_ok,
    Outcome.pure_eq, Except.ok.injEq, Prod.mk.injEq] at built
  obtain ⟨default, literal, parameter, only, constructor, found, rfl, rfl⟩ := built
  exact ⟨default, parameter, constructor, literal, only, found, rfl, rfl⟩

/-- The edits of a routed property: the field, the accessors that there are, the backing field if it
may go, and a prelude for every constructor. -/
theorem routeThrough_eq_ok {mapping : LocatedType} {identifier fieldName : String}
    {fieldType : TypeSig}
    (routed : context.routeThrough typeIndex type property mapping identifier fieldName fieldType =
      .ok edit) :
    ∃ api code maxStack setterEdits,
      context.mappingApi type property mapping = .ok api ∧
      context.constructorBlock type property mapping identifier ⟨type.sig, fieldName, fieldType⟩ =
        .ok (code, maxStack) ∧
      (∀ setterEdit ∈ setterEdits, ∃ setter body, property.setter = some setter ∧
        setterEdit = Edit.replaceBody setter body ∧
        context.setter type property (.mapping ⟨type.sig, fieldName, fieldType⟩
          (api.getValue.instantiate [property.propertyType])
          (api.setValue.instantiate [property.propertyType])) = .ok body) ∧
      setterEdits.length = property.setter.toList.length ∧
      edit =
        { type := typeIndex
          edits :=
            .addField ⟨fieldName, FieldFlag.privateAccess, fieldType, []⟩ ::
              property.getter.toList.map (fun getter => .replaceBody getter
                (mappedGetter ⟨type.sig, fieldName, fieldType⟩
                  (api.getValue.instantiate [property.propertyType]))) ++
              setterEdits ++
              (removableBackingField? type.definition property).toList.map .removeField ++
              type.definition.constructors.map fun constructor =>
                .prependToConstructor constructor code maxStack
          woven := some ⟨type.fullName, property.name, .mappedProperty, identifier⟩ } := by
  simp only [routeThrough, Outcome.bind_eq_ok, Outcome.pure_eq, Except.ok.injEq] at routed
  obtain ⟨api, found, setterEdits, setters, ⟨code, maxStack⟩, built, rfl⟩ := routed
  refine ⟨api, code, maxStack, setterEdits, found, built, ?_, ?_, rfl⟩
  all_goals
    cases accessor : property.setter with
    | none =>
        rw [accessor] at setters
        obtain rfl := Except.ok.inj setters
        simp
    | some setter =>
        rw [accessor] at setters
        simp only [Option.toList, List.mapM_cons, List.mapM_nil, Outcome.bind_eq_ok,
          Outcome.pure_eq, Except.ok.injEq] at setters
        obtain ⟨_, ⟨body, made, rfl⟩, _, rfl, rfl⟩ := setters
        simp [made]

/-- A property that is mapped has an identifier and accessors that may be replaced, and its mapping
field is not there yet. -/
theorem mapProperty_eq_ok (mapped : context.mapProperty typeIndex propertyIndex = .ok edit) :
    edit = TypeEdit.none typeIndex ∨
      ∃ type property identifier mapping,
        context.targetType typeIndex = .ok type ∧
        propertyOf type propertyIndex = .ok property ∧
        context.persistentIdentifier type.definition property = .ok (some identifier) ∧
        (∀ getter ∈ property.getter,
          checkAccessor type.definition property .getter getter = .ok ()) ∧
        (∀ setter ∈ property.setter,
          checkAccessor type.definition property .setter setter = .ok ()) ∧
        context.mappingType = .ok mapping ∧
        type.definition.field? (context.configuration.mappingFieldName property.name) = none ∧
        context.routeThrough typeIndex type property mapping identifier
          (context.configuration.mappingFieldName property.name)
          (.instantiated mapping.typeRef false [property.propertyType]) = .ok edit := by
  simp only [mapProperty, Outcome.bind_eq_ok] at mapped
  obtain ⟨type, located, property, listed, identifier, annotated, rest⟩ := mapped
  cases identifier with
  | none => exact .inl (Except.ok.inj rest).symm
  | some identifier =>
      simp only [Outcome.bind_eq_ok] at rest
      obtain ⟨_, getters, _, setters, mapping, found, rest⟩ := rest
      split at rest
      · next absent =>
        exact .inr ⟨type, property, identifier, mapping, located, listed, annotated,
          checkAccessors_eq_ok.mp getters, checkAccessors_eq_ok.mp setters, found, absent, rest⟩
      · split at rest
        · exact .inl (Except.ok.inj rest).symm
        · cases rest

/-! ## The query -/

/-- A query that is added returns one wrapper for each identifier along the chain. -/
theorem overrideQuery_eq_ok (overridden : context.overrideQuery typeIndex = .ok edit) :
    edit = TypeEdit.none typeIndex ∨
      ∃ type identifiers declaration wrapper constructor,
        context.targetType typeIndex = .ok type ∧
        (context.metadata.chain type).mapM
          (fun level => context.typeIdentifiers level.definition) = .ok identifiers ∧
        (context.metadata.chain type).tail.findSome?
          (queryDeclaration? context.configuration.runtime.typeQuery) = some declaration ∧
        context.identifierType = .ok wrapper ∧
        context.metadata.constructor? wrapper ["System.String"] = some constructor ∧
        edit =
          { type := typeIndex
            edits := [.addMethod
              { name := context.configuration.runtime.typeQuery
                flags := overrideFlags declaration.definition.flags
                returnType := declaration.definition.returnType.qualify declaration.owner.scope
                parameters := []
                genericParameters := []
                attributes := []
                body := some ⟨4,
                  [declaration.definition.returnType.qualify declaration.owner.scope], true,
                  queryCode wrapper.sig constructor.methodRef identifiers.flatten⟩ }]
            woven := some ⟨type.fullName, context.configuration.runtime.typeQuery,
              .typeHierarchy, Text.bracketed identifiers.flatten⟩ } := by
  simp only [overrideQuery, Outcome.bind_eq_ok] at overridden
  obtain ⟨type, located, own, _, rest⟩ := overridden
  split at rest
  · split at rest
    · exact .inl (Except.ok.inj rest).symm
    · cases rest
  · simp only [Outcome.bind_eq_ok, orError_eq_ok, Outcome.mapError_eq_ok, finish_queryAssembly,
      Outcome.pure_eq, Except.ok.injEq] at rest
    obtain ⟨identifiers, listed, declaration, declared, wrapper, wraps, constructor, constructs, _,
      rfl, rfl⟩ := rest
    exact .inr ⟨type, identifiers, declaration, wrapper, constructor, located, listed, declared,
      wraps, constructs, rfl⟩

end PropertyWeaver.WeavingContext

namespace PropertyWeaver

def Task.typeIndex : Task → Nat
  | .mappedProperty type _ | .changeNotification type _ | .typeHierarchy type => type

theorem Task.type_of_execute {context : WeavingContext} {task : Task} {edit : TypeEdit}
    (executed : task.execute context = .ok edit) : edit.type = task.typeIndex := by
  cases task with
  | mappedProperty type property =>
      rcases WeavingContext.mapProperty_eq_ok executed with rfl | ⟨_, _, _, _, _, _, _, _, _, _, _,
        routed⟩
      · rfl
      · obtain ⟨_, _, _, _, _, _, _, _, rfl⟩ := WeavingContext.routeThrough_eq_ok routed
        rfl
  | changeNotification type property =>
      rcases WeavingContext.notifyChanges_eq_ok executed with rfl | ⟨_, _, _, _, _, _, _, _, _, _, _,
        rfl⟩
      · rfl
      · rfl
  | typeHierarchy type =>
      rcases WeavingContext.overrideQuery_eq_ok executed with rfl | ⟨_, _, _, _, _, _, _, _, _, _,
        rfl⟩
      · rfl
      · rfl

theorem Module.typeIndex_of_mem_plan {configuration : Configuration} {module : Module}
    {typeIndex : Nat} {task : Task} (planned : task ∈ module.plan configuration typeIndex) :
    task.typeIndex = typeIndex := by
  unfold Module.plan at planned
  split at planned
  · cases planned
  · simp only [List.mem_append, List.mem_map] at planned
    obtain (⟨_, _, rfl⟩ | ⟨_, _, rfl⟩) | last := planned
    · rfl
    · rfl
    · split at last
      · obtain rfl := List.mem_singleton.mp last
        rfl
      · cases last

end PropertyWeaver
