import PropertyWeaver.Proofs.Weaving.FieldOperands

/-!
# The fields of a mapped type

While the properties of a type are mapped, its fields are the original ones, but for backing fields
that have gone, and behind them the mapping fields in the order of their properties. A mapping field
never goes, since it has no mark of a compiler, and what goes has been the backing field of a
property in the original type: a setter whose first store is not the original one stores a mapping
field.
-/

set_option autoImplicit false

namespace PropertyWeaver

variable {resolver : Resolver} {configuration : Configuration}

theorem exists_of_forall₂ {α β : Type} {relation : α → β → Prop} {left : List α} {right : List β}
    (related : List.Forall₂ relation left right) {item : β} (listed : item ∈ right) :
    ∃ item' ∈ left, relation item' item := by
  obtain ⟨index, found⟩ := List.mem_iff_getElem?.mp listed
  obtain ⟨item', found', here⟩ := exists_of_rel (rel_getElem? related.flip index) found
  exact ⟨item', List.mem_of_getElem? found', here⟩

/-- The mapping field of a property. -/
def Configuration.mappingField (configuration : Configuration) (mapping : TypeRef)
    (property : PropertyDef) : FieldDef :=
  ⟨configuration.mappingFieldName property.name, FieldFlag.privateAccess,
    .instantiated mapping false [property.propertyType], []⟩

private theorem TypeDef.persistentIdentifier_ne_none {context : WeavingContext} {type : TypeDef}
    {property : PropertyDef} (maps : mapsProperty context.configuration property = true) :
    context.persistentIdentifier type property ≠ .ok none := by
  obtain ⟨attr, listed, reads⟩ := List.any_eq_true.mp maps
  have named : attr.fullName = context.configuration.annotations.persistentIdentifier := by
    simp only [decide_eq_true_eq] at reads
    unfold Configuration.annotationKind? at reads
    split at reads
    · cases reads
    · split at reads
      · assumption
      · split at reads <;> cases reads
  unfold WeavingContext.persistentIdentifier
  cases found : findAttribute? property.attributes
      context.configuration.annotations.persistentIdentifier with
  | none =>
      have absent := List.find?_eq_none.mp found attr listed
      simp [named] at absent
  | some attr =>
      simp only [found]
      split <;> simp

namespace WeavingContext

/-- What the task for a mapped property finds if it routes the property. -/
structure Routes (context : WeavingContext) (typeIndex propertyIndex : Nat) (type : LocatedType)
    (property : PropertyDef) (mapping : LocatedType) (edit : TypeEdit) : Prop where
  located : context.targetType typeIndex = .ok type
  executed : context.mapProperty typeIndex propertyIndex = .ok edit
  accessors : property.accessors ≠ []
  getters : ∀ getter ∈ property.getter,
    checkAccessor type.definition property .getter getter = .ok ()
  setters : ∀ setter ∈ property.setter,
    checkAccessor type.definition property .setter setter = .ok ()
  hosts : context.mappingType = .ok mapping
  absent : type.definition.field? (context.configuration.mappingFieldName property.name) = none
  routed : ∃ identifier, context.routeThrough typeIndex type property mapping identifier
    (context.configuration.mappingFieldName property.name)
    (.instantiated mapping.typeRef false [property.propertyType]) = .ok edit

namespace Routes

variable {context : WeavingContext} {typeIndex propertyIndex : Nat} {type mapping : LocatedType}
  {property : PropertyDef} {edit : TypeEdit}
  (routes : context.Routes typeIndex propertyIndex type property mapping edit)

include routes

theorem type_eq : edit.type = typeIndex :=
  @Task.type_of_execute context (.mappedProperty typeIndex propertyIndex) edit routes.executed

theorem adds : ∀ change ∈ edit.edits, change.addedMethods = [] := by
  rcases @Task.addedMethods_of_execute context (.mappedProperty typeIndex propertyIndex) edit
    routes.executed with none | hierarchy
  · exact none
  · cases hierarchy

theorem plain : ∀ change ∈ edit.edits, change.Plain :=
  @Task.plain_of_execute context (.mappedProperty typeIndex propertyIndex) edit routes.executed

theorem writes {change : Edit} {index : Nat} (member : change ∈ edit.edits)
    (target : change.target? = some index) :
    (Task.mappedProperty typeIndex propertyIndex).Writes type.definition index :=
  @Task.writes_of_execute context (.mappedProperty typeIndex propertyIndex) edit type index
    routes.located routes.executed change member target

theorem accesses : ∀ change ∈ edit.edits, change.Brings (Instruction.Accesses
    (· = ⟨type.sig, context.configuration.mappingFieldName property.name,
      .instantiated mapping.typeRef false [property.propertyType]⟩)) := by
  obtain ⟨identifier, routed⟩ := routes.routed
  exact routeThrough_accesses routed

/-- Routing adds the mapping field and takes the backing field away if it may go. -/
theorem fields (before : List FieldDef) :
    edit.edits.foldl (fun fields edit => edit.changeFields fields) before =
      (before ++ [context.configuration.mappingField mapping.typeRef property]).filter fun field =>
        field.name ∉ removableBackingField? type.definition property := by
  obtain ⟨identifier, routed⟩ := routes.routed
  obtain ⟨api, code, maxStack, setterEdits, -, -, setters, -, rfl⟩ := routeThrough_eq_ok routed
  have still : ∀ (edits : List Edit) (fields : List FieldDef),
      (∀ change ∈ edits, ∀ fields, change.changeFields fields = fields) →
      edits.foldl (fun fields edit => edit.changeFields fields) fields = fields :=
    fun edits fields same => List.foldlRecOn edits (fun fields edit => edit.changeFields fields)
      (motive := fun next => next = fields) rfl
      fun _ hypothesis change member => (same change member _).trans hypothesis
  have replaced : ∀ change ∈ setterEdits, ∀ fields, change.changeFields fields = fields := by
    intro change member
    obtain ⟨_, _, _, rfl, _⟩ := setters change member
    exact fun _ => rfl
  rw [List.foldl_append, List.foldl_append, List.foldl_append, List.foldl_cons,
    still _ _ (List.forall_mem_map.mpr fun _ _ _ => rfl), still setterEdits _ replaced,
    still (property.getter.toList.map _) _ (List.forall_mem_map.mpr fun _ _ _ => rfl)]
  cases removableBackingField? type.definition property with
  | none => simp [Edit.changeFields, Configuration.mappingField]
  | some name =>
      simp only [Option.toList_some, List.map_cons, List.map_nil, List.foldl_cons, List.foldl_nil,
        Edit.changeFields, Option.mem_def, Option.some.injEq, eq_comm (a := name)]
      rfl

end Routes

theorem removableBackingField?_eq_some {type : TypeDef} {property : PropertyDef} {name : String} :
    removableBackingField? type property = some name ↔
      ∃ backing field, type.backingField? property = some backing ∧ backing.name = name ∧
        type.field? name = some field ∧ field.isCompilerGenerated = true ∧
        usesFieldElsewhere type property name = false := by
  simp only [removableBackingField?, Option.bind_eq_bind, Option.bind_eq_some_iff]
  constructor
  · rintro ⟨backing, found, field, there, rest⟩
    split at rest
    · next goes =>
      obtain rfl := Option.some.inj rest
      simp only [Bool.and_eq_true, Bool.not_eq_true'] at goes
      exact ⟨backing, field, found, rfl, there, goes⟩
    · cases rest
  · rintro ⟨backing, field, found, rfl, there, marked, unused⟩
    exact ⟨backing, found, field, there, by simp [marked, unused]⟩

variable {context : WeavingContext} {typeIndex propertyIndex : Nat} {type : LocatedType}
  {property : PropertyDef} {edit : TypeEdit}

theorem Routes.edits_ne_nil {mapping : LocatedType}
    (routes : context.Routes typeIndex propertyIndex type property mapping edit) : edit.edits ≠ [] := by
  obtain ⟨identifier, routed⟩ := routes.routed
  obtain ⟨⟨rest, added⟩, -⟩ := routeThrough_fields routed
  rw [added]
  exact List.cons_ne_nil _ _

private theorem mapped_or_routes (located : context.targetType typeIndex = .ok type)
    (listed : propertyOf type propertyIndex = .ok property) (accessors : property.accessors ≠ [])
    (maps : TypeDef.mapsProperty context.configuration property = true)
    (executed : context.mapProperty typeIndex propertyIndex = .ok edit) :
    (context.Mapped type property ∧ edit = TypeEdit.none typeIndex) ∨
      ∃ mapping, context.Routes typeIndex propertyIndex type property mapping edit := by
  obtain ⟨type', property', identifier, located', listed', annotated, rest⟩ :=
    mapProperty_cases executed
  obtain rfl := Except.ok.inj (located.symm.trans located')
  obtain rfl := Except.ok.inj (listed.symm.trans listed')
  rcases rest with rfl | mapped | ⟨identifier, mapping, getters, setters, hosts, absent, routed⟩
  · exact absurd annotated (TypeDef.persistentIdentifier_ne_none maps)
  · have nothing := mapProperty_of_mapped located listed annotated mapped
    exact .inl ⟨mapped, Except.ok.inj (executed.symm.trans nothing)⟩
  · exact .inr ⟨mapping, located, executed, accessors, getters, setters, hosts, absent, identifier,
      routed⟩

end WeavingContext

theorem PropertyDef.accessors_ne_nil {property : PropertyDef} :
    property.accessors ≠ [] ↔ (property.getter.isSome || property.setter.isSome) = true := by
  obtain ⟨name, propertyType, getter, setter, attributes⟩ := property
  cases getter <;> cases setter <;> simp [accessors]

namespace WeavingState

variable {type index : Nat} {state after : WeavingState} {definition : TypeDef} {property : PropertyDef}

/-- The task for a mapped property does nothing, or it routes the property. -/
theorem runTask_mappedProperty (found : state.module.types[type]? = some definition)
    (listed : definition.properties[index]? = some property)
    (maps : TypeDef.mapsProperty configuration property = true)
    (ran : runTask resolver configuration state (.mappedProperty type index) = .ok after) :
    (after = state ∧ (property.accessors ≠ [] →
      (WeavingContext.ofModule state.module resolver configuration).Mapped ⟨definition, none⟩
        property)) ∨
    ∃ mapping edit, (WeavingContext.ofModule state.module resolver configuration).Routes type index
      ⟨definition, none⟩ property mapping edit ∧ after = state.apply edit := by
  have located : (WeavingContext.ofModule state.module resolver configuration).targetType type =
      .ok ⟨definition, none⟩ := WeavingContext.targetType_eq_ok.mpr ⟨found, rfl⟩
  have declared : WeavingContext.propertyOf ⟨definition, none⟩ index = .ok property :=
    WeavingContext.propertyOf_eq_ok.mpr listed
  have applicable : (Task.mappedProperty type index).canExecute
      (.ofModule state.module resolver configuration) = true ↔ property.accessors ≠ [] := by
    change (state.module.types[type]?.bind _).any _ = true ↔ _
    rw [found, Option.bind_some, listed, Option.any_some, PropertyDef.accessors_ne_nil]
  rcases runTask_cases ran with ⟨rfl, quiet⟩ | ⟨edit, applies, executed, asks, rfl⟩
  · refine .inl ⟨rfl, fun accessors => ?_⟩
    obtain ⟨edit, executed, nothing⟩ := quiet (applicable.mpr accessors)
    rcases WeavingContext.mapped_or_routes located declared accessors maps executed with ⟨mapped, -⟩ |
      ⟨mapping, routes⟩
    · exact mapped
    · exact absurd nothing routes.edits_ne_nil
  · rcases WeavingContext.mapped_or_routes located declared (applicable.mp applies) maps executed with
      ⟨-, rfl⟩ | ⟨mapping, routes⟩
    · exact absurd rfl asks
    · exact .inr ⟨mapping, edit, routes, rfl⟩

theorem types_foldl (edits : List Edit) (found : state.module.types[type]? = some definition) :
    ∃ methods, (edits.foldl (applyEdit type) state).module.types[type]? =
        some { definition with
          fields := edits.foldl (fun fields edit => edit.changeFields fields) definition.fields
          methods := methods } ∧
      ((∀ edit ∈ edits, edit.addedMethods = []) →
        methods.map MethodDef.header = definition.methods.map MethodDef.header) := by
  induction edits generalizing state definition with
  | nil => exact ⟨definition.methods, found, fun _ => rfl⟩
  | cons edit edits hypothesis =>
      have changed : (applyEdit type state edit).module.types[type]? =
          some (edit.change (state.cursor type) definition) := by
        rw [types_applyEdit, List.getElem?_modify_eq, found]
        rfl
      obtain ⟨methods, there, headers⟩ := hypothesis changed
      refine ⟨methods, there, fun adds => ?_⟩
      obtain ⟨here, rest⟩ := List.forall_mem_cons.mp adds
      exact (headers rest).trans (Edit.headers_change here)

private theorem exists_methodState?_of_foldl {edits : List Edit} {slot : MethodState}
    (adds : ∀ edit ∈ edits, edit.addedMethods = [])
    (found : (edits.foldl (applyEdit type) state).methodState? type index = some slot) :
    ∃ old, state.methodState? type index = some old ∧ slot = old.after index edits := by
  induction edits generalizing state with
  | nil => exact ⟨slot, found, rfl⟩
  | cons edit edits hypothesis =>
      obtain ⟨here, rest⟩ := List.forall_mem_cons.mp adds
      obtain ⟨between, there, rfl⟩ := hypothesis rest found
      rcases methodState?_applyEdit_cases there with ⟨old, stored, rfl⟩ | rfl
      · exact ⟨old, stored, rfl⟩
      · cases here

end WeavingState

namespace MethodState

variable {fields : FieldRef → Prop} {holds : Instruction → Prop} {original : Option MethodBody}
  {slot : MethodState} {index : Nat}

private theorem Composed.after (composed : slot.Composed holds original)
    (stable : ∀ instruction shift, holds instruction → holds (instruction.mapTarget shift))
    {edits : List Edit} (brings : ∀ edit ∈ edits, edit.Brings holds) :
    (slot.after index edits).Composed holds original := by
  induction edits generalizing slot with
  | nil => exact composed
  | cons edit edits hypothesis =>
      obtain ⟨here, rest⟩ := List.forall_mem_cons.mp brings
      exact hypothesis (composed.advance stable here index) rest

/-- The first store of a body is one of the original body, or one that has been synthesized. -/
theorem Composed.firstStore? (composed : slot.Composed (Instruction.Accesses fields) original)
    {body : MethodBody} {member : FieldRef} (has : slot.method.body = some body)
    (stores : body.firstStore? = some member) :
    fields member ∨ ∃ before ∈ original, before.firstStore? = some member := by
  obtain ⟨synthesized, kept, split, each, rest⟩ := composed body has
  rw [MethodBody.firstStore?, split, List.find?_append] at stores
  cases first : synthesized.find? fun instruction => instruction.opcode = .stfld with
  | some store =>
      rw [first, Option.some_or, Option.bind_some] at stores
      exact .inl ((each store (List.mem_of_find?_eq_some first)).1 member stores)
  | none =>
      rw [first, Option.none_or] at stores
      rcases rest with rfl | ⟨-, before, original, shift, rfl⟩
      · cases stores
      · refine .inr ⟨before, original, ?_⟩
        rw [List.find?_map, Option.bind_map] at stores
        simpa [MethodBody.firstStore?, Function.comp_def] using stores

end MethodState

/-! ## The tasks for mapped properties -/

/-- The fields of a type without those of the given names, and further ones behind them. -/
def TypeDef.fieldsWith (type : TypeDef) (removed : List String) (added : List FieldDef) :
    List FieldDef :=
  (type.fields.filter fun field => field.name ∉ removed) ++ added

private theorem TypeDef.filter_fieldsWith {type : TypeDef} {removed : List String}
    {added : List FieldDef}
    {removable : Option String} (stays : ∀ field ∈ added, field.name ∉ removable) :
    ((type.fieldsWith removed added).filter fun field => field.name ∉ removable) =
      type.fieldsWith (removed ++ removable.toList) added := by
  have kept : (added.filter fun field => field.name ∉ removable) = added :=
    List.filter_eq_self.mpr fun field member => decide_eq_true (stays field member)
  rw [fieldsWith, List.filter_append, kept, List.filter_filter, fieldsWith]
  congr 1
  refine List.filter_congr fun field _ => ?_
  simp [Bool.and_comm]

/-- The field is the mapping field of a property of the type that has accessors. -/
def WeavingContext.Injects (context : WeavingContext) (type : TypeDef) (index : Nat)
    (field : FieldDef) : Prop :=
  ∃ property mapping, type.properties[index]? = some property ∧ property.accessors ≠ [] ∧
    context.mappingType = .ok mapping ∧
    field = context.configuration.mappingField mapping.typeRef property

private theorem WeavingContext.Injects.isCompilerGenerated {context : WeavingContext}
    {type : TypeDef} {index : Nat} {field : FieldDef} (injects : context.Injects type index field) :
    field.isCompilerGenerated = false := by
  obtain ⟨property, mapping, -, -, -, rfl⟩ := injects
  rfl

namespace WeavingState

/-- What holds between two tasks for the mapped properties of a type. Of the code it says that what has
been synthesized stores mapping fields only. -/
structure Injecting (resolver : Resolver) (configuration : Configuration) (module : Module)
    (original : TypeDef) (type : Nat) (removed : List String) (routed pending : List Nat)
    (injected : List FieldDef) (state : WeavingState) : Prop where
  extended : module.Extends state.module
  order : (routed ++ pending).Sublist (original.mappedProperties configuration)
  injects : List.Forall₂ ((WeavingContext.ofModule module resolver configuration).Injects original)
    routed injected
  sources : ∀ name ∈ removed, ∃ index ∈ original.mappedProperties configuration,
    ∃ property backing, original.properties[index]? = some property ∧
      original.backingField? property = some backing ∧ backing.name = name
  types : ∃ methods, state.module.types[type]? =
      some { original with fields := original.fieldsWith removed injected, methods := methods } ∧
    methods.map MethodDef.header = original.methods.map MethodDef.header
  first : ∀ field ∈ injected,
    ((original.fieldsWith removed injected).find? fun other => other.name = field.name) = some field
  code : ∀ index slot, state.methodState? type index = some slot →
    slot.Composed (Instruction.Accesses fun member => member.name ∈ injected.map FieldDef.name)
      (original.methods[index]?.bind (·.body))

variable {module : Module} {original definition : TypeDef} {type index : Nat} {removed : List String}
  {routed pending : List Nat} {injected : List FieldDef} {state : WeavingState} {property : PropertyDef}

section Injecting

variable (injecting : Injecting resolver configuration module original type removed routed
    (index :: pending) injected state)
  (found : state.module.types[type]? = some definition)

include injecting

theorem Injecting.skip :
    Injecting resolver configuration module original type removed routed pending injected state :=
  { injecting with
    order := ((List.sublist_cons_self index pending).append_left routed).trans injecting.order }

include found

private theorem Injecting.not_removable {name : String}
    (goes : WeavingContext.removableBackingField? definition property = some name) :
    name ∉ injected.map FieldDef.name := by
  intro member
  obtain ⟨field, listed, rfl⟩ := List.mem_map.mp member
  obtain ⟨methods, there, -⟩ := injecting.types
  obtain rfl := Option.some.inj (found.symm.trans there)
  obtain ⟨-, marked, -, -, first, generated, -⟩ :=
    WeavingContext.removableBackingField?_eq_some.mp goes
  obtain rfl := Option.some.inj (first.symm.trans (injecting.first field listed))
  obtain ⟨_, -, injects⟩ := exists_of_forall₂ injecting.injects listed
  rw [injects.isCompilerGenerated] at generated
  cases generated

/-- The backing field of a property is the original one, unless it is a mapping field. -/
theorem Injecting.backingField? {backing : FieldRef}
    (stores : definition.backingField? property = some backing)
    (other : backing.name ∉ injected.map FieldDef.name) :
    original.backingField? property = some backing := by
  obtain ⟨methods, there, headers⟩ := injecting.types
  obtain rfl := Option.some.inj (found.symm.trans there)
  obtain ⟨setter, method, body, accessor, listed, synthesized, has, first⟩ :=
    TypeDef.backingField?_eq_some.mp stores
  have stored : state.methodState? type setter = some ⟨method, state.cursors (type, setter)⟩ :=
    methodState?_eq_some.mpr ⟨methodAt?_eq_some.mpr ⟨_, found, listed⟩, rfl⟩
  rcases (injecting.code setter _ stored).firstStore? has first with mapping | ⟨before, old, first⟩
  · exact absurd mapping other
  · obtain ⟨method', listed', has'⟩ := Option.bind_eq_some_iff.mp old
    have header : method'.header = method.header := by
      obtain ⟨method'', listed'', header⟩ := MethodDef.exists_of_headers headers.symm listed
      obtain rfl := Option.some.inj (listed'.symm.trans listed'')
      exact header
    exact TypeDef.backingField?_eq_some.mpr ⟨setter, method', before, accessor, listed',
      (MethodDef.eq_of_header header MethodDef.isSynthesized fun _ => rfl).trans synthesized, has',
      first⟩

section Apply

variable {mapping : LocatedType} {edit : TypeEdit}
  (routes : (WeavingContext.ofModule state.module resolver configuration).Routes type index
    ⟨definition, none⟩ property mapping edit)

include routes

/-- What goes is no mapping field, be it an earlier one or that of the property itself. -/
private theorem Injecting.stays :
    ∀ field ∈ injected ++ [configuration.mappingField mapping.typeRef property],
      field.name ∉ WeavingContext.removableBackingField? definition property := by
  intro field member goes
  rcases List.mem_append.mp member with old | new
  · exact injecting.not_removable found goes (List.mem_map_of_mem old)
  · obtain rfl := List.mem_singleton.mp new
    obtain ⟨-, marked, -, -, first, -⟩ := WeavingContext.removableBackingField?_eq_some.mp goes
    cases routes.absent.symm.trans first

private theorem Injecting.types_apply :
    ∃ methods, (state.apply edit).module.types[type]? = some { original with
        fields := original.fieldsWith
          (removed ++ (WeavingContext.removableBackingField? definition property).toList)
          (injected ++ [configuration.mappingField mapping.typeRef property])
        methods := methods } ∧
      methods.map MethodDef.header = original.methods.map MethodDef.header := by
  have stays := injecting.stays found routes
  obtain ⟨methods, there, headers⟩ := injecting.types
  obtain rfl := Option.some.inj (found.symm.trans there)
  have own : edit.type = type := routes.type_eq
  subst own
  obtain ⟨methods', there', headers'⟩ := types_foldl edit.edits found
  refine ⟨methods', there'.trans ?_, (headers' routes.adds).trans headers⟩
  rw [routes.fields, ← TypeDef.filter_fieldsWith stays, TypeDef.fieldsWith, TypeDef.fieldsWith,
    List.append_assoc]
  rfl

omit found in
private theorem Injecting.injects_mappingField
    (listed : original.properties[index]? = some property) :
    (WeavingContext.ofModule module resolver configuration).Injects original index
      (configuration.mappingField mapping.typeRef property) := by
  have alike : (WeavingContext.ofModule state.module resolver configuration).metadata.Alike
      (WeavingContext.ofModule module resolver configuration).metadata :=
    ⟨injecting.extended.name, injecting.extended.headers, rfl, rfl⟩
  obtain ⟨host, hosts, same⟩ := WeavingContext.mappingType_of_alike alike rfl routes.hosts
  refine ⟨property, host, listed, routes.accessors, hosts, ?_⟩
  rw [LocatedType.eq_of_header same LocatedType.typeRef fun _ => rfl]
  rfl

/-- Each mapping field is still the first field of its name. -/
private theorem Injecting.first_apply :
    ∀ field ∈ injected ++ [configuration.mappingField mapping.typeRef property],
      ((original.fieldsWith
        (removed ++ (WeavingContext.removableBackingField? definition property).toList)
        (injected ++ [configuration.mappingField mapping.typeRef property])).find?
          fun other => other.name = field.name) = some field := by
  obtain ⟨methods, types, -⟩ := injecting.types_apply found routes
  have own : edit.type = type := routes.type_eq
  subst own
  obtain ⟨identifier, routed⟩ := routes.routed
  obtain ⟨definition', there, injects, kept, -⟩ := routed_apply found routes.absent routed
  have fields : definition'.fields = original.fieldsWith
      (removed ++ (WeavingContext.removableBackingField? definition property).toList)
      (injected ++ [configuration.mappingField mapping.typeRef property]) :=
    congrArg TypeDef.fields (Option.some.inj (there.symm.trans types))
  rw [← fields]
  intro field member
  rcases List.mem_append.mp member with old | added
  · obtain ⟨_, -, unmarked⟩ := exists_of_forall₂ injecting.injects old
    refine kept field.name field ?_ unmarked.isCompilerGenerated
    obtain ⟨methods, there, -⟩ := injecting.types
    rw [Option.some.inj (found.symm.trans there)]
    exact injecting.first field old
  · obtain rfl := List.mem_singleton.mp added
    exact injects

omit found in
private theorem Injecting.code_apply {position : Nat} {slot : MethodState}
    (stored : (state.apply edit).methodState? type position = some slot) :
    slot.Composed
      (Instruction.Accesses fun member =>
        member.name ∈ (injected ++ [configuration.mappingField mapping.typeRef property]).map
          FieldDef.name)
      (original.methods[position]?.bind (·.body)) := by
  have own : edit.type = type := routes.type_eq
  subst own
  obtain ⟨old, stored', rfl⟩ := exists_methodState?_of_foldl routes.adds stored
  refine ((injecting.code position old stored').mono fun instruction accesses =>
    accesses.mono fun member => ?_).after (fun instruction shift accesses => accesses.mapTarget shift)
    fun change member => Edit.Brings.mono (routes.accesses change member) fun instruction accesses =>
      accesses.mono fun member same => ?_
  · rw [List.map_append]
    exact List.mem_append_left _
  · rw [same, List.map_append]
    exact List.mem_append_right _ List.mem_cons_self

end Apply

/-- Routing the next property. -/
theorem Injecting.apply {mapping : LocatedType} {edit : TypeEdit}
    (listed : original.properties[index]? = some property)
    (routes : (WeavingContext.ofModule state.module resolver configuration).Routes type index
      ⟨definition, none⟩ property mapping edit) :
    ∃ names, Injecting resolver configuration module original type (removed ++ names)
      (routed ++ [index]) pending (injected ++ [configuration.mappingField mapping.typeRef property])
      (state.apply edit) := by
  refine ⟨(WeavingContext.removableBackingField? definition property).toList, {
    extended := injecting.extended.trans (extends_foldl routes.plain edit.type state)
    order := by simpa using injecting.order
    injects := List.rel_append injecting.injects
      (.cons (injecting.injects_mappingField routes listed) .nil)
    sources := fun name member => ?_
    types := injecting.types_apply found routes
    first := injecting.first_apply found routes
    code := fun _ _ stored => injecting.code_apply routes stored }⟩
  rcases List.mem_append.mp member with old | gone
  · exact injecting.sources name old
  · have goes := Option.mem_toList.mp gone
    obtain ⟨backing, -, stores, rfl, -⟩ := WeavingContext.removableBackingField?_eq_some.mp goes
    exact ⟨index, injecting.order.subset (by simp), property, backing, listed,
      injecting.backingField? found stores (injecting.not_removable found goes), rfl⟩

end Injecting

end WeavingState

theorem TypeDef.mem_mappedProperties {type : TypeDef} {index : Nat} :
    index ∈ type.mappedProperties configuration ↔
      ∃ property, type.properties[index]? = some property ∧
        mapsProperty configuration property = true := by
  simp only [mappedProperties, propertiesWhere, List.mem_filter, List.mem_range, Option.any_eq_true,
    and_iff_right_iff_imp]
  rintro ⟨property, listed, -⟩
  exact (List.getElem?_eq_some_iff.mp listed).1

namespace WeavingState

/-- What routing the next property keeps up, and passing it over as well, holds behind the tasks for the
mapped properties of a type. -/
theorem foldlM_mappedProperties {original : TypeDef} {type : Nat} {before after : WeavingState}
    (holds : List Nat → WeavingState → Prop)
    (there : ∀ pending state, holds pending state → pending ⊆ original.mappedProperties configuration ∧
      ∃ definition, state.module.types[type]? = some definition ∧
        definition.properties = original.properties)
    (skip : ∀ index pending state definition property, holds (index :: pending) state →
      state.module.types[type]? = some definition → original.properties[index]? = some property →
      (property.accessors ≠ [] → (WeavingContext.ofModule state.module resolver configuration).Mapped
        ⟨definition, none⟩ property) →
      holds pending state)
    (apply : ∀ index pending state definition property mapping edit, holds (index :: pending) state →
      state.module.types[type]? = some definition → original.properties[index]? = some property →
      (WeavingContext.ofModule state.module resolver configuration).Routes type index
        ⟨definition, none⟩ property mapping edit →
      holds pending (state.apply edit))
    (start : holds (original.mappedProperties configuration) before)
    (ran : ((original.mappedProperties configuration).map (Task.mappedProperty type)).foldlM
      (runTask resolver configuration) before = .ok after) : holds [] after := by
  rw [List.foldlM_map] at ran
  refine Outcome.foldlM_invariant holds ?_ start ran
  intro index pending state next held executed
  obtain ⟨waiting, definition, found, properties⟩ := there _ state held
  obtain ⟨property, listed, maps⟩ := TypeDef.mem_mappedProperties.mp (waiting List.mem_cons_self)
  rcases runTask_mappedProperty found (properties ▸ listed) maps executed with ⟨rfl, mapped⟩ |
    ⟨mapping, edit, routes, rfl⟩
  · exact skip index pending next definition property held found listed mapped
  · exact apply index pending state definition property mapping edit held found listed routes

theorem Injecting.there {module : Module} {original : TypeDef} {type : Nat} {removed : List String}
    {routed pending : List Nat} {injected : List FieldDef} {state : WeavingState}
    (injecting : Injecting resolver configuration module original type removed routed pending injected
      state) :
    pending ⊆ original.mappedProperties configuration ∧
      ∃ definition, state.module.types[type]? = some definition ∧
        definition.properties = original.properties := by
  obtain ⟨methods, found, -⟩ := injecting.types
  exact ⟨fun index member => injecting.order.subset (List.mem_append_right _ member), _, found, rfl⟩

end WeavingState

namespace Visit

variable {module woven : Module} {type : Nat} {original : TypeDef} {before after : WeavingState}
  (visit : Visit resolver configuration module woven type original before after)

include visit

theorem injecting : WeavingState.Injecting resolver configuration module original type [] []
    (original.mappedProperties configuration) [] before where
  extended := visit.earlier
  order := .refl _
  injects := .nil
  sources := by simp
  types := ⟨original.methods, by simpa [TypeDef.fieldsWith] using visit.found, rfl⟩
  first := by simp
  code := by
    intro index slot stored
    obtain ⟨method, cursor⟩ := slot
    obtain ⟨listed, same⟩ := WeavingState.methodState?_eq_some.mp stored
    obtain rfl : 0 = cursor := (visit.cursors index).symm.trans same
    obtain ⟨definition, found, listed⟩ := WeavingState.methodAt?_eq_some.mp listed
    obtain rfl := Option.some.inj (visit.found.symm.trans found)
    rw [listed]
    exact MethodState.composed_original _ method

/-- A visit maps properties, then it makes setters notify, and at last it overrides the query. -/
theorem phases : ∃ mapped notified removed routed injected,
    ((original.mappedProperties configuration).map (Task.mappedProperty type)).foldlM
        (WeavingState.runTask resolver configuration) before = .ok mapped ∧
      ((original.notifyingProperties configuration).map (Task.changeNotification type)).foldlM
        (WeavingState.runTask resolver configuration) mapped = .ok notified ∧
      (original.queryTasks configuration type).foldlM
        (WeavingState.runTask resolver configuration) notified = .ok after ∧
      WeavingState.Injecting resolver configuration module original type removed routed [] injected
        mapped := by
  obtain ⟨mapped, notified, first, second, last⟩ := WeavingState.phases_of_tasks visit.ran
  obtain ⟨removed, routed, injected, injecting⟩ := WeavingState.foldlM_mappedProperties
    (fun pending state => ∃ removed routed injected, WeavingState.Injecting resolver
      configuration module original type removed routed pending injected state)
    (fun _ _ ⟨_, _, _, injecting⟩ => injecting.there)
    (fun _ _ _ _ _ ⟨_, _, _, injecting⟩ _ _ _ => ⟨_, _, _, injecting.skip⟩)
    (fun _ _ _ _ _ _ _ ⟨_, _, _, injecting⟩ found listed routes => by
      obtain ⟨names, applied⟩ := injecting.apply found listed routes
      exact ⟨_, _, _, applied⟩)
    ⟨[], [], [], visit.injecting⟩ first
  exact ⟨mapped, notified, removed, routed, injected, first, second, last, injecting⟩

end Visit

end PropertyWeaver
