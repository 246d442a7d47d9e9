import Mathlib.Data.List.Nodup
import PropertyWeaver.Proofs.Weaving.PassFrame

/-!
# Every mapped property is routed

Each mapping field belongs to the first property of its name. If no method is an accessor twice and no
accessor is a constructor, then what routing makes of the accessors stays, because no later task writes
to them. A later property of the same name has to have the same type and finds its mapping field there.
-/

set_option autoImplicit false

namespace PropertyWeaver

variable {resolver : Resolver} {configuration : Configuration}

/-! ## The same lookups in the module before -/

private theorem LocatedMethod.Extends.instantiate {before after : LocatedMethod}
    (extended : before.Extends after) (arguments : List TypeSig) :
    after.instantiate arguments = before.instantiate arguments := by
  rw [LocatedMethod.instantiate, LocatedMethod.instantiate, extended.methodRef]

namespace WeavingContext

variable {before after : WeavingContext} {type type' : LocatedType} {property : PropertyDef}

private theorem mappingType_of_extends (extended : before.metadata.Extends after.metadata)
    (same : after.configuration = before.configuration) {mapping' : LocatedType}
    (found : after.mappingType = .ok mapping') :
    ∃ mapping, before.mappingType = .ok mapping ∧ mapping.Extends mapping' := by
  rw [mappingType, same] at found
  exact runtimeType_of_extends extended same found

section Members

variable (extended : before.metadata.Extends after.metadata)
  (same : after.configuration = before.configuration) (types : type.Extends type')

include extended same types

private theorem mappingApi_of_extends {mapping mapping' : LocatedType}
    (hosts : mapping.Extends mapping')
    {api' : MappingApi} (found : after.mappingApi type' property mapping' = .ok api') :
    ∃ api, before.mappingApi type property mapping = .ok api ∧
      api.getValue.Extends api'.getValue ∧ api.setValue.Extends api'.setValue := by
  obtain ⟨parameter, only, reads, writes⟩ := mappingApi_eq_ok.mp found
  have sig : mapping'.sig = mapping.sig :=
    LocatedType.eq_of_header hosts.header LocatedType.sig fun _ => rfl
  have parameters : mapping'.definition.genericParameters = mapping.definition.genericParameters :=
    LocatedType.eq_of_header hosts.header (fun type => type.definition.genericParameters) fun _ => rfl
  rw [same, sig] at reads writes
  obtain ⟨getValue, reads, getters⟩ :=
    exists_of_rel_right (extended.inheritedGenericMethod? types _ (by simp)) reads
  obtain ⟨setValue, writes, setters⟩ :=
    exists_of_rel_right (extended.inheritedGenericMethod? types _ (by simp)) writes
  exact ⟨⟨getValue, setValue⟩, mappingApi_eq_ok.mpr ⟨parameter, parameters ▸ only, reads, writes⟩,
    getters, setters⟩

private theorem setter_of_extends {source : ValueSource} {body : MethodBody}
    (made : after.setter type' property source = .ok body) :
    before.setter type property source = .ok body := by
  obtain ⟨equality, notify', compares, notifies, rfl⟩ := setter_eq_ok.mp made
  rw [same] at compares notifies
  obtain ⟨notify, found, methods⟩ := exists_of_rel_right
    (extended.inheritedMethod? types _ (List.cons_ne_nil "System.String" [])) notifies
  refine setter_eq_ok.mpr ⟨equality, notify, ?_, found, ?_⟩
  · rw [← extended.equality?, compares]
  · rw [methods.methodRef]

end Members

/-! ## Routed accessors -/

/-- The reference by which a type works on the mapping field of a property. -/
def mappingMember (context : WeavingContext) (type : TypeDef) (property : PropertyDef)
    (mapping : LocatedType) : FieldRef :=
  ⟨LocatedType.sig ⟨type, none⟩, context.configuration.mappingFieldName property.name,
    .instantiated mapping.typeRef false [property.propertyType]⟩

/-- The accessors of a property have become those over its mapping field. Of each only the code has
changed. -/
def Reroutes (context : WeavingContext) (type : TypeDef) (property : PropertyDef)
    (methods : Nat → Option MethodDef) : Prop :=
  ∃ mapping api, context.mappingType = .ok mapping ∧
    context.mappingApi ⟨type, none⟩ property mapping = .ok api ∧
    (∀ getter ∈ property.getter, ∃ method, type.methods[getter]? = some method ∧
      methods getter = some { method with
        body := some (mappedGetter (context.mappingMember type property mapping)
          (api.getValue.instantiate [property.propertyType])) }) ∧
    ∀ setter ∈ property.setter, ∃ method body, type.methods[setter]? = some method ∧
      context.setter ⟨type, none⟩ property
        (.mapping (context.mappingMember type property mapping)
          (api.getValue.instantiate [property.propertyType])
          (api.setValue.instantiate [property.propertyType])) = .ok body ∧
      methods setter = some { method with body := some body }

private theorem Reroutes.congr {context : WeavingContext} {type : TypeDef}
    {methods methods' : Nat → Option MethodDef} (reroutes : context.Reroutes type property methods)
    (same : ∀ index ∈ property.accessors, ∀ method, methods index = some method →
      methods' index = some method) : context.Reroutes type property methods' := by
  obtain ⟨mapping, api, hosts, found, getters, setters⟩ := reroutes
  refine ⟨mapping, api, hosts, found, fun getter accessor => ?_, fun setter accessor => ?_⟩
  · obtain ⟨method, listed, stored⟩ := getters getter accessor
    exact ⟨method, listed,
      same getter (List.mem_append_left _ (Option.mem_toList.mpr accessor)) _ stored⟩
  · obtain ⟨method, body, listed, made, stored⟩ := setters setter accessor
    exact ⟨method, body, listed, made,
      same setter (List.mem_append_right _ (Option.mem_toList.mpr accessor)) _ stored⟩

end WeavingContext

private theorem MethodState.method_after_replaceBody {slot : MethodState} {index : Nat}
    {body : MethodBody}
    {front back : List Edit} (others : ∀ change ∈ back, change.target? ≠ some index) :
    (slot.after index (front ++ .replaceBody index body :: back)).method =
      { slot.method with body := some body } := by
  have same : (slot.after index front).method.header = slot.method.header := header_after front
  rw [after_append, after_cons, after_eq_self fun change member =>
    Edit.advance_of_target? (others change member) _, Edit.advance, if_pos rfl]
  exact congrArg (fun method : MethodDef => { method with body := some body }) same

private theorem TypeDef.extends_of_headers {before after : TypeDef}
    (header : after.header = before.header)
    (methods : after.methods.map MethodDef.header = before.methods.map MethodDef.header) :
    before.Extends after :=
  ⟨header, [], by simp, by rw [methods, List.append_nil]⟩

namespace WeavingContext

variable {before after : WeavingContext} {type type' : TypeDef} {property : PropertyDef}
  {methods : Nat → Option MethodDef}

/-- Routed accessors do not depend on what has happened to the module since it was woven. -/
theorem Reroutes.of_extends (reroutes : after.Reroutes type' property methods)
    (extended : before.metadata.Extends after.metadata)
    (same : after.configuration = before.configuration) (header : type'.header = type.header)
    (headers : type'.methods.map MethodDef.header = type.methods.map MethodDef.header) :
    before.Reroutes type property methods := by
  have types : LocatedType.Extends ⟨type, none⟩ ⟨type', none⟩ :=
    ⟨TypeDef.extends_of_headers header headers, rfl⟩
  obtain ⟨mapping', api', hosts', found', getters, setters⟩ := reroutes
  obtain ⟨mapping, hosts, mappings⟩ := mappingType_of_extends extended same hosts'
  obtain ⟨api, found, reads, writes⟩ := mappingApi_of_extends extended same types mappings found'
  have member : after.mappingMember type' property mapping' =
      before.mappingMember type property mapping := by
    have sig : LocatedType.sig ⟨type', none⟩ = LocatedType.sig ⟨type, none⟩ :=
      LocatedType.eq_of_header types.header LocatedType.sig fun _ => rfl
    have host : mapping'.typeRef = mapping.typeRef :=
      LocatedType.eq_of_header mappings.header LocatedType.typeRef fun _ => rfl
    rw [mappingMember, mappingMember, sig, host, same]
  have renewed : ∀ (index : Nat) (method' : MethodDef), type'.methods[index]? = some method' →
      ∃ method, type.methods[index]? = some method ∧
        ∀ body, { method' with body := body } = { method with body := body } := by
    intro index method' listed
    obtain ⟨method, listed', same⟩ := MethodDef.exists_of_headers headers.symm listed
    exact ⟨method, listed', fun body =>
      congrArg (fun method : MethodDef => { method with body := body }) same.symm⟩
  refine ⟨mapping, api, hosts, found, fun getter accessor => ?_, fun setter accessor => ?_⟩
  · obtain ⟨method', listed, stored⟩ := getters getter accessor
    obtain ⟨method, listed', bodies⟩ := renewed getter method' listed
    refine ⟨method, listed', stored.trans ?_⟩
    rw [bodies, member, reads.instantiate]
  · obtain ⟨method', body, listed, made, stored⟩ := setters setter accessor
    obtain ⟨method, listed', bodies⟩ := renewed setter method' listed
    rw [member, reads.instantiate, writes.instantiate] at made
    exact ⟨method, body, listed', setter_of_extends extended same types made,
      stored.trans (by rw [bodies])⟩

/-- What a task for a mapped property does in the end is not about methods that are no constructors. -/
private theorem target?_ne_of_ordinary {accessor : Nat} (ordinary : accessor ∉ type.constructors)
    (removed : Option String) (code : List Instruction) (maxStack : UInt16) :
    ∀ change ∈ removed.toList.map Edit.removeField ++
        type.constructors.map (fun constructor => Edit.prependToConstructor constructor code maxStack),
      change.target? ≠ some accessor := by
  intro change listed target
  rcases List.mem_append.mp listed with removal | prelude
  · obtain ⟨_, -, rfl⟩ := List.mem_map.mp removal
    cases target
  · obtain ⟨constructor, constructs, rfl⟩ := List.mem_map.mp prelude
    obtain rfl := Option.some.inj target
    exact ordinary constructs

section Routes

variable {state : WeavingState} {typeIndex index : Nat} {mapping : LocatedType} {edit : TypeEdit}
  (routes : (ofModule state.module resolver configuration).Routes typeIndex index ⟨type, none⟩
    property mapping edit)

include routes

private theorem Routes.methodAt?_of_replaceBody {accessor : Nat} {body : MethodBody}
    {method : MethodDef} {front back : List Edit} (listed : type.methods[accessor]? = some method)
    (split : edit.edits = front ++ .replaceBody accessor body :: back)
    (others : ∀ change ∈ back, change.target? ≠ some accessor) :
    (state.apply edit).module.methodAt? typeIndex accessor =
      some { method with body := some body } := by
  have own : edit.type = typeIndex := routes.type_eq
  subst own
  have found : state.module.types[edit.type]? = some type := (targetType_eq_ok.mp routes.located).1
  have stored : state.methodState? edit.type accessor =
      some ⟨method, state.cursors (edit.type, accessor)⟩ :=
    WeavingState.methodState?_eq_some.mpr
      ⟨WeavingState.methodAt?_eq_some.mpr ⟨type, found, listed⟩, rfl⟩
  have applied := WeavingState.methodState?_apply stored
  rw [split] at applied
  have there := (WeavingState.methodState?_eq_some.mp applied).1
  rw [MethodState.method_after_replaceBody others] at there
  exact there

private theorem Routes.reroutes (apart : property.accessors.Nodup)
    (ordinary : ∀ index ∈ property.accessors, index ∉ type.constructors) :
    (ofModule state.module resolver configuration).Reroutes type property
      ((state.apply edit).module.methodAt? typeIndex) := by
  obtain ⟨identifier, routed⟩ := routes.routed
  obtain ⟨api, code, maxStack, setterEdits, apis, -, setters, count, edits⟩ :=
    routeThrough_eq_ok routed
  have split := congrArg TypeEdit.edits edits
  have preludes := fun accessor member => target?_ne_of_ordinary (ordinary accessor member)
    (removableBackingField? type property) code maxStack
  refine ⟨mapping, api, routes.hosts, apis, fun getter accessor => ?_, fun setter accessor => ?_⟩
  · have member : getter ∈ property.accessors :=
      List.mem_append_left _ (Option.mem_toList.mpr accessor)
    obtain ⟨method, listed, -⟩ := checkAccessor_eq_ok.mp (routes.getters getter accessor)
    simp only [Option.mem_def.mp accessor, Option.toList_some, List.map_cons, List.map_nil,
      List.cons_append, List.nil_append, List.append_assoc] at split
    refine ⟨method, listed, routes.methodAt?_of_replaceBody listed
      (split.trans (List.singleton_append ..).symm) ?_⟩
    intro change listed target
    rcases List.mem_append.mp listed with replaces | rest
    · obtain ⟨setter, _, writer, rfl, _⟩ := setters change replaces
      obtain rfl := Option.some.inj target
      exact List.disjoint_of_nodup_append apart (Option.mem_toList.mpr accessor)
        (Option.mem_toList.mpr writer)
    · exact preludes getter member change rest target
  · have member : setter ∈ property.accessors :=
      List.mem_append_right _ (Option.mem_toList.mpr accessor)
    obtain ⟨method, listed, -⟩ := checkAccessor_eq_ok.mp (routes.setters setter accessor)
    rw [Option.mem_def.mp accessor] at count
    obtain ⟨setterEdit, rfl⟩ := List.length_eq_one_iff.mp count
    obtain ⟨setter', body, accessor', rfl, made⟩ := setters setterEdit List.mem_cons_self
    obtain rfl := Option.some.inj (accessor.symm.trans accessor')
    rw [List.append_assoc, List.append_assoc, List.singleton_append] at split
    exact ⟨method, body, listed, made,
      routes.methodAt?_of_replaceBody listed split (preludes setter member)⟩

end Routes

end WeavingContext

/-! ## The tasks of a type -/

private theorem Configuration.mappingFieldName_inj {left right : String}
    (same : configuration.mappingFieldName left = configuration.mappingFieldName right) :
    left = right := by
  simpa [mappingFieldName] using same

/-- A property that is to be mapped and has accessors. -/
def PropertyDef.Mappable (configuration : Configuration) (property : PropertyDef) : Prop :=
  TypeDef.mapsProperty configuration property = true ∧ property.accessors ≠ []

/-- A type in which names of mapping fields are free, no method is an accessor twice, and no accessor is
a constructor. -/
structure TypeDef.Routable (configuration : Configuration) (type : TypeDef) : Prop where
  unclaimed : ∀ property ∈ type.properties, mapsProperty configuration property = true →
    type.field? (configuration.mappingFieldName property.name) = none
  distinct : (type.properties.flatMap PropertyDef.accessors).Nodup
  ordinary : ∀ property ∈ type.properties, ∀ index ∈ property.accessors,
    ∀ method, type.methods[index]? = some method → method.isConstructor = false

/-- A method is an accessor of no other property than the one at an index. -/
def TypeDef.ServesOnly (type : TypeDef) (accessor index : Nat) : Prop :=
  ∀ (other : Nat) (property : PropertyDef), type.properties[other]? = some property →
    accessor ∈ property.accessors → other = index

theorem TypeDef.ServesOnly.not_writes {type : TypeDef} {accessor index : Nat} {task : Task}
    (serves : type.ServesOnly accessor index) (ordinary : accessor ∉ type.constructors)
    (different : task.property? ≠ some index) : ¬ task.Writes type accessor := by
  rintro (⟨property, found, member⟩ | ⟨-, constructs⟩)
  · obtain ⟨other, about, listed⟩ := Option.bind_eq_some_iff.mp found
    exact different (about.trans (congrArg some (serves other property listed member)))
  · exact ordinary constructs

namespace TypeDef.Routable

variable {type : TypeDef} {index other : Nat} {property property' : PropertyDef}
  (routable : type.Routable configuration)

include routable

private theorem accessors_nodup (listed : type.properties[index]? = some property) :
    property.accessors.Nodup :=
  (List.nodup_flatMap.mp routable.distinct).1 property (List.mem_of_getElem? listed)

private theorem not_constructor (listed : type.properties[index]? = some property) :
    ∀ accessor ∈ property.accessors, accessor ∉ type.constructors := by
  intro accessor member constructs
  obtain ⟨method, found, constructs⟩ := WeavingContext.mem_constructors.mp constructs
  rw [routable.ordinary property (List.mem_of_getElem? listed) accessor member method found]
    at constructs
  cases constructs

private theorem accessors_disjoint (listed : type.properties[index]? = some property)
    (listed' : type.properties[other]? = some property') (different : index ≠ other) :
    property.accessors.Disjoint property'.accessors := by
  have pairwise := (List.nodup_flatMap.mp routable.distinct).2
  rw [List.pairwise_iff_getElem] at pairwise
  obtain ⟨inside, rfl⟩ := List.getElem?_eq_some_iff.mp listed
  obtain ⟨inside', rfl⟩ := List.getElem?_eq_some_iff.mp listed'
  rcases Nat.lt_or_gt_of_ne different with before | behind
  · exact pairwise index other inside inside' before
  · exact fun accessor left right => pairwise other index inside' inside behind right left

private theorem servesOnly (listed : type.properties[index]? = some property) {accessor : Nat}
    (member : accessor ∈ property.accessors) : type.ServesOnly accessor index := by
  intro other property' listed' member'
  by_contra different
  exact routable.accessors_disjoint listed listed' (Ne.symm different) member member'

/-- Only the tasks for a property write to its accessors. -/
theorem not_writes (listed : type.properties[index]? = some property) {accessor : Nat}
    (member : accessor ∈ property.accessors) {task : Task} (different : task.property? ≠ some index) :
    ¬ task.Writes type accessor :=
  (routable.servesOnly listed member).not_writes (routable.not_constructor listed accessor member)
    different

end TypeDef.Routable

/-- A mapped property is none of those to notify. -/
theorem TypeDef.not_maps_of_notifies {type : TypeDef} {index : Nat} {property : PropertyDef}
    (notifies : index ∈ type.notifyingProperties configuration)
    (listed : type.properties[index]? = some property) :
    mapsProperty configuration property = false := by
  have unmapped := (List.mem_filter.mp notifies).2
  rw [listed, Option.any_some, Bool.and_eq_true, Bool.not_eq_true'] at unmapped
  exact unmapped.1

namespace WeavingState

theorem Injecting.types_extend {module : Module} {original definition : TypeDef} {type : Nat}
    {removed : List String} {routed pending : List Nat} {injected : List FieldDef}
    {state : WeavingState}
    (injecting : Injecting resolver configuration module original type removed routed pending injected
      state) (found : state.module.types[type]? = some definition) :
    definition.header = original.header ∧
      definition.methods.map MethodDef.header = original.methods.map MethodDef.header := by
  obtain ⟨methods, there, headers⟩ := injecting.types
  obtain rfl := Option.some.inj (found.symm.trans there)
  exact ⟨rfl, headers⟩

/-- What holds between two tasks for mapped properties of such a type. A property that has not been
routed has the name and the type of an earlier one that has. -/
structure Rerouting (resolver : Resolver) (configuration : Configuration) (module : Module)
    (original : TypeDef) (type : Nat) (removed : List String) (routed pending : List Nat)
    (injected : List FieldDef) (state : WeavingState) : Prop
    extends Injecting resolver configuration module original type removed routed pending injected
      state where
  rerouted : ∀ index ∈ routed, ∀ property, original.properties[index]? = some property →
    (WeavingContext.ofModule module resolver configuration).Reroutes original property
      (state.module.methodAt? type)
  shared : ∀ index ∈ original.mappedProperties configuration, index ∉ pending → index ∉ routed →
    ∀ property, original.properties[index]? = some property → property.accessors ≠ [] →
      ∃ earlier ∈ routed, earlier < index ∧ ∃ other, original.properties[earlier]? = some other ∧
        other.name = property.name ∧ other.propertyType = property.propertyType

variable {module : Module} {original definition : TypeDef} {type index : Nat} {removed : List String}
  {routed pending : List Nat} {injected : List FieldDef} {state : WeavingState} {property : PropertyDef}

private theorem pairwise_mappedProperties (original : TypeDef) :
    (original.mappedProperties configuration).Pairwise (· < ·) :=
  List.Pairwise.filter _ List.pairwise_lt_range

/-- The properties that have been routed are declared before those that wait. -/
theorem Injecting.before_index
    (injecting : Injecting resolver configuration module original type removed routed
      (index :: pending) injected state) : ∀ earlier ∈ routed, earlier < index := by
  have pairwise := (pairwise_mappedProperties original).sublist injecting.order
  exact fun earlier member =>
    (List.pairwise_append.mp pairwise).2.2 earlier member index List.mem_cons_self

/-- Routing leaves the methods alone that its task does not write to. -/
theorem Injecting.methodAt?_apply {mapping : LocatedType} {edit : TypeEdit} {accessor : Nat}
    {method : MethodDef}
    (injecting : Injecting resolver configuration module original type removed routed pending injected
      state) (found : state.module.types[type]? = some definition)
    (routes : (WeavingContext.ofModule state.module resolver configuration).Routes type index
      ⟨definition, none⟩ property mapping edit)
    (stored : state.module.methodAt? type accessor = some method)
    (spared : ¬ (Task.mappedProperty type index).Writes original accessor) :
    (state.apply edit).module.methodAt? type accessor = some method := by
  obtain ⟨header, headers⟩ := injecting.types_extend found
  have own : edit.type = type := routes.type_eq
  subst own
  have inside : accessor < original.methods.length := by
    obtain ⟨definition', found', listed⟩ := methodAt?_eq_some.mp stored
    obtain rfl := Option.some.inj (found.symm.trans found')
    obtain ⟨method', listed', -⟩ := MethodDef.exists_of_headers headers.symm listed
    exact (List.getElem?_eq_some_iff.mp listed').1
  have there : state.methodState? edit.type accessor =
      some ⟨method, state.cursors (edit.type, accessor)⟩ := methodState?_eq_some.mpr ⟨stored, rfl⟩
  have kept := methodState?_apply there
  rw [MethodState.after_eq_self fun change member => Edit.advance_of_target? (fun target => spared
    ((routes.writes member target).of_extends (TypeDef.extends_of_headers header headers) inside)) _]
    at kept
  exact (methodState?_eq_some.mp kept).1

/-- The tasks behind those for mapped properties write to the accessors of the properties that are to
notify. -/
theorem Injecting.methodAt?_of_notifying {accessor : Nat} {method : MethodDef}
    {notified after : WeavingState}
    (injecting : Injecting resolver configuration module original type removed routed pending injected
      state)
    (spared : ∀ planned ∈ original.notifyingProperties configuration, ∀ property,
      original.properties[planned]? = some property → accessor ∉ property.accessors)
    (stored : state.module.methodAt? type accessor = some method)
    (second : ((original.notifyingProperties configuration).map (Task.changeNotification type)).foldlM
      (runTask resolver configuration) state = .ok notified)
    (last : (original.queryTasks configuration type).foldlM (runTask resolver configuration) notified =
      .ok after) :
    after.module.methodAt? type accessor = some method := by
  obtain ⟨definition, found, declared⟩ := methodAt?_eq_some.mp stored
  obtain ⟨header, headers⟩ := injecting.types_extend found
  obtain ⟨method', there, -⟩ := MethodDef.exists_of_headers headers.symm declared
  have ran : ((original.notifyingProperties configuration).map (Task.changeNotification type) ++
      original.queryTasks configuration type).foldlM (runTask resolver configuration) state =
        .ok after := by
    rw [List.foldlM_append, second]
    exact last
  have own : ∀ task ∈ (original.notifyingProperties configuration).map
      (Task.changeNotification type) ++ original.queryTasks configuration type,
      task.typeIndex = type := fun task planned => TypeDef.typeIndex_of_mem_tasks (by
    rw [TypeDef.tasks, List.append_assoc]
    exact List.mem_append_right _ planned)
  have there' : state.methodState? type accessor = some ⟨method, state.cursors (type, accessor)⟩ :=
    methodState?_eq_some.mpr ⟨stored, rfl⟩
  have kept := methodState?_foldlM found there' own
    (fun task planned writes => TypeDef.not_writes_of_notifying spared planned
      (writes.of_extends (TypeDef.extends_of_headers header headers)
        (List.getElem?_eq_some_iff.mp there).1)) ran
  exact (methodState?_eq_some.mp kept).1

section Rerouting

variable (routable : original.Routable configuration)
  (rerouting : Rerouting resolver configuration module original type removed routed (index :: pending)
    injected state)
  (found : state.module.types[type]? = some definition)
  (listed : original.properties[index]? = some property)

include rerouting routable found listed

/-- A mapping field that is there already belongs to an earlier property. -/
theorem Rerouting.skip (mapped : property.accessors ≠ [] →
      (WeavingContext.ofModule state.module resolver configuration).Mapped ⟨definition, none⟩
        property) :
    Rerouting resolver configuration module original type removed routed pending injected state := by
  refine { rerouting.toInjecting.skip with
    rerouted := rerouting.rerouted
    shared := fun other member waits unrouted property' listed' accessors => ?_ }
  by_cases here : other = index
  · subst here
    obtain rfl := Option.some.inj (listed.symm.trans listed')
    obtain ⟨mapping, field, -, first, typed⟩ := (mapped accessors).field
    obtain ⟨methods, there, -⟩ := rerouting.types
    obtain rfl := Option.some.inj (found.symm.trans there)
    have named := List.find?_some first
    rw [decide_eq_true_eq] at named
    rcases List.mem_append.mp (List.mem_of_find?_eq_some first) with old | new
    · obtain ⟨_, listed', maps⟩ := TypeDef.mem_mappedProperties.mp member
      obtain rfl := Option.some.inj (listed.symm.trans listed')
      have absent := List.find?_eq_none.mp
        (routable.unclaimed property (List.mem_of_getElem? listed) maps) field
        (List.mem_filter.mp old).1
      exact absurd (decide_eq_true named) absent
    · obtain ⟨earlier, before, property', mapping', listed', -, -, rfl⟩ :=
        exists_of_forall₂ rerouting.injects new
      obtain ⟨-, -, types⟩ := TypeSig.instantiated.inj typed
      exact ⟨earlier, before, rerouting.toInjecting.before_index earlier before, property', listed',
        configuration.mappingFieldName_inj named, List.head_eq_of_cons_eq types⟩
  · exact rerouting.shared other member (by simp [here, waits]) unrouted property' listed' accessors

private theorem Rerouting.apply {mapping : LocatedType} {edit : TypeEdit}
    (routes : (WeavingContext.ofModule state.module resolver configuration).Routes type index
      ⟨definition, none⟩ property mapping edit) :
    ∃ names, Rerouting resolver configuration module original type (removed ++ names)
      (routed ++ [index]) pending (injected ++ [configuration.mappingField mapping.typeRef property])
      (state.apply edit) := by
  obtain ⟨names, applied⟩ := rerouting.toInjecting.apply found listed routes
  refine ⟨names, { applied with
    rerouted := fun other member property' listed' => ?_
    shared := fun other member waits unrouted property' listed' accessors => ?_ }⟩
  · rcases List.mem_append.mp member with old | new
    · have different : (Task.mappedProperty type index).property? ≠ some other := by
        rintro same
        obtain rfl := Option.some.inj same
        exact Nat.lt_irrefl _ (rerouting.toInjecting.before_index index old)
      exact (rerouting.rerouted other old property' listed').congr fun accessor member method stored =>
        rerouting.methodAt?_apply found routes stored
          (routable.not_writes listed' member different)
    · obtain rfl := List.mem_singleton.mp new
      obtain rfl := Option.some.inj (listed.symm.trans listed')
      obtain ⟨header, headers⟩ := rerouting.types_extend found
      refine (routes.reroutes (routable.accessors_nodup listed) ?_).of_extends
        (rerouting.extended.metadata resolver configuration) rfl header headers
      rw [TypeDef.constructors_of_headers headers]
      exact routable.not_constructor listed
  · have elsewhere := not_or.mp (mt List.mem_append.mpr unrouted)
    have unequal : other ≠ index := fun same => elsewhere.2 (List.mem_singleton.mpr same)
    obtain ⟨earlier, before, rest⟩ := rerouting.shared other member (by simp [unequal, waits])
      elsewhere.1 property' listed' accessors
    exact ⟨earlier, List.mem_append_left _ before, rest⟩

end Rerouting

end WeavingState

namespace Visit

variable {module woven : Module} {type : Nat} {original : TypeDef} {before after : WeavingState}
  (visit : Visit resolver configuration module woven type original before after)

include visit

/-- A visit routes the first property of each name. -/
theorem rerouting (routable : original.Routable configuration) :
    ∃ removed routed injected, ∃ mapped notified : WeavingState,
      WeavingState.Rerouting resolver configuration module original type removed routed [] injected
        mapped ∧
      ((original.notifyingProperties configuration).map (Task.changeNotification type)).foldlM
        (WeavingState.runTask resolver configuration) mapped = .ok notified ∧
      (original.queryTasks configuration type).foldlM (WeavingState.runTask resolver configuration)
        notified = .ok after := by
  obtain ⟨mapped, notified, first, second, last⟩ := WeavingState.phases_of_tasks visit.ran
  have start : WeavingState.Rerouting resolver configuration module original type [] []
      (original.mappedProperties configuration) [] before :=
    { visit.injecting with
      rerouted := by simp
      shared := fun index member waits => absurd member waits }
  obtain ⟨removed, routed, injected, rerouting⟩ := WeavingState.foldlM_mappedProperties
    (fun pending state => ∃ removed routed injected, WeavingState.Rerouting resolver
      configuration module original type removed routed pending injected state)
    (fun _ _ ⟨_, _, _, rerouting⟩ => rerouting.there)
    (fun _ _ _ _ _ ⟨_, _, _, rerouting⟩ found listed mapped =>
      ⟨_, _, _, rerouting.skip routable found listed mapped⟩)
    (fun _ _ _ _ _ _ _ ⟨_, _, _, rerouting⟩ found listed routes => by
      obtain ⟨names, applied⟩ := rerouting.apply routable found listed routes
      exact ⟨_, _, _, applied⟩)
    ⟨[], [], [], start⟩ first
  exact ⟨removed, routed, injected, mapped, notified, rerouting, second, last⟩

end Visit

namespace WeavingState

variable {module : Module} {original definition : TypeDef} {type : Nat} {removed : List String}
  {routed : List Nat} {injected : List FieldDef} {state : WeavingState}
  (rerouting : Rerouting resolver configuration module original type removed routed [] injected state)

include rerouting

/-- At the end a property has been routed, or an earlier one of its name and type. -/
theorem Rerouting.owner {index : Nat} {property : PropertyDef}
    (listed : original.properties[index]? = some property)
    (mappable : property.Mappable configuration) :
    ∃ owner ∈ routed, ∃ other, original.properties[owner]? = some other ∧
      other.Mappable configuration ∧ other.name = property.name ∧
      other.propertyType = property.propertyType ∧ (owner = index ∨ owner < index) := by
  have mappable_ : ∀ owner ∈ routed, ∀ other, original.properties[owner]? = some other →
      other.Mappable configuration := by
    intro owner member other listed'
    obtain ⟨other', found, maps⟩ := TypeDef.mem_mappedProperties.mp
      (rerouting.order.subset (List.mem_append_left _ member))
    obtain rfl := Option.some.inj (listed'.symm.trans found)
    obtain ⟨_, -, other', _, found, accessors, -⟩ := exists_of_forall₂ rerouting.injects.flip member
    obtain rfl := Option.some.inj (listed'.symm.trans found)
    exact ⟨maps, accessors⟩
  by_cases member : index ∈ routed
  · exact ⟨index, member, property, listed, mappable, rfl, rfl, .inl rfl⟩
  · have maps := TypeDef.mem_mappedProperties.mpr ⟨property, listed, mappable.1⟩
    obtain ⟨earlier, before, less, other, found, name, type⟩ :=
      rerouting.shared index maps List.not_mem_nil member property listed mappable.2
    exact ⟨earlier, before, other, found, mappable_ earlier before other found, name, type, .inr less⟩

private theorem Rerouting.field {index : Nat} {property : PropertyDef}
    (listed : original.properties[index]? = some property)
    (mappable : property.Mappable configuration) :
    ∃ mapping, (WeavingContext.ofModule module resolver configuration).mappingType = .ok mapping ∧
      (original.fieldsWith removed injected).find?
          (fun field => field.name = configuration.mappingFieldName property.name) =
        some (configuration.mappingField mapping.typeRef property) := by
  obtain ⟨owner, member, other, found, -, name, type, -⟩ := rerouting.owner listed mappable
  obtain ⟨field, injected, other', mapping, found', -, hosts, rfl⟩ :=
    exists_of_forall₂ rerouting.injects.flip member
  obtain rfl := Option.some.inj (found.symm.trans found')
  have first := rerouting.first _ injected
  simp only [Configuration.mappingField, name, type] at first
  exact ⟨mapping, hosts, first⟩

private theorem Rerouting.kept (routable : original.Routable configuration) {index accessor : Nat}
    {property : PropertyDef} {method : MethodDef} {notified after : WeavingState}
    (listed : original.properties[index]? = some property)
    (maps : TypeDef.mapsProperty configuration property = true)
    (member : accessor ∈ property.accessors)
    (stored : state.module.methodAt? type accessor = some method)
    (second : ((original.notifyingProperties configuration).map (Task.changeNotification type)).foldlM
      (runTask resolver configuration) state = .ok notified)
    (last : (original.queryTasks configuration type).foldlM (runTask resolver configuration) notified =
      .ok after) :
    after.module.methodAt? type accessor = some method :=
  rerouting.methodAt?_of_notifying (fun other notifies property' listed' serves => by
    obtain rfl := routable.servesOnly listed member other property' listed' serves
    have unmapped := TypeDef.not_maps_of_notifies notifies listed
    rw [maps] at unmapped
    cases unmapped) stored second last

end WeavingState

namespace Module

variable {module woven : Module} {report : WeaveReport} {typeIndex : Nat} {type : TypeDef}

/-- Weaving gives every mapped property its mapping field, and routes the accessors of the first
property of each name through it. Properties of one name and different types are refused. -/
theorem weave_reroutes (fresh : module.isInstrumented = false)
    (weaves : module.weave resolver configuration = .ok (woven, report))
    (found : module.types[typeIndex]? = some type) (routable : type.Routable configuration) :
    ∃ type', woven.types[typeIndex]? = some type' ∧
      (∀ property ∈ type.properties, property.Mappable configuration →
        ∃ mapping, (WeavingContext.ofModule module resolver configuration).mappingType = .ok mapping ∧
          type'.field? (configuration.mappingFieldName property.name) =
            some (configuration.mappingField mapping.typeRef property)) ∧
      (∀ (index : Nat) (property : PropertyDef), type.properties[index]? = some property →
        property.Mappable configuration →
        (∀ (earlier : Nat) (other : PropertyDef), earlier < index →
          type.properties[earlier]? = some other → other.Mappable configuration →
          other.name ≠ property.name) →
        (WeavingContext.ofModule module resolver configuration).Reroutes type property
          (woven.methodAt? typeIndex)) ∧
      ∀ property ∈ type.properties, ∀ other ∈ type.properties, property.Mappable configuration →
        other.Mappable configuration → other.name = property.name →
        other.propertyType = property.propertyType := by
  obtain ⟨before, after, visit⟩ := exists_visit fresh weaves found
  obtain ⟨removed, routed, injected, mapped, notified, rerouting, second, last⟩ :=
    visit.rerouting routable
  obtain ⟨methods, there, headers⟩ := rerouting.types
  obtain ⟨methods', there', -⟩ := WeavingState.types_notifying there second
  obtain ⟨added, there'', -⟩ := WeavingState.types_queryTasks there' last
  have fields : ∀ property ∈ type.properties, property.Mappable configuration →
      ∃ mapping, (WeavingContext.ofModule module resolver configuration).mappingType = .ok mapping ∧
        (type.fieldsWith removed injected).find?
            (fun field => field.name = configuration.mappingFieldName property.name) =
          some (configuration.mappingField mapping.typeRef property) := by
    intro property member mappable
    obtain ⟨index, listed⟩ := List.mem_iff_getElem?.mp member
    exact rerouting.field listed mappable
  refine ⟨_, visit.stays.trans there'', fields, ?_, ?_⟩
  · intro index property listed mappable first
    obtain ⟨owner, member, other, listed', mappable', name, -, rfl | less⟩ :=
      rerouting.owner listed mappable
    · refine (rerouting.rerouted owner member property listed).congr
        fun accessor belongs method stored => visit.methodAt?.trans ?_
      exact rerouting.kept routable listed mappable.1 belongs stored second last
    · exact absurd name (first owner other less listed' mappable')
  · intro property member other member' mappable mappable' name
    obtain ⟨mapping, -, first⟩ := fields property member mappable
    obtain ⟨mapping', -, first'⟩ := fields other member' mappable'
    rw [name, first] at first'
    have typed := congrArg FieldDef.fieldType (Option.some.inj first')
    obtain ⟨-, -, types⟩ := TypeSig.instantiated.inj typed
    exact (List.head_eq_of_cons_eq types).symm

theorem weave_reroutes_sampleModule :
    sampleCounter.Routable {} ∧
      ∃ woven report, sampleModule.weave sampleResolver {} = .ok (woven, report) ∧
        (WeavingContext.ofModule sampleModule sampleResolver {}).Reroutes sampleCounter sampleCount
          (woven.methodAt? 0) := by
  have routable : sampleCounter.Routable {} :=
    ⟨by decide, by decide, weavable_sampleModule.accessors sampleCounter List.mem_cons_self⟩
  have weaves : (sampleModule.weave sampleResolver {}).isOk = true := by decide +kernel
  obtain ⟨⟨woven, report⟩, outcome⟩ := Outcome.exists_of_isOk weaves
  have found : sampleModule.types[0]? = some sampleCounter := rfl
  obtain ⟨-, -, -, reroutes, -⟩ := weave_reroutes (by decide) outcome found routable
  exact ⟨routable, woven, report, outcome,
    reroutes 0 sampleCount rfl ⟨by decide, by decide⟩ fun earlier _ before => absurd before (by omega)⟩

/-! Two properties of one name and type share a mapping field, and the accessor of the second one
stays as it is. A method that is getter and setter of one property ends up as the setter. -/

def twinModule : Module :=
  sample "App" [{ sampleCounter with
    methods :=
      [{ sampleMethod "get_Count" (.builtin .int32) [] none with
          flags := MethodFlag.compilerControlled },
       { sampleMethod "get_Size" (.builtin .int32) [] none with
          flags := MethodFlag.compilerControlled },
       sampleMethod MethodDef.constructorName (.builtin .void) []
        (some (.ofCode 0 [Opcode.ret.plain]))]
    properties :=
      [{ sampleCount with setter := none }, { sampleCount with getter := some 1, setter := none }] }]

def doubledModule : Module :=
  sample "App" [{ sampleCounter with
    methods :=
      [{ sampleMethod "set_Count" (.builtin .void) [.builtin .int32] none with
          flags := MethodFlag.compilerControlled },
       sampleMethod MethodDef.constructorName (.builtin .void) []
        (some (.ofCode 0 [Opcode.ret.plain]))]
    properties := [{ sampleCount with getter := some 0, setter := some 0 }] }]

/-- Names of mapping fields are free, no method is an accessor of two properties, no accessor is a
constructor, and yet a getter is not routed. -/
def PassesOverGetter (module : Module) : Prop :=
  module.isInstrumented = false ∧
    (∀ type ∈ module.types, ∀ property ∈ type.properties,
      type.field? (({} : Configuration).mappingFieldName property.name) = none) ∧
    (∀ type ∈ module.types, type.properties.Pairwise fun property other =>
      ∀ index ∈ property.accessors, index ∉ other.accessors) ∧
    (∀ type ∈ module.types, ∀ property ∈ type.properties, ∀ index ∈ property.accessors,
      ∀ method ∈ type.methods[index]?, method.isConstructor = false) ∧
    ∃ woven report type property getter, module.weave sampleResolver {} = .ok (woven, report) ∧
      module.types[0]? = some type ∧ property ∈ type.properties ∧ property.Mappable {} ∧
      property.getter = some getter ∧ ∀ field getValue,
        (woven.methodAt? 0 getter).bind (·.body) ≠ some (WeavingContext.mappedGetter field getValue)

theorem weave_passes_over_getter : twinModule.PassesOverGetter ∧ doubledModule.PassesOverGetter := by
  have other : ∀ {body : Option MethodBody} {length : Option Nat},
      body.map (·.instructions.length) = length → length ≠ some 5 →
      ∀ field getValue, body ≠ some (WeavingContext.mappedGetter field getValue) := by
    rintro body length rfl different field getValue rfl
    exact different rfl
  have twin : (twinModule.weave sampleResolver {}).toOption.map (fun result =>
      ((result.1.methodAt? 0 1).bind (·.body)).map (·.instructions.length)) = some none := by
    decide +kernel
  have doubled : (doubledModule.weave sampleResolver {}).toOption.map (fun result =>
      ((result.1.methodAt? 0 0).bind (·.body)).map (·.instructions.length)) = some (some 19) := by
    decide +kernel
  constructor
  · obtain ⟨⟨woven, report⟩, weaves, computed⟩ := Option.map_eq_some_iff.mp twin
    refine ⟨by decide, by decide, by decide, by decide, woven, report, _, _, 1,
      Outcome.toOption_eq_some.mp weaves, rfl, List.mem_cons_of_mem _ List.mem_cons_self,
      ⟨by decide, by decide⟩, rfl, ?_⟩
    exact other computed nofun
  · obtain ⟨⟨woven, report⟩, weaves, computed⟩ := Option.map_eq_some_iff.mp doubled
    refine ⟨by decide, by decide, by decide, by decide, woven, report, _, _, 0,
      Outcome.toOption_eq_some.mp weaves, rfl, List.mem_cons_self, ⟨by decide, by decide⟩, rfl, ?_⟩
    exact other computed (by decide)

end Module

end PropertyWeaver
