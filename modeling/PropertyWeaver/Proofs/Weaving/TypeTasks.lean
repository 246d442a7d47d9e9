import PropertyWeaver.Proofs.Metadata.Alike
import PropertyWeaver.Proofs.Weaving.Visit

/-!
# The tasks of a type

What weaving relies on, and that the tasks of a type keep its touched methods verified: the tasks for
properties leave the constructors room for the preludes behind theirs, and the query comes last.
-/

set_option autoImplicit false

namespace PropertyWeaver

open Verification

/-- What weaving relies on: constructors verify and are no accessors, the accessors of the planned
properties can be replaced, and the methods of the target and of the modules at hand have the shape
of their names. -/
structure Weavable (resolver : Resolver) (configuration : Configuration) (module : Module) :
    Prop where
  constructors : ∀ type ∈ module.types, ∀ method ∈ type.methods, method.isConstructor = true →
    method.verify = .ok ()
  accessors : ∀ type ∈ module.types, ∀ property ∈ type.properties, ∀ index ∈ property.accessors,
    ∀ method, type.methods[index]? = some method → method.isConstructor = false
  planned : ∀ type ∈ module.types,
    ∀ index ∈ type.mappedProperties configuration ++ type.notifyingProperties configuration,
    ∀ property, type.properties[index]? = some property → AccessorShape type property
  target : ∀ type ∈ module.types, ∀ method ∈ type.methods,
    RuntimeShape configuration.runtime method
  runtime : ∀ name other, resolver.find? name = some other → ∀ type ∈ other.types,
    ∀ method ∈ type.methods, RuntimeShape configuration.runtime method

/-- Every index of the woven code is a 64-bit word, as are those of all code that fits into memory. A
task puts seven instructions at most in front of a constructor, and a query takes five for each
identifier. -/
structure Addressable (resolver : Resolver) (configuration : Configuration) (module : Module) :
    Prop where
  constructors : ∀ (typeIndex : Nat) type, module.types[typeIndex]? = some type →
    ∀ method ∈ type.methods, method.isConstructor = true → ∀ body ∈ method.body,
    body.instructions.length + 7 * (module.plan configuration typeIndex).length < 2 ^ 64
  queries : ∀ (typeIndex : Nat) type, module.types[typeIndex]? = some type →
    5 * (WeavingContext.ofModule module resolver configuration).identifierCount ⟨type, none⟩ + 6 <
      2 ^ 64

private theorem Replaceable.of_headers {before after : TypeDef} {property : PropertyDef}
    (same : after.methods.map MethodDef.header = before.methods.map MethodDef.header)
    (replaceable : Replaceable before property) : Replaceable after property := by
  have static : ∀ {left right : MethodDef}, left.header = right.header →
      left.isStatic = right.isStatic := fun same => MethodDef.eq_of_header same _ fun _ => rfl
  have returns : ∀ {left right : MethodDef}, left.header = right.header →
      left.returnsValue = right.returnsValue :=
    fun same => MethodDef.eq_of_header same _ fun _ => rfl
  have parameters : ∀ {left right : MethodDef}, left.header = right.header →
      left.parameters = right.parameters := fun same => MethodDef.eq_of_header same _ fun _ => rfl
  exact {
    getter := by
      intro index accessor method found
      obtain ⟨method', found', same⟩ := MethodDef.exists_of_headers same.symm found
      rw [← static same, ← returns same]
      exact replaceable.getter index accessor method' found'
    setter := by
      intro index accessor method found
      obtain ⟨method', found', same⟩ := MethodDef.exists_of_headers same.symm found
      rw [← static same, ← returns same, ← parameters same]
      exact replaceable.setter index accessor method' found'
    ordinary := by
      intro index accessor method found
      obtain ⟨method', found', same⟩ := MethodDef.exists_of_headers same.symm found
      rw [← MethodDef.isConstructor_of_header same]
      exact replaceable.ordinary index accessor method' found' }

/-- Every method of a module has the shape of its name. -/
def Module.Shaped (module : Module) (names : RuntimeNames) : Prop :=
  ∀ type ∈ module.types, ∀ method ∈ type.methods, RuntimeShape names method

namespace WeavingState

variable {resolver : Resolver} {configuration : Configuration} {module : Module}
  {original type : TypeDef} {typeIndex propertyIndex : Nat} {state after : WeavingState}

private theorem Weavable.shaped (weavable : Weavable resolver configuration module)
    (target : state.module.Shaped configuration.runtime) :
    (WeavingContext.ofModule state.module resolver configuration).metadata.Shaped
      configuration.runtime := by
  intro definition declared method member
  rcases declared with inTarget | ⟨name, other, found, inOther⟩
  · exact target definition inTarget method member
  · exact weavable.runtime name other found definition inOther method member

private theorem Changed.targetType (changed : Changed original typeIndex state type) :
    (WeavingContext.ofModule state.module resolver configuration).targetType typeIndex =
      .ok ⟨type, none⟩ :=
  WeavingContext.targetType_eq_ok.mpr ⟨changed.here, rfl⟩

private theorem Elsewhere.shaped {before : WeavingState} {names : RuntimeNames}
    (elsewhere : Elsewhere typeIndex before after) (target : before.module.Shaped names)
    (here : ∀ type, after.module.types[typeIndex]? = some type →
      ∀ method ∈ type.methods, RuntimeShape names method) : after.module.Shaped names := by
  intro type member
  obtain ⟨index, inside, rfl⟩ := List.getElem_of_mem member
  have found := List.getElem?_eq_getElem inside
  by_cases own : index = typeIndex
  · exact here _ (own ▸ found)
  · rw [elsewhere.types index own] at found
    exact target _ (List.mem_of_getElem? found)

private theorem Prepared.shaped {names : RuntimeNames} {room : Nat → Nat}
    (prepared : Prepared original typeIndex room state type)
    (target : ∀ method ∈ original.methods, RuntimeShape names method) :
    ∀ method ∈ type.methods, RuntimeShape names method := by
  intro method member
  obtain ⟨index, found⟩ := List.mem_iff_getElem?.mp member
  obtain ⟨method', found', same⟩ := MethodDef.exists_of_headers prepared.headers.symm found
  exact (target method' (List.mem_of_getElem? found')).of_header same.symm

/-- A task for a property leaves room for one task less. -/
theorem Prepared.runTask {room : Nat} {task : Task}
    (prepared : Prepared original typeIndex (fun _ => 7 + room) state type)
    (shaped : (WeavingContext.ofModule state.module resolver configuration).metadata.Shaped
      configuration.runtime)
    (replaceable : ∀ property, original.properties[propertyIndex]? = some property →
      Replaceable original property)
    (own : task = .mappedProperty typeIndex propertyIndex ∨
      task = .changeNotification typeIndex propertyIndex)
    (ran : WeavingState.runTask resolver configuration state task = .ok after) :
    ∃ type', Prepared original typeIndex (fun _ => room) after type' := by
  have accessors : ∀ property, type.properties[propertyIndex]? = some property →
      Replaceable type property := by
    intro property found
    have properties : type.properties = original.properties :=
      TypeDef.eq_of_header prepared.header _ fun _ => rfl
    rw [properties] at found
    exact (replaceable property found).of_headers prepared.headers
  have located : (WeavingContext.ofModule state.module resolver configuration).targetType
      typeIndex = .ok ⟨type, none⟩ := prepared.toChanged.targetType
  rcases runTask_eq_ok ran with rfl | ⟨edit, executed, rfl⟩
  · exact ⟨type, prepared.mono fun _ => Nat.le_add_left ..⟩
  have sound : edit.Sound type := by
    rcases own with rfl | rfl
    · exact WeavingContext.mapProperty_sound shaped located accessors executed
    · exact WeavingContext.notifyChanges_sound shaped located accessors executed
  have same : edit.type = typeIndex := by
    rw [Task.type_of_execute executed]
    rcases own with rfl | rfl <;> rfl
  subst same
  exact (prepared.mono fun index => Nat.add_le_add_right (sound.growth index) room).apply
    sound.changes

/-- A task that replaces the accessors of a planned property. -/
def RoutesProperty (configuration : Configuration) (type : TypeDef) (typeIndex : Nat)
    (task : Task) : Prop :=
  ∃ propertyIndex ∈ type.mappedProperties configuration ++ type.notifyingProperties configuration,
    task = .mappedProperty typeIndex propertyIndex ∨
      task = .changeNotification typeIndex propertyIndex

private theorem Weavable.replaceable (weavable : Weavable resolver configuration module)
    (member : original ∈ module.types)
    (planned : propertyIndex ∈
      original.mappedProperties configuration ++ original.notifyingProperties configuration) :
    ∀ property, original.properties[propertyIndex]? = some property →
      Replaceable original property := by
  intro property found
  exact ⟨weavable.planned original member propertyIndex planned property found,
    weavable.accessors original member property (List.mem_of_getElem? found)⟩

/-- What holds between two tasks for properties: there is room for those that are left. -/
structure Routing (configuration : Configuration) (original : TypeDef) (typeIndex : Nat)
    (tasks : List Task) (state : WeavingState) : Prop where
  routes : ∀ task ∈ tasks, RoutesProperty configuration original typeIndex task
  shaped : state.module.Shaped configuration.runtime
  prepared : ∃ type, Prepared original typeIndex (fun _ => 7 * tasks.length) state type

private theorem Routing.runTask {task : Task} {rest : List Task}
    (weavable : Weavable resolver configuration module) (member : original ∈ module.types)
    (routing : Routing configuration original typeIndex (task :: rest) state)
    (executed : WeavingState.runTask resolver configuration state task = .ok after) :
    Routing configuration original typeIndex rest after := by
  obtain ⟨type, prepared⟩ := routing.prepared
  obtain ⟨⟨propertyIndex, planned, kind⟩, others⟩ := List.forall_mem_cons.mp routing.routes
  have room : ∀ index : Nat, 7 + 7 * rest.length ≤ 7 * (task :: rest).length := by
    intro index
    rw [List.length_cons]
    omega
  obtain ⟨type', prepared'⟩ := (prepared.mono room).runTask
    (Weavable.shaped weavable routing.shaped) (Weavable.replaceable weavable member planned) kind
    executed
  have own : task.typeIndex = typeIndex := by rcases kind with rfl | rfl <;> rfl
  refine ⟨others, ?_, type', prepared'⟩
  refine (own ▸ elsewhere_runTask executed).shaped routing.shaped fun found there => ?_
  obtain rfl := Option.some.inj (prepared'.here.symm.trans there)
  exact prepared'.shaped (weavable.target original member)

private theorem Changed.runHierarchy
    (changed : Changed original typeIndex state type)
    (shaped : (WeavingContext.ofModule state.module resolver configuration).metadata.Shaped
      configuration.runtime)
    (fits : 5 * (WeavingContext.ofModule state.module resolver configuration).identifierCount
      ⟨type, none⟩ + 6 < 2 ^ 64)
    (ran : WeavingState.runTask resolver configuration state (.typeHierarchy typeIndex) =
      .ok after) :
    ∃ type', Changed original typeIndex after type' ∧
      ∀ method ∈ type'.methods, method ∈ type.methods ∨
        RuntimeShape configuration.runtime method := by
  rcases runTask_eq_ok ran with rfl | ⟨edit, executed, rfl⟩
  · exact ⟨type, changed, fun _ member => .inl member⟩
  have sound := WeavingContext.overrideQuery_sound shaped changed.targetType fits executed
  have same : edit.type = typeIndex := Task.type_of_execute executed
  subst same
  obtain ⟨type', ⟨here, header, touched, untouched⟩, each⟩ := changed.foldl sound
  exact ⟨type', ⟨here, header, touched, untouched⟩, each⟩

private theorem identifierCount_of_headers (name : state.module.name = module.name)
    (headers : state.module.types.map TypeDef.header = module.types.map TypeDef.header)
    (same : type.header = original.header) :
    (WeavingContext.ofModule state.module resolver configuration).identifierCount ⟨type, none⟩ =
      (WeavingContext.ofModule module resolver configuration).identifierCount
        ⟨original, none⟩ := by
  have alike : (WeavingContext.ofModule state.module resolver configuration).metadata.Alike
      (WeavingContext.ofModule module resolver configuration).metadata :=
    ⟨name, headers, rfl, rfl⟩
  have located : (⟨type, none⟩ : LocatedType).header = LocatedType.header ⟨original, none⟩ := by
    simp [LocatedType.header, same]
  have chains := alike.chain located
  have listed : ∀ (context : WeavingContext) (type : LocatedType), context.identifierCount type =
      (((context.metadata.chain type).map LocatedType.header).flatMap fun level =>
        level.definition.attributesNamed
          context.configuration.annotations.typeIdentifiers).length := by
    intro context type
    rw [List.flatMap_map]
    rfl
  rw [listed, listed, chains]
  rfl

private theorem plan_split (found : module.types[typeIndex]? = some original) :
    ∃ routes query, module.plan configuration typeIndex = routes ++ query ∧
      (∀ task ∈ routes, RoutesProperty configuration original typeIndex task) ∧
      (query = [] ∨ query = [.typeHierarchy typeIndex]) := by
  simp only [Module.plan, found]
  refine ⟨_, _, rfl, fun task member => ?_, ?_⟩
  · rcases List.mem_append.mp member with mapped | notifying
    · obtain ⟨index, planned, rfl⟩ := List.mem_map.mp mapped
      exact ⟨index, List.mem_append_left _ planned, .inl rfl⟩
    · obtain ⟨index, planned, rfl⟩ := List.mem_map.mp notifying
      exact ⟨index, List.mem_append_right _ planned, .inr rfl⟩
  · split
    · exact .inr rfl
    · exact .inl rfl

def runPlan (resolver : Resolver) (configuration : Configuration) (module : Module)
    (state : WeavingState) (typeIndex : Nat) : Except WeaveError WeavingState :=
  (module.plan configuration typeIndex).foldlM (runTask resolver configuration)
    { state with touched := [] }

/-- All tasks of a type, one behind the other. -/
theorem Prepared.runPlan (weavable : Weavable resolver configuration module)
    (addressable : Addressable resolver configuration module)
    (found : module.types[typeIndex]? = some original)
    (prepared : Prepared original typeIndex
      (fun _ => 7 * (module.plan configuration typeIndex).length)
      { state with touched := [] } original)
    (target : state.module.Shaped configuration.runtime) (name : state.module.name = module.name)
    (headers : state.module.types.map TypeDef.header = module.types.map TypeDef.header)
    (ran : runPlan resolver configuration module state typeIndex = .ok after) :
    ∃ type, Changed original typeIndex after type ∧
      after.module.Shaped configuration.runtime := by
  have member := List.mem_of_getElem? found
  obtain ⟨routes, query, split, each, ends⟩ : ∃ routes query,
      module.plan configuration typeIndex = routes ++ query ∧ _ := plan_split found
  rw [WeavingState.runPlan, split, List.foldlM_append] at ran
  obtain ⟨between, first, rest⟩ := Outcome.bind_eq_ok.mp ran
  have room : ∀ index : Nat,
      7 * routes.length ≤ 7 * (module.plan configuration typeIndex).length := by
    intro index
    rw [split, List.length_append]
    omega
  have start : Routing configuration original typeIndex routes { state with touched := [] } :=
    ⟨each, target, original, prepared.mono room⟩
  have routed := Outcome.foldlM_invariant (Routing configuration original typeIndex)
    (fun _ _ _ _ routing executed => routing.runTask weavable member executed) start first
  obtain ⟨-, target', type, prepared'⟩ := routed
  rcases ends with rfl | rfl
  · obtain rfl := Except.ok.inj rest
    exact ⟨type, prepared'.toChanged, target'⟩
  · rw [List.foldlM_cons] at rest
    obtain ⟨_, last, done⟩ := Outcome.bind_eq_ok.mp rest
    obtain rfl := Except.ok.inj done
    have before := elsewhere_foldlM (fun task planned => Module.typeIndex_of_mem_plan
      (split ▸ List.mem_append_left _ planned)) first
    have fits := addressable.queries typeIndex original found
    rw [← identifierCount_of_headers (before.name.trans name) (before.headers.trans headers)
      prepared'.header] at fits
    obtain ⟨type', changed, each⟩ :=
      prepared'.toChanged.runHierarchy (Weavable.shaped weavable target') fits last
    refine ⟨type', changed, (elsewhere_runTask last).shaped target' fun found there => ?_⟩
    obtain rfl := Option.some.inj (changed.here.symm.trans there)
    intro method member'
    rcases each method member' with old | shape
    · exact prepared'.shaped (weavable.target original member) method old
    · exact shape

end WeavingState

end PropertyWeaver
