import PropertyWeaver.Proofs.Weaving.Extension

/-!
# What a task depends on

A task reads its own type, the chain above it, how values are compared, and what the runtime module
declares. Two contexts that agree in these let it ask for the same edits, wherever its type stands.
-/

set_option autoImplicit false

namespace PropertyWeaver

def Task.moved (index : Nat) : Task → Task
  | .mappedProperty _ property => .mappedProperty index property
  | .changeNotification _ property => .changeNotification index property
  | .typeHierarchy _ => .typeHierarchy index

@[simp] theorem Task.moved_typeIndex (task : Task) : task.moved task.typeIndex = task := by
  cases task <;> rfl

def TypeEdit.moved (index : Nat) (edit : TypeEdit) : TypeEdit := { edit with type := index }

namespace WeavingContext

/-- A type in two contexts: its header is the same, and so are references to its constructors. -/
structure Offers (context context' : WeavingContext) (host host' : LocatedType) : Prop where
  header : host'.header = host.header
  constructors : ∀ parameters ≠ [],
    (context'.metadata.constructor? host' parameters).map LocatedMethod.methodRef =
      (context.metadata.constructor? host parameters).map LocatedMethod.methodRef

private theorem Offers.exists_constructor {context context' : WeavingContext}
    {host host' : LocatedType}
    (offers : context.Offers context' host host') {parameters : List String} (some : parameters ≠ [])
    {constructor : LocatedMethod}
    (found : context.metadata.constructor? host parameters = .some constructor) :
    ∃ constructor', context'.metadata.constructor? host' parameters = .some constructor' ∧
      constructor'.methodRef = constructor.methodRef := by
  have same := offers.constructors parameters some
  rw [found, Option.map_some] at same
  exact Option.map_eq_some_iff.mp same

/-- One context has at one index what another one has at another index. -/
structure Mirrors (context context' : WeavingContext) (index index' : Nat) : Prop where
  configuration : context'.configuration = context.configuration
  own : context'.metadata.target.types[index']? = context.metadata.target.types[index]?
  chain : ∀ definition, context.metadata.target.types[index]? = some definition →
    context'.metadata.chain ⟨definition, none⟩ = context.metadata.chain ⟨definition, none⟩
  equality? : ∀ type equals rootObject,
    context'.metadata.equality? type equals rootObject =
      context.metadata.equality? type equals rootObject
  runtimeType : ∀ fullName host, context.runtimeType fullName = .ok host →
    ∃ host', context'.runtimeType fullName = .ok host' ∧ context.Offers context' host host'

namespace Mirrors

variable {context context' : WeavingContext} {index index' propertyIndex : Nat} {type : LocatedType}
  {edit : TypeEdit} (mirrors : context.Mirrors context' index index')

include mirrors

private theorem targetType (located : context.targetType index = .ok type) :
    context'.targetType index' = .ok type := by
  rw [targetType_eq_ok] at located ⊢
  rwa [mirrors.own]

private theorem chain_of_located (located : context.targetType index = .ok type) :
    context'.metadata.chain type = context.metadata.chain type := by
  obtain ⟨definition, scope⟩ := type
  obtain ⟨found, rfl⟩ := targetType_eq_ok.mp located
  exact mirrors.chain definition found

private theorem setter (located : context.targetType index = .ok type) (property : PropertyDef)
    (source : ValueSource) :
    context'.setter type property source = context.setter type property source := by
  simp only [WeavingContext.setter, Metadata.inheritedMethod?, Metadata.findMethod?,
    mirrors.configuration, mirrors.equality?, mirrors.chain_of_located located]

private theorem notifyChanges (executed : context.notifyChanges index propertyIndex = .ok edit) :
    context'.notifyChanges index' propertyIndex = .ok (edit.moved index') := by
  simp only [WeavingContext.notifyChanges, Outcome.bind_eq_ok] at executed ⊢
  obtain ⟨type, located, property, listed, rest⟩ := executed
  refine ⟨type, mirrors.targetType located, property, listed, ?_⟩
  cases accessor : property.setter with
  | none =>
      rw [accessor] at rest
      obtain rfl := Except.ok.inj rest
      rfl
  | some setter =>
      rw [accessor] at rest
      simp only [Outcome.bind_eq_ok, mirrors.setter located] at rest ⊢
      obtain ⟨checked, same, field, backing, body, made, rest⟩ := rest
      obtain rfl := Except.ok.inj rest
      exact ⟨checked, same, field, backing, body, made, rfl⟩

section Mapping

variable {mapping mapping' : LocatedType} {property : PropertyDef}

private theorem mappingApi (located : context.targetType index = .ok type)
    (header : mapping'.header = mapping.header) :
    context'.mappingApi type property mapping' = context.mappingApi type property mapping := by
  have parameter : mappingParameter mapping' = mappingParameter mapping :=
    LocatedType.eq_of_header header mappingParameter fun _ => rfl
  have sig : mapping'.sig = mapping.sig := LocatedType.eq_of_header header LocatedType.sig fun _ => rfl
  simp only [WeavingContext.mappingApi, Metadata.inheritedGenericMethod?, Metadata.findMethod?,
    mirrors.configuration, mirrors.chain_of_located located, parameter, sig]

private theorem constructorBlock {identifier : String} {field : FieldRef}
    {block : List Instruction × UInt16} (offers : context.Offers context' mapping mapping')
    (built : context.constructorBlock type property mapping identifier field = .ok block) :
    context'.constructorBlock type property mapping' identifier field = .ok block := by
  have parameter : mappingParameter mapping' = mappingParameter mapping :=
    LocatedType.eq_of_header offers.header mappingParameter fun _ => rfl
  have default : context'.defaultCode type property = context.defaultCode type property := by
    simp only [defaultCode, defaultValue, mirrors.configuration]
  simp only [WeavingContext.constructorBlock, Outcome.bind_eq_ok, parameter, default, orError_eq_ok]
    at built ⊢
  obtain ⟨code, literal, name, only, constructor, found, rest⟩ := built
  obtain ⟨constructor', found', reference⟩ := offers.exists_constructor (by simp) found
  exact ⟨code, literal, name, only, constructor', found', by rw [reference]; exact rest⟩

private theorem routeThrough {identifier fieldName : String} {fieldType : TypeSig}
    (located : context.targetType index = .ok type) (offers : context.Offers context' mapping mapping')
    (routed : context.routeThrough index type property mapping identifier fieldName fieldType =
      .ok edit) :
    context'.routeThrough index' type property mapping' identifier fieldName fieldType =
      .ok (edit.moved index') := by
  simp only [WeavingContext.routeThrough, Outcome.bind_eq_ok, mirrors.setter located,
    mirrors.mappingApi located offers.header] at routed ⊢
  obtain ⟨api, found, setters, made, block, built, rest⟩ := routed
  obtain rfl := Except.ok.inj rest
  exact ⟨api, found, setters, made, block, mirrors.constructorBlock offers built, rfl⟩

private theorem mapProperty (executed : context.mapProperty index propertyIndex = .ok edit) :
    context'.mapProperty index' propertyIndex = .ok (edit.moved index') := by
  simp only [WeavingContext.mapProperty, Outcome.bind_eq_ok, persistentIdentifier, mappingType,
    mirrors.configuration] at executed ⊢
  obtain ⟨type, located, property, listed, identifier, annotated, rest⟩ := executed
  refine ⟨type, mirrors.targetType located, property, listed, identifier, annotated, ?_⟩
  cases identifier with
  | none =>
      obtain rfl := Except.ok.inj rest
      rfl
  | some identifier =>
      simp only [Outcome.bind_eq_ok] at rest ⊢
      obtain ⟨read, getters, write, setters, mapping, found, rest⟩ := rest
      obtain ⟨mapping', found', offers⟩ := mirrors.runtimeType _ mapping found
      refine ⟨read, getters, write, setters, mapping', found', ?_⟩
      have reference : mapping'.typeRef = mapping.typeRef :=
        LocatedType.eq_of_header offers.header LocatedType.typeRef fun _ => rfl
      rw [reference]
      split at rest
      · exact mirrors.routeThrough located offers rest
      · split at rest
        · next same =>
          obtain rfl := Except.ok.inj rest
          exact if_pos same
        · cases rest

end Mapping

private theorem hasQueryOverride (located : context.targetType index = .ok type) (query : String) :
    context'.hasQueryOverride type query = context.hasQueryOverride type query := by
  simp only [WeavingContext.hasQueryOverride, mirrors.chain_of_located located]

private theorem overrideQuery (executed : context.overrideQuery index = .ok edit) :
    context'.overrideQuery index' = .ok (edit.moved index') := by
  simp only [WeavingContext.overrideQuery, typeIdentifiers, identifierType, Outcome.bind_eq_ok,
    mirrors.configuration] at executed ⊢
  obtain ⟨type, located, own, listed, rest⟩ := executed
  refine ⟨type, mirrors.targetType located, own, listed, ?_⟩
  rw [mirrors.chain_of_located located, mirrors.hasQueryOverride located]
  by_cases none : own.isEmpty = true
  · rw [if_pos none] at rest ⊢
    split at rest
    · next overrides =>
      obtain rfl := Except.ok.inj rest
      exact if_pos overrides
    · cases rest
  · rw [if_neg none] at rest ⊢
    simp only [Outcome.bind_eq_ok, orError_eq_ok] at rest ⊢
    obtain ⟨identifiers, named, declaration, declared, wrapper, found, constructor, constructs, code,
      finished, rest⟩ := rest
    obtain rfl := Except.ok.inj rest
    obtain ⟨wrapper', found', offers⟩ := mirrors.runtimeType _ wrapper found
    have sig : wrapper'.sig = wrapper.sig :=
      LocatedType.eq_of_header offers.header LocatedType.sig fun _ => rfl
    obtain ⟨constructor', constructs', reference⟩ := offers.exists_constructor (by simp) constructs
    refine ⟨identifiers, named, declaration, declared, wrapper', found', constructor', constructs',
      code, ?_, rfl⟩
    rw [sig, reference]
    exact finished

/-- A task asks for the same edits in both contexts. -/
theorem execute {task : Task} (own : task.typeIndex = index)
    (executed : task.execute context = .ok edit) :
    (task.moved index').execute context' = .ok (edit.moved index') := by
  subst own
  cases task with
  | mappedProperty _ property => exact mirrors.mapProperty executed
  | changeNotification _ property => exact mirrors.notifyChanges executed
  | typeHierarchy _ => exact mirrors.overrideQuery executed

theorem canExecute {task : Task} (own : task.typeIndex = index) :
    (task.moved index').canExecute context' = task.canExecute context := by
  subst own
  cases task with
  | mappedProperty type property =>
      have same : context'.metadata.target.types[index']? = context.metadata.target.types[type]? :=
        mirrors.own
      simp only [Task.moved, Task.canExecute, canMap, same]
  | changeNotification type property =>
      have same : context'.metadata.target.types[index']? = context.metadata.target.types[type]? :=
        mirrors.own
      simp only [Task.moved, Task.canExecute, canNotify, same]
  | typeHierarchy type =>
      have same : context'.metadata.target.types[index']? = context.metadata.target.types[type]? :=
        mirrors.own
      simp only [Task.moved, Task.canExecute, canOverrideQuery, same, mirrors.configuration]

end Mirrors

end WeavingContext

end PropertyWeaver
