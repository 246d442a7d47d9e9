import PropertyWeaver.Metadata.Member
import PropertyWeaver.Proofs.Signature.Qualification

/-!
# What lookups find

Whatever a lookup answers with is declared by the target or by a module at hand. A method that is
found stands at its index on a level of the chain, and a reference to it takes and leaves what the
definition does.
-/

set_option autoImplicit false

namespace PropertyWeaver

namespace LocatedMethod

variable (method : LocatedMethod)

@[simp] theorem popCount_methodRef :
    method.methodRef.popCount = method.definition.argumentCount := by
  simp [MethodRef.popCount, methodRef, MethodDef.argumentCount, MethodDef.parameterTypes]

@[simp] theorem returnsValue_methodRef :
    method.methodRef.returnsValue = method.definition.returnsValue := by
  simp [MethodRef.returnsValue, methodRef, MethodDef.returnsValue]

@[simp] theorem length_parameters_methodRef :
    method.methodRef.parameters.length = method.definition.parameters.length := by
  simp [methodRef, MethodDef.parameterTypes]

/-- Parameters keep their full names when their scopes are filled in. -/
theorem fullNames_parameters_methodRef :
    method.methodRef.parameters.map TypeSig.fullName = method.definition.parameterNames := by
  rw [methodRef, List.map_map, MethodDef.parameterNames]
  exact List.map_congr_left fun sig _ => TypeSig.fullName_qualify _ sig

end LocatedMethod

theorem MethodDef.length_parameterNames (method : MethodDef) :
    method.parameterNames.length = method.parameters.length := by
  simp [parameterNames, parameterTypes]

theorem LocatedType.mem_methods {type : LocatedType} {method : LocatedMethod} :
    method ∈ type.methods ↔
      method.owner = type ∧ type.definition.methods[method.index]? = some method.definition := by
  obtain ⟨owner, index, definition⟩ := method
  simp only [LocatedType.methods, List.mem_mapIdx, LocatedMethod.mk.injEq,
    List.getElem?_eq_some_iff]
  constructor
  · rintro ⟨index, inside, rfl, rfl, same⟩
    exact ⟨rfl, inside, same⟩
  · rintro ⟨rfl, inside, same⟩
    exact ⟨index, inside, rfl, rfl, same⟩

namespace Metadata

variable {metadata : Metadata}

/-- A definition of the target or of a module that can be found. -/
def Declares (metadata : Metadata) (definition : TypeDef) : Prop :=
  definition ∈ metadata.target.types ∨
    ∃ name module, metadata.resolver.find? name = some module ∧ definition ∈ module.types

theorem findType?_eq (metadata : Metadata) (scope : Option String) (fullName : String) :
    metadata.findType? scope fullName =
      (metadata.module? scope).bind fun found =>
        (found.1.type? fullName).map fun definition => ⟨definition, found.2⟩ := by
  unfold findType?
  cases metadata.module? scope with
  | none => rfl
  | some found =>
      obtain ⟨module, scope⟩ := found
      change (module.type? fullName).bind _ = (module.type? fullName).map _
      cases module.type? fullName <;> rfl

/-- A scope means the target, or a module at hand under another name. -/
theorem module?_cases {scope scope' : Option String} {module : Module}
    (means : metadata.module? scope = some (module, scope')) :
    module = metadata.target ∧ scope' = none ∨
      ∃ name, scope = some name ∧ name ≠ metadata.target.name ∧
        metadata.resolver.find? name = some module ∧ scope' = some module.name := by
  cases scope with
  | none =>
      cases means
      exact .inl ⟨rfl, rfl⟩
  | some name =>
      rw [module?] at means
      split at means
      · cases means
        exact .inl ⟨rfl, rfl⟩
      next foreign =>
        obtain ⟨stored, found, same⟩ := Option.map_eq_some_iff.mp means
        cases same
        exact .inr ⟨name, rfl, foreign, found, rfl⟩

theorem findType?_eq_some {scope : Option String} {fullName : String} {type : LocatedType} :
    metadata.findType? scope fullName = some type ↔
      ∃ module, metadata.module? scope = some (module, type.scope) ∧
        module.type? fullName = some type.definition := by
  rw [findType?_eq]
  constructor
  · intro found
    obtain ⟨⟨module, scope'⟩, means, located⟩ := Option.bind_eq_some_iff.mp found
    obtain ⟨definition, named, rfl⟩ := Option.map_eq_some_iff.mp located
    exact ⟨module, means, named⟩
  · intro found
    obtain ⟨module, means, named⟩ := found
    rw [means, Option.bind_some, named]
    rfl

theorem fullName_of_findType? {scope : Option String} {fullName : String} {type : LocatedType}
    (found : metadata.findType? scope fullName = some type) : type.fullName = fullName := by
  obtain ⟨module, -, named⟩ := findType?_eq_some.mp found
  have name : type.definition.fullName = fullName := by simpa using List.find?_some named
  exact name

/-- Whatever a signature stands for has been found by name. -/
theorem exists_findType?_of_resolveSig? {origin : Option String} {sig : TypeSig} {type : LocatedType}
    (found : metadata.resolveSig? origin sig = some type) :
    ∃ scope fullName, metadata.findType? scope fullName = some type := by
  unfold resolveSig? at found
  split at found
  · exact ⟨_, _, found⟩
  · split at found
    · cases found
    · exact ⟨_, _, found⟩

private theorem declares_of_findType? {scope : Option String} {fullName : String}
    {type : LocatedType} (found : metadata.findType? scope fullName = some type) :
    metadata.Declares type.definition := by
  obtain ⟨module, means, named⟩ := findType?_eq_some.mp found
  have member := List.mem_of_find?_eq_some named
  cases module?_cases means with
  | inl own => exact .inl (own.1 ▸ member)
  | inr foreign =>
      obtain ⟨name, -, -, stored, -⟩ := foreign
      exact .inr ⟨name, module, stored, member⟩

private theorem declares_of_resolveSig? {origin : Option String} {sig : TypeSig}
    {type : LocatedType} (found : metadata.resolveSig? origin sig = some type) :
    metadata.Declares type.definition := by
  obtain ⟨scope, fullName, named⟩ := exists_findType?_of_resolveSig? found
  exact declares_of_findType? named

private theorem declares_of_base? {type base : LocatedType}
    (found : metadata.base? type = some base) :
    metadata.Declares base.definition := by
  obtain ⟨sig, _, resolved⟩ := Option.bind_eq_some_iff.mp found
  exact declares_of_resolveSig? resolved

theorem chain_eq_cons (metadata : Metadata) (type : LocatedType) :
    ∃ bases, metadata.chain type = type :: bases := by
  unfold chain
  cases metadata.typeCount with
  | zero => exact ⟨[], rfl⟩
  | succ limit =>
      unfold chainUpTo
      split
      · exact ⟨_, rfl⟩
      · exact ⟨[], rfl⟩

/-- What holds of a type and of the base of whatever it holds of holds along the chain. -/
theorem mem_chain_induction {holds : LocatedType → Prop} {type level : LocatedType}
    (start : holds type)
    (step : ∀ type base, metadata.base? type = some base → holds type → holds base)
    (member : level ∈ metadata.chain type) : holds level := by
  unfold chain at member
  generalize metadata.typeCount = limit at member
  induction limit generalizing type with
  | zero =>
      obtain rfl := List.mem_singleton.mp member
      exact start
  | succ limit hypothesis =>
      unfold chainUpTo at member
      split at member
      · next base found =>
        rcases List.mem_cons.mp member with rfl | member
        · exact start
        · exact hypothesis (step type base found start) member
      · obtain rfl := List.mem_singleton.mp member
        exact start

theorem declares_of_mem_chain {type level : LocatedType} (start : metadata.Declares type.definition)
    (member : level ∈ metadata.chain type) : metadata.Declares level.definition := by
  have declared : ∀ type base, metadata.base? type = some base →
      metadata.Declares type.definition → metadata.Declares base.definition :=
    fun _ _ found _ => declares_of_base? found
  exact @mem_chain_induction metadata (fun level => metadata.Declares level.definition) type level
    start declared member

/-- A method that is found has the quality asked for and stands on a level of the chain. -/
theorem findMethod?_spec {type : LocatedType} {accepts : MethodDef → Bool} {method : LocatedMethod}
    (found : metadata.findMethod? type accepts = some method) :
    method.owner ∈ metadata.chain type ∧
      method.owner.definition.methods[method.index]? = some method.definition ∧
      accepts method.definition = true := by
  unfold findMethod? at found
  obtain ⟨level, member, lists⟩ := List.mem_flatMap.mp (List.mem_of_find?_eq_some found)
  obtain ⟨rfl, stored⟩ := LocatedType.mem_methods.mp lists
  exact ⟨member, stored, by simpa using List.find?_some found⟩

/-- An equality that is found is a static method of two parameters that the type of the values or the
root type declares. -/
theorem equality?_located {type : TypeSig} {equals rootObject : String} {member : MethodRef}
    (found : metadata.equality? type equals rootObject = some (.method member)) :
    ∃ method : LocatedMethod, ∃ typeName, member = method.methodRef ∧
      (metadata.resolveSig? none type = some method.owner ∨
        metadata.findType? (some metadata.coreModule) rootObject = some method.owner) ∧
      method.owner.definition.methods[method.index]? = some method.definition ∧
      method.definition.comparesPairsOf equals typeName = true := by
  have declared : ∀ {owner : LocatedType} {typeName : String} {method : LocatedMethod},
      owner.methods.find? (fun method => method.definition.comparesPairsOf equals typeName) =
        some method →
      method.owner = owner ∧
        method.owner.definition.methods[method.index]? = some method.definition ∧
        method.definition.comparesPairsOf equals typeName = true := by
    intro owner typeName method found
    obtain ⟨rfl, stored⟩ := LocatedType.mem_methods.mp (List.mem_of_find?_eq_some found)
    exact ⟨rfl, stored, by simpa using List.find?_some found⟩
  unfold equality? at found
  split at found
  · cases found
  · obtain ⟨method, chosen, same⟩ := Option.map_eq_some_iff.mp found
    have member : member = method.methodRef := by simpa using same.symm
    rw [Option.orElse_eq_orElse, Option.orElse_eq_or] at chosen
    rcases Option.or_eq_some_iff.mp chosen with own | ⟨_, root⟩
    · obtain ⟨owner, resolved, found⟩ := Option.bind_eq_some_iff.mp own
      obtain ⟨rfl, stored⟩ := declared found
      exact ⟨method, _, member, .inl resolved, stored⟩
    · obtain ⟨owner, resolved, found⟩ := Option.bind_eq_some_iff.mp root
      obtain ⟨rfl, stored⟩ := declared found
      exact ⟨method, _, member, .inr resolved, stored⟩

theorem equality?_spec {type : TypeSig} {equals rootObject : String} {member : MethodRef}
    (found : metadata.equality? type equals rootObject = some (.method member)) :
    ∃ method : LocatedMethod, ∃ typeName, member = method.methodRef ∧
      metadata.Declares method.owner.definition ∧
      method.owner.definition.methods[method.index]? = some method.definition ∧
      method.definition.comparesPairsOf equals typeName = true := by
  obtain ⟨method, typeName, same, located, stored⟩ := equality?_located found
  exact ⟨method, typeName, same, located.elim declares_of_resolveSig? declares_of_findType?, stored⟩

/-- Two targets that give the same base to every type that may be on the way give the same chain. -/
theorem chain_congr {left right : Metadata} (holds : LocatedType → Prop)
    (count : right.typeCount = left.typeCount)
    (step : ∀ type, holds type →
      right.base? type = left.base? type ∧ ∀ base, left.base? type = some base → holds base)
    {type : LocatedType} (start : holds type) : right.chain type = left.chain type := by
  have upTo : ∀ limit type, holds type → right.chainUpTo limit type = left.chainUpTo limit type := by
    intro limit
    induction limit with
    | zero => exact fun _ _ => rfl
    | succ limit hypothesis =>
        intro type here
        obtain ⟨same, next⟩ := step type here
        simp only [chainUpTo, same]
        cases found : left.base? type with
        | none => rfl
        | some base => exact congrArg (type :: ·) (hypothesis base (next base found))
  rw [chain, chain, count]
  exact upTo _ type start

end Metadata

end PropertyWeaver
