import PropertyWeaver.Proofs.Metadata.Lookup
import PropertyWeaver.Proofs.Module.Scopes

/-!
# Lookups within known modules

If the target and the modules under known names mention known names alone, so does every type and every
member that a lookup finds, and so does a reference to it.
-/

set_option autoImplicit false

namespace PropertyWeaver

variable {known : String → Prop}

namespace TypeSig

/-- A signature that is qualified names its origin at most in addition. -/
theorem within_qualify {origin : Option String} (here : ∀ name ∈ origin, known name) (sig : TypeSig)
    (within : ∀ scope ∈ sig.scopes, known scope) :
    ∀ scope ∈ (sig.qualify origin).scopes, known scope := by
  intro scope named
  cases origin with
  | none => exact within scope (qualify_none sig ▸ named)
  | some module =>
      cases mem_scopes_qualify.mp named with
      | inl own => exact within scope own
      | inr filled => exact filled.1 ▸ here module rfl

private theorem scopes_typeRef? {sig : TypeSig} {type : TypeRef}
    (named : sig.typeRef? = some type) :
    type.scopes ⊆ sig.scopes := by
  cases sig with
  | classType other | valueType other =>
      obtain rfl := Option.some.inj named
      exact List.Subset.refl _
  | instantiated other isValue arguments =>
      obtain rfl := Option.some.inj named
      exact List.subset_append_left ..
  | builtin _ | typeParameter _ | methodParameter _ | array _ => cases named

end TypeSig

/-! ## Located types -/

/-- A type that is found under a known scope and whose definition mentions known scopes alone. -/
structure LocatedType.Within (known : String → Prop) (type : LocatedType) : Prop where
  origin : ∀ name ∈ type.scope, known name
  definition : ∀ scope ∈ type.definition.scopes, known scope

namespace LocatedType

variable {type : LocatedType}

theorem Within.typeRef (within : type.Within known) : ∀ scope ∈ type.typeRef.scopes, known scope :=
  fun scope named => within.origin scope (Option.mem_toList.mp named)

theorem Within.sig (within : type.Within known) : ∀ scope ∈ type.sig.scopes, known scope := by
  have parameters : (type.definition.genericParameters.map TypeSig.typeParameter).flatMap
      TypeSig.scopes = [] := by
    simp [List.flatMap_eq_nil_iff, TypeSig.scopes]
  simp only [LocatedType.sig]
  split
  · simpa only [TypeSig.scopes, TypeSig.scopesOfAll_eq_flatMap, parameters, List.append_nil] using
      within.typeRef
  · split <;> exact within.typeRef

theorem Within.method {index : Nat} {method : MethodDef} (within : type.Within known)
    (declared : type.definition.methods[index]? = some method) :
    ∀ scope ∈ method.scopes, known scope := by
  intro scope named
  refine within.definition scope ?_
  simp only [TypeDef.scopes, List.mem_append]
  exact .inl (.inl (.inr (List.mem_flatMap.mpr ⟨method, List.mem_of_getElem? declared, named⟩)))

theorem Within.property {index : Nat} {property : PropertyDef} (within : type.Within known)
    (declared : type.definition.properties[index]? = some property) :
    ∀ scope ∈ property.propertyType.scopes, known scope := by
  intro scope named
  refine within.definition scope ?_
  simp only [TypeDef.scopes, List.mem_append]
  exact .inl (.inr (List.mem_flatMap.mpr
    ⟨property, List.mem_of_getElem? declared, List.mem_append_left _ named⟩))

end LocatedType

private theorem LocatedMethod.within_methodRef {method : LocatedMethod}
    (owner : method.owner.Within known)
    (declared : method.owner.definition.methods[method.index]? = some method.definition) :
    ∀ scope ∈ method.methodRef.scopes, known scope := by
  have within := owner.method declared
  simp only [MethodDef.scopes, List.forall_mem_append] at within
  obtain ⟨⟨⟨returned, taken⟩, -⟩, -⟩ := within
  simp only [MethodRef.scopes, methodRef, List.flatMap_nil, List.append_nil, List.forall_mem_append]
  refine ⟨⟨owner.sig, TypeSig.within_qualify owner.origin _ returned⟩, ?_⟩
  intro scope named
  obtain ⟨sig, qualified, named⟩ := List.mem_flatMap.mp named
  obtain ⟨parameter, listed, rfl⟩ := List.mem_map.mp qualified
  exact TypeSig.within_qualify owner.origin parameter
    (fun scope named => taken scope (List.mem_flatMap.mpr ⟨parameter, listed, named⟩)) scope named

/-! ## Lookups -/

/-- The target mentions known scopes alone, and so do the modules that are found under known names. -/
structure Metadata.Within (known : String → Prop) (metadata : Metadata) : Prop where
  target : ∀ scope ∈ metadata.target.scopes, known scope
  core : known metadata.coreModule
  stored : ∀ name module, known name → name ≠ metadata.target.name →
    metadata.resolver.find? name = some module →
      known module.name ∧ ∀ scope ∈ module.scopes, known scope

namespace Metadata

variable {metadata : Metadata} {type : LocatedType} {method : LocatedMethod}

private theorem Within.module? (within : metadata.Within known) {scope scope' : Option String}
    {module : Module} (origin : ∀ name ∈ scope, known name)
    (means : metadata.module? scope = some (module, scope')) :
    (∀ name ∈ scope', known name) ∧ ∀ name ∈ module.scopes, known name := by
  cases module?_cases means with
  | inl own =>
      obtain ⟨rfl, rfl⟩ := own
      exact ⟨nofun, within.target⟩
  | inr foreign =>
      obtain ⟨name, rfl, other, found, rfl⟩ := foreign
      obtain ⟨own, scopes⟩ := within.stored name module (origin name rfl) other found
      refine ⟨fun _ same => ?_, scopes⟩
      obtain rfl := Option.some.inj same
      exact own

theorem Within.findType? (within : metadata.Within known) {scope : Option String}
    {fullName : String} (origin : ∀ name ∈ scope, known name)
    (found : metadata.findType? scope fullName = some type) : type.Within known := by
  obtain ⟨module, means, named⟩ := findType?_eq_some.mp found
  obtain ⟨own, scopes⟩ := within.module? origin means
  exact ⟨own, fun name listed =>
    scopes name (Module.mem_scopes.mpr ⟨type.definition, List.mem_of_find?_eq_some named, listed⟩)⟩

theorem Within.targetType? (within : metadata.Within known) {index : Nat}
    (found : metadata.targetType? index = some type) : type.Within known := by
  obtain ⟨definition, listed, rfl⟩ := Option.map_eq_some_iff.mp found
  exact ⟨by simp, fun name named =>
    within.target name (Module.mem_scopes.mpr ⟨definition, List.mem_of_getElem? listed, named⟩)⟩

private theorem Within.resolveSig? (within : metadata.Within known) {origin : Option String}
    {sig : TypeSig} (here : ∀ name ∈ origin, known name) (scopes : ∀ scope ∈ sig.scopes, known scope)
    (found : metadata.resolveSig? origin sig = some type) : type.Within known := by
  unfold Metadata.resolveSig? at found
  split at found
  · next named =>
    refine within.findType? (fun name means => ?_) found
    rw [Option.mem_def, Option.orElse_eq_orElse, Option.orElse_eq_or] at means
    rcases Option.or_eq_some_iff.mp means with own | ⟨-, inherited⟩
    · exact scopes name (TypeSig.scopes_typeRef? named (Option.mem_toList.mpr own))
    · exact here name inherited
  · split at found
    · cases found
    · exact within.findType? (by rintro _ ⟨⟩; exact within.core) found

theorem Within.mem_chain (within : metadata.Within known) (start : type.Within known)
    {level : LocatedType} (member : level ∈ metadata.chain type) : level.Within known := by
  refine mem_chain_induction start (fun derived base found inside => ?_) member
  obtain ⟨sig, declared, resolved⟩ := Option.bind_eq_some_iff.mp found
  refine within.resolveSig? inside.origin (fun scope named => inside.definition scope ?_) resolved
  simp only [TypeDef.scopes, declared, Option.toList_some, List.flatMap_singleton, List.mem_append]
  exact .inl (.inl (.inl (.inl named)))

theorem Within.findMethod? (within : metadata.Within known) (start : type.Within known)
    {accepts : MethodDef → Bool} (found : metadata.findMethod? type accepts = some method) :
    ∀ scope ∈ method.methodRef.scopes, known scope := by
  obtain ⟨level, declared, -⟩ := findMethod?_spec found
  exact LocatedMethod.within_methodRef (within.mem_chain start level) declared

theorem Within.equality? (within : metadata.Within known) {valueType : TypeSig}
    {equals rootObject : String} {member : MethodRef}
    (scopes : ∀ scope ∈ valueType.scopes, known scope)
    (found : metadata.equality? valueType equals rootObject = some (.method member)) :
    ∀ scope ∈ member.scopes, known scope := by
  obtain ⟨method, -, rfl, located, declared, -⟩ := equality?_located found
  refine LocatedMethod.within_methodRef ?_ declared
  rcases located with own | root
  · exact within.resolveSig? (by simp) scopes own
  · exact within.findType? (by rintro _ ⟨⟩; exact within.core) root

end Metadata

end PropertyWeaver
