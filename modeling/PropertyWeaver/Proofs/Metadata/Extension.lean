import PropertyWeaver.Proofs.Metadata.Alike

/-!
# Metadata around an extended target

Looking up in the metadata of an extended target finds what has been found before, extended. This holds
for types in any case, and for methods as long as the search passes over methods without parameters,
as those are what may have been added.
-/

set_option autoImplicit false

namespace PropertyWeaver

/-- The same type seen around an extended target. -/
structure LocatedType.Extends (before after : LocatedType) : Prop where
  definition : before.definition.Extends after.definition
  scope : after.scope = before.scope

namespace LocatedType.Extends

variable {before after : LocatedType}

theorem refl (type : LocatedType) : type.Extends type :=
  ⟨.refl type.definition, rfl⟩

theorem header (extended : before.Extends after) : after.header = before.header := by
  rw [LocatedType.header, LocatedType.header, extended.definition.header, extended.scope]

end LocatedType.Extends

structure LocatedMethod.Extends (before after : LocatedMethod) : Prop where
  owner : before.owner.Extends after.owner
  index : after.index = before.index
  header : after.definition.header = before.definition.header

/-- A reference to a method does not depend on what the target has been extended by. -/
theorem LocatedMethod.Extends.methodRef {before after : LocatedMethod}
    (extended : before.Extends after) : after.methodRef = before.methodRef := by
  obtain ⟨owner, -, header⟩ := extended
  have sig := LocatedType.eq_of_header owner.header LocatedType.sig fun _ => rfl
  have reference : ∀ sig scope, (⟨sig, after.definition.name, !after.definition.isStatic,
      after.definition.returnType.qualify scope,
      after.definition.parameterTypes.map (TypeSig.qualify scope), []⟩ : MethodRef) =
      ⟨sig, before.definition.name, !before.definition.isStatic,
        before.definition.returnType.qualify scope,
        before.definition.parameterTypes.map (TypeSig.qualify scope), []⟩ := by
    intro sig scope
    exact MethodDef.eq_of_header header (fun method => (⟨sig, method.name, !method.isStatic,
      method.returnType.qualify scope, method.parameterTypes.map (TypeSig.qualify scope), []⟩ :
        MethodRef)) fun _ => rfl
  rw [LocatedMethod.methodRef, sig, owner.scope]
  exact reference ..

/-- A search that looks at headers and passes over methods without parameters. -/
structure MethodDef.PassesOver (accepts : MethodDef → Bool) : Prop where
  blind : ∀ method, accepts method = accepts method.header
  plain : ∀ method, method.parameters = [] → accepts method = false

/-- Metadata around an extended target. -/
structure Metadata.Extends (before after : Metadata) : Prop where
  target : before.target.Extends after.target
  resolver : after.resolver = before.resolver
  coreModule : after.coreModule = before.coreModule

private theorem LocatedType.Extends.find? {before after : LocatedType}
    (extended : before.Extends after)
    {accepts : MethodDef → Bool} (passes : MethodDef.PassesOver accepts) :
    Option.Rel LocatedMethod.Extends (before.methods.find? fun method => accepts method.definition)
      (after.methods.find? fun method => accepts method.definition) := by
  obtain ⟨kept, added, same, headers, plain⟩ := extended.definition.split
  have related : List.Forall₂ LocatedMethod.Extends before.methods
      (kept.mapIdx fun index definition => ⟨after, index, definition⟩) := by
    refine List.forall₂_of_length_eq_of_get (by simp [LocatedType.methods, headers.length_eq]) ?_
    intro index inside inside'
    simp only [LocatedType.methods, List.get_eq_getElem, List.getElem_mapIdx]
    exact ⟨extended, rfl, (headers.get (by simpa [LocatedType.methods] using inside)
      (by simpa using inside')).symm⟩
  have rejected : ∀ (shift : Nat), (added.mapIdx fun index definition =>
      (⟨after, index + shift, definition⟩ : LocatedMethod)).find?
        (fun method => accepts method.definition) = none := by
    intro shift
    refine List.find?_eq_none.mpr fun method member => ?_
    obtain ⟨index, inside, rfl⟩ := List.mem_mapIdx.mp member
    simp [passes.plain _ (plain _ (List.getElem_mem inside))]
  rw [LocatedType.methods.eq_def after, same, List.mapIdx_append, List.find?_append, rejected,
    Option.or_none]
  refine find?_rel related fun method method' extended => ?_
  rw [passes.blind method.definition, passes.blind method'.definition, extended.header]

namespace Metadata.Extends

variable {before after : Metadata} (extended : before.Extends after)

include extended

theorem alike : after.Alike before where
  name := extended.target.name
  types := extended.target.headers
  resolver := extended.resolver
  coreModule := extended.coreModule

private theorem related : Metadata.Related LocatedType.Extends before after where
  inseparable := {
    refl := LocatedType.Extends.refl
    scope := LocatedType.Extends.scope
    fullName := fun types => LocatedType.eq_of_header types.header LocatedType.fullName fun _ => rfl
    base := fun types => LocatedType.eq_of_header types.header (·.definition.base) fun _ => rfl }
  name := extended.target.name
  types := extended.target.types.imp fun _ _ types => ⟨types, rfl⟩
  resolver := extended.resolver
  coreModule := extended.coreModule

theorem findType? (scope : Option String) (fullName : String) :
    Option.Rel LocatedType.Extends (before.findType? scope fullName)
      (after.findType? scope fullName) :=
  extended.related.findType? scope fullName

theorem resolveSig? (origin : Option String) (sig : TypeSig) :
    Option.Rel LocatedType.Extends (before.resolveSig? origin sig)
      (after.resolveSig? origin sig) :=
  extended.related.resolveSig? origin sig

theorem chain {type type' : LocatedType} (types : type.Extends type') :
    List.Forall₂ LocatedType.Extends (before.chain type) (after.chain type') :=
  extended.related.chain types

private theorem findMethod? {type type' : LocatedType} (types : type.Extends type')
    {accepts : MethodDef → Bool} (passes : MethodDef.PassesOver accepts) :
    Option.Rel LocatedMethod.Extends (before.findMethod? type accepts)
      (after.findMethod? type' accepts) := by
  have chains := extended.chain types
  unfold Metadata.findMethod?
  generalize before.chain type = levels, after.chain type' = levels' at chains ⊢
  induction chains with
  | nil => exact .none
  | cons level _ hypothesis =>
      rw [List.flatMap_cons, List.flatMap_cons, List.find?_append, List.find?_append]
      exact rel_or (level.find? passes) hypothesis

section Methods

variable {type type' : LocatedType} (types : type.Extends type')

include types

theorem inheritedMethod? (name : String) {parameters : List String} (some : parameters ≠ []) :
    Option.Rel LocatedMethod.Extends (before.inheritedMethod? type name parameters)
      (after.inheritedMethod? type' name parameters) := by
  refine extended.findMethod? types ⟨fun _ => rfl, fun method plain => ?_⟩
  have none : method.parameterNames = [] := by
    simp [MethodDef.parameterNames, MethodDef.parameterTypes, plain]
  simp [none, Ne.symm some]

theorem inheritedGenericMethod? (name : String) {arguments : List TypeSig} (some : arguments ≠ []) :
    Option.Rel LocatedMethod.Extends (before.inheritedGenericMethod? type name arguments)
      (after.inheritedGenericMethod? type' name arguments) := by
  refine extended.findMethod? types ⟨fun _ => rfl, fun method plain => ?_⟩
  have longer : 0 < arguments.length := List.length_pos_iff.mpr some
  have different : method.parameters.length ≠ arguments.length := by
    rw [plain, List.length_nil]
    omega
  simp [different]

theorem constructor? {parameters : List String} (some : parameters ≠ []) :
    Option.Rel LocatedMethod.Extends (before.constructor? type parameters)
      (after.constructor? type' parameters) := by
  refine extended.findMethod? types ⟨fun _ => rfl, fun method plain => ?_⟩
  have none : method.parameterNames = [] := by
    simp [MethodDef.parameterNames, MethodDef.parameterTypes, plain]
  simp [none, Ne.symm some]

end Methods

theorem equality? (type : TypeSig) (equals rootObject : String) :
    after.equality? type equals rootObject = before.equality? type equals rootObject := by
  have passes : ∀ typeName, MethodDef.PassesOver fun method =>
      method.comparesPairsOf equals typeName := by
    intro typeName
    refine ⟨fun _ => rfl, fun method plain => ?_⟩
    simp [MethodDef.comparesPairsOf, MethodDef.parameterNames, MethodDef.parameterTypes, plain]
  have own : Option.Rel LocatedMethod.Extends
      ((before.resolveSig? none type).bind fun owner => owner.methods.find? fun method =>
        method.definition.comparesPairsOf equals type.fullName)
      ((after.resolveSig? none type).bind fun owner => owner.methods.find? fun method =>
        method.definition.comparesPairsOf equals type.fullName) :=
    rel_bind (extended.resolveSig? none type) fun _ _ types => types.find? (passes _)
  have root : Option.Rel LocatedMethod.Extends
      ((before.findType? (some before.coreModule) rootObject).bind fun owner =>
        owner.methods.find? fun method => method.definition.comparesPairsOf equals rootObject)
      ((after.findType? (some after.coreModule) rootObject).bind fun owner =>
        owner.methods.find? fun method => method.definition.comparesPairsOf equals rootObject) := by
    rw [extended.coreModule]
    exact rel_bind (extended.findType? _ _) fun _ _ types => types.find? (passes _)
  unfold Metadata.equality?
  split
  · rfl
  · dsimp only
    simp only [Option.orElse_eq_orElse, Option.orElse_eq_or]
    exact (map_eq_of_rel (rel_or own root) fun _ _ methods =>
      congrArg Equality.method methods.methodRef.symm).symm

end Metadata.Extends

end PropertyWeaver
