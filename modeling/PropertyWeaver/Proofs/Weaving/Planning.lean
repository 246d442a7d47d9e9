import PropertyWeaver.Proofs.Weaving.MappingFields

/-!
# The same plan for an extended module

What is planned depends on what weaving leaves alone: names, bases, properties and annotations, and
which of the setters that are there have been synthesized.
-/

set_option autoImplicit false

namespace PropertyWeaver

variable {configuration : Configuration}

namespace TypeDef.Extends

variable {before after : TypeDef}

private theorem mappedProperties (extended : before.Extends after) :
    after.mappedProperties configuration = before.mappedProperties configuration :=
  TypeDef.eq_of_header extended.header (fun type => type.mappedProperties configuration) fun _ => rfl

/-- A setter beyond the methods of a type could be one of the methods that are added to it. -/
theorem notifyingProperties (extended : before.Extends after)
    (inside : ∀ property ∈ before.properties, ∀ setter ∈ property.setter,
      setter < before.methods.length) :
    after.notifyingProperties configuration = before.notifyingProperties configuration := by
  have properties : after.properties = before.properties :=
    TypeDef.eq_of_header extended.header TypeDef.properties fun _ => rfl
  have attributes : after.attributes = before.attributes :=
    TypeDef.eq_of_header extended.header TypeDef.attributes fun _ => rfl
  have synthesized : ∀ property ∈ before.properties,
      (property.setter.bind fun setter => after.methods[setter]?).any MethodDef.isSynthesized =
        (property.setter.bind fun setter => before.methods[setter]?).any MethodDef.isSynthesized := by
    intro property member
    cases accessor : property.setter with
    | none => rfl
    | some setter =>
        have listed := List.getElem?_eq_getElem (inside property member setter accessor)
        obtain ⟨method', listed', header⟩ := extended.getElem? listed
        rw [Option.bind_some, Option.bind_some, listed, listed']
        exact MethodDef.eq_of_header header MethodDef.isSynthesized fun _ => rfl
  unfold TypeDef.notifyingProperties propertiesWhere
  rw [properties]
  refine List.filter_congr fun index _ => ?_
  cases found : before.properties[index]? with
  | none => rfl
  | some property =>
      simp only [Option.any_some, notifiesProperty, attributes,
        synthesized property (List.mem_of_getElem? found)]

end TypeDef.Extends

namespace Module

private theorem setters_inside {module : Module} (valid : module.validate = .ok ()) {type : TypeDef}
    (member : type ∈ module.types) : ∀ property ∈ type.properties, ∀ setter ∈ property.setter,
      setter < type.methods.length := by
  intro property declared setter accessor
  unfold validate at valid
  split at valid
  · cases valid
  split at valid
  · cases valid
  dsimp only at valid
  split at valid
  · cases valid
  · next none =>
    have complete := List.findSome?_eq_none_iff.mp none type member
    rw [Option.map_eq_none_iff, TypeDef.missingAccessor?, List.findSome?_eq_none_iff] at complete
    have found := Option.map_eq_none_iff.mp (complete property declared)
    have listed : setter ∈ property.accessors :=
      List.mem_append_right _ (Option.mem_toList.mpr accessor)
    simpa using List.find?_eq_none.mp found setter listed

namespace Extends

variable {before after : Module} (extended : before.Extends after)

include extended

theorem plan (valid : before.validate = .ok ()) (type : Nat) :
    after.plan configuration type = before.plan configuration type := by
  have types := @types? _ _ extended type
  unfold Module.plan
  cases found : before.types[type]? with
  | none => rw [none_of_rel types found]
  | some definition =>
      obtain ⟨definition', found', here⟩ := exists_of_rel types found
      have attributes : definition'.attributes = definition.attributes :=
        TypeDef.eq_of_header here.header TypeDef.attributes fun _ => rfl
      rw [found']
      simp only [here.mappedProperties, attributes,
        here.notifyingProperties (setters_inside valid (List.mem_of_getElem? found))]

theorem typeIndex? (fullName : String) : after.typeIndex? fullName = before.typeIndex? fullName := by
  have through : ∀ types : List TypeDef, (types.findIdx? fun type => type.fullName = fullName) =
      (types.map TypeDef.fullName).findIdx? fun name => name = fullName := by
    intro types
    rw [List.findIdx?_map]
    rfl
  rw [Module.typeIndex?, Module.typeIndex?, through, through,
    TypeDef.fullNames_of_headers extended.headers]

theorem localBase? (type : Nat) : after.localBase? type = before.localBase? type := by
  have types := @types? _ _ extended type
  unfold Module.localBase?
  cases found : before.types[type]? with
  | none =>
      rw [none_of_rel types found]
      rfl
  | some definition =>
      obtain ⟨definition', found', here⟩ := exists_of_rel types found
      have base : definition'.base = definition.base :=
        TypeDef.eq_of_header here.header TypeDef.base fun _ => rfl
      rw [found']
      simp only [Option.bind_eq_bind, Option.bind_some, base, extended.name, extended.typeIndex?]

theorem baseFirstOrder : after.baseFirstOrder = before.baseFirstOrder := by
  have length : after.types.length = before.types.length := extended.types.length_eq.symm
  have depth : ∀ limit type, after.baseDepthUpTo limit type = before.baseDepthUpTo limit type := by
    intro limit
    induction limit with
    | zero => exact fun _ => rfl
    | succ limit hypothesis =>
        intro type
        simp only [baseDepthUpTo, extended.localBase?, hypothesis]
  unfold Module.baseFirstOrder baseDepth
  rw [length]
  simp only [depth]

end Extends

end Module

end PropertyWeaver
