import PropertyWeaver.Proofs.Metadata.Lookup
import PropertyWeaver.Proofs.Module.Extension

/-!
# Lookups in related targets

Where a type is found depends on names, and its chain on names and bases. So if the types of two targets
are related one by one, by a relation that keeps both, then lookups find related types.
-/

set_option autoImplicit false

namespace PropertyWeaver

/-- A relation between types that lookups cannot tell apart. -/
structure LocatedType.Inseparable (relation : LocatedType → LocatedType → Prop) : Prop where
  refl : ∀ type, relation type type
  scope : ∀ {type type'}, relation type type' → type'.scope = type.scope
  fullName : ∀ {type type'}, relation type type' → type'.fullName = type.fullName
  base : ∀ {type type'}, relation type type' → type'.definition.base = type.definition.base

namespace Metadata

/-- Metadata around targets of one name whose types are related one by one. -/
structure Related (relation : LocatedType → LocatedType → Prop) (before after : Metadata) : Prop where
  inseparable : LocatedType.Inseparable relation
  name : after.target.name = before.target.name
  types : List.Forall₂ (fun type type' => relation ⟨type, none⟩ ⟨type', none⟩) before.target.types
    after.target.types
  resolver : after.resolver = before.resolver
  coreModule : after.coreModule = before.coreModule

namespace Related

variable {relation : LocatedType → LocatedType → Prop} {before after : Metadata}
  (related : Related relation before after)

include related

theorem typeCount : after.typeCount = before.typeCount := by
  simp [Metadata.typeCount, related.resolver, related.types.length_eq]

theorem findType? (scope : Option String) (fullName : String) :
    Option.Rel relation (before.findType? scope fullName) (after.findType? scope fullName) := by
  have inTarget : Option.Rel relation
      ((before.target.type? fullName).map fun definition => ⟨definition, none⟩)
      ((after.target.type? fullName).map fun definition => ⟨definition, none⟩) := by
    refine rel_map (find?_rel related.types fun type type' types => ?_) fun _ _ types => types
    have named : type'.fullName = type.fullName := related.inseparable.fullName types
    rw [named]
  have elsewhere : ∀ found : Option LocatedType, Option.Rel relation found found := by
    rintro (_ | type)
    · exact .none
    · exact .some (related.inseparable.refl type)
  rw [findType?_eq, findType?_eq]
  cases scope with
  | none => exact inTarget
  | some name =>
      simp only [module?, related.name, related.resolver]
      split
      · exact inTarget
      · exact elsewhere _

theorem resolveSig? (origin : Option String) (sig : TypeSig) :
    Option.Rel relation (before.resolveSig? origin sig) (after.resolveSig? origin sig) := by
  unfold Metadata.resolveSig?
  split
  · exact related.findType? ..
  · split
    · exact .none
    · rw [related.coreModule]
      exact related.findType? ..

theorem base? {type type' : LocatedType} (types : relation type type') :
    Option.Rel relation (before.base? type) (after.base? type') := by
  rw [Metadata.base?, Metadata.base?, related.inseparable.base types, related.inseparable.scope types]
  cases type.definition.base with
  | none => exact .none
  | some sig => exact related.resolveSig? type.scope sig

private theorem chainUpTo (limit : Nat) {type type' : LocatedType} (types : relation type type') :
    List.Forall₂ relation (before.chainUpTo limit type) (after.chainUpTo limit type') := by
  induction limit generalizing type type' with
  | zero => exact .cons types .nil
  | succ limit hypothesis =>
      have bases := related.base? types
      unfold Metadata.chainUpTo
      cases first : before.base? type with
      | none =>
          rw [none_of_rel bases first]
          exact .cons types .nil
      | some base =>
          obtain ⟨base', second, related⟩ := exists_of_rel bases first
          rw [second]
          exact .cons types (hypothesis related)

/-- The chains of related types are related level by level. -/
theorem chain {type type' : LocatedType} (types : relation type type') :
    List.Forall₂ relation (before.chain type) (after.chain type') := by
  unfold Metadata.chain
  rw [related.typeCount]
  exact related.chainUpTo _ types

end Related

end Metadata

end PropertyWeaver
