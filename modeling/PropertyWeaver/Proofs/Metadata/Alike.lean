import PropertyWeaver.Proofs.Metadata.Related

/-!
# Metadata with the same headers

Where types are found, and which bases they have, depends on their headers. Two targets with the
same headers therefore give a type chains that differ in fields and methods only.
-/

set_option autoImplicit false

namespace PropertyWeaver

/-- A located type without its fields and methods. -/
def LocatedType.header (type : LocatedType) : LocatedType :=
  ⟨type.definition.header, type.scope⟩

theorem LocatedType.eq_of_header {α : Type} {left right : LocatedType}
    (same : left.header = right.header) (read : LocatedType → α)
    (blind : ∀ type, read type = read type.header) : read left = read right := by
  rw [blind left, blind right, same]

/-- Metadata that differs in the fields and methods of the target's types at most. -/
structure Metadata.Alike (left right : Metadata) : Prop where
  name : left.target.name = right.target.name
  types : left.target.types.map TypeDef.header = right.target.types.map TypeDef.header
  resolver : left.resolver = right.resolver
  coreModule : left.coreModule = right.coreModule

namespace Metadata.Alike

variable {left right : Metadata} (alike : left.Alike right)

include alike

private theorem related : Metadata.Related
    (fun type type' => type.header = type'.header) left right where
  inseparable := {
    refl := fun _ => rfl
    scope := fun same => (congrArg LocatedType.scope same).symm
    fullName := fun same => (LocatedType.eq_of_header same LocatedType.fullName fun _ => rfl).symm
    base := fun same => (LocatedType.eq_of_header same (·.definition.base) fun _ => rfl).symm }
  name := alike.name.symm
  types := by
    have headers := List.forall₂_eq_eq_eq.symm ▸ alike.types
    exact (List.forall₂_map_right_iff.mp (List.forall₂_map_left_iff.mp headers)).imp fun _ _ same =>
      congrArg (LocatedType.mk · none) same
  resolver := alike.resolver.symm
  coreModule := alike.coreModule.symm

theorem findType? (scope : Option String) (fullName : String) :
    (left.findType? scope fullName).map LocatedType.header =
      (right.findType? scope fullName).map LocatedType.header :=
  map_eq_of_rel (alike.related.findType? scope fullName) fun _ _ same => same

/-- The chains of a type agree level by level. -/
theorem chain {type type' : LocatedType} (same : type.header = type'.header) :
    (left.chain type).map LocatedType.header = (right.chain type').map LocatedType.header :=
  List.forall₂_eq_eq_eq ▸ List.forall₂_map_left_iff.mpr
    (List.forall₂_map_right_iff.mpr (alike.related.chain same))

end Metadata.Alike

end PropertyWeaver
