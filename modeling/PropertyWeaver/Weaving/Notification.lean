import PropertyWeaver.Weaving.Edit
import PropertyWeaver.Weaving.Setter

/-!
# Change notification

The setter of a property is replaced by a notifying one over its backing field.
-/

set_option autoImplicit false

namespace PropertyWeaver.WeavingContext

def canNotify (context : WeavingContext) (type property : Nat) : Bool :=
  (context.metadata.target.types[type]?.bind fun definition => definition.properties[property]?).any
    fun property => property.setter.isSome

/-- Replaces the setter of a property, which has to be synthesized and to store a field. A property
without a setter is left alone. -/
def notifyChanges (context : WeavingContext) (typeIndex propertyIndex : Nat) :
    Except WeaveError TypeEdit := do
  let type ← context.targetType typeIndex
  let property ← propertyOf type propertyIndex
  match property.setter with
  | none => return TypeEdit.none typeIndex
  | some setter => do
      checkAccessor type.definition property .setter setter
      let field ← orError (.missingBackingField type.fullName property.name)
        (type.definition.backingField? property)
      let body ← context.setter type property (.field field)
      return {
        type := typeIndex
        edits := [.replaceBody setter body]
        woven := some ⟨type.fullName, property.name, .changeNotification, "notify"⟩ }

end PropertyWeaver.WeavingContext
