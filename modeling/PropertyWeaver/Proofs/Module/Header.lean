import PropertyWeaver.Module.Basic
import PropertyWeaver.Verification.Effect

/-!
# Headers

The part of a declaration that weaving leaves alone: of a method all but its code, of a type all but
its fields and methods. What does not look further than the header is the same before and after.
-/

set_option autoImplicit false

namespace PropertyWeaver

def Module.methodAt? (module : Module) (typeIndex index : Nat) : Option MethodDef :=
  module.types[typeIndex]?.bind fun type => type.methods[index]?

def MethodDef.header (method : MethodDef) : MethodDef := { method with body := none }

def TypeDef.header (type : TypeDef) : TypeDef := { type with fields := [], methods := [] }

/-- Methods with one header have all in common that does not depend on their code. -/
theorem MethodDef.eq_of_header {α : Type} {left right : MethodDef}
    (same : left.header = right.header) (read : MethodDef → α)
    (blind : ∀ method, read method = read method.header) : read left = read right := by
  rw [blind left, blind right, same]

theorem MethodDef.shape_of_header {left right : MethodDef} (same : left.header = right.header) :
    left.shape = right.shape :=
  eq_of_header same shape fun _ => rfl

theorem MethodDef.isConstructor_of_header {left right : MethodDef}
    (same : left.header = right.header) : left.isConstructor = right.isConstructor :=
  eq_of_header same isConstructor fun _ => rfl

theorem MethodDef.exists_of_headers {left right : List MethodDef}
    (same : left.map header = right.map header) {index : Nat} {method : MethodDef}
    (found : right[index]? = some method) :
    ∃ method', left[index]? = some method' ∧ method'.header = method.header := by
  have headers := congrArg (·[index]?) same
  simp only [List.getElem?_map, found, Option.map_some] at headers
  obtain ⟨method', found', same⟩ := Option.map_eq_some_iff.mp headers
  exact ⟨method', found', same⟩

/-- Types with one header have all in common that does not depend on their fields and methods. -/
theorem TypeDef.eq_of_header {α : Type} {left right : TypeDef} (same : left.header = right.header)
    (read : TypeDef → α) (blind : ∀ type, read type = read type.header) : read left = read right := by
  rw [blind left, blind right, same]

/-- Types whose methods have the same headers have the same constructors. -/
theorem TypeDef.constructors_of_headers {left right : TypeDef}
    (same : left.methods.map MethodDef.header = right.methods.map MethodDef.header) :
    left.constructors = right.constructors := by
  have length : left.methods.length = right.methods.length := by
    simpa using congrArg List.length same
  rw [constructors, constructors, length]
  refine List.filter_congr fun index _ => ?_
  have headers := congrArg (·[index]?) same
  simp only [List.getElem?_map] at headers
  have through : ∀ method : Option MethodDef, method.any MethodDef.isConstructor =
      (method.map MethodDef.header).any MethodDef.isConstructor := by
    intro method
    cases method <;> rfl
  rw [through, headers, ← through]

theorem TypeDef.fullNames_of_headers {left right : List TypeDef}
    (same : left.map TypeDef.header = right.map TypeDef.header) :
    left.map TypeDef.fullName = right.map TypeDef.fullName := by
  have through : ∀ types : List TypeDef,
      types.map TypeDef.fullName = (types.map TypeDef.header).map TypeDef.fullName := by
    intro types
    rw [List.map_map]
    rfl
  calc left.map TypeDef.fullName
      = (left.map TypeDef.header).map TypeDef.fullName := through left
    _ = (right.map TypeDef.header).map TypeDef.fullName := by rw [same]
    _ = right.map TypeDef.fullName := (through right).symm

end PropertyWeaver
