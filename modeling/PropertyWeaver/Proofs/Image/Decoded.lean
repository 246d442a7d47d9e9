import PropertyWeaver.Proofs.Image.Encodable

/-!
# What decoding establishes

Opcodes ask for their operands while they are read, and a module is validated after its payload. A
decoded module therefore has the header of an image, operands that fit, and accessors that exist. Nothing
else is promised of it: a branch may lead anywhere.
-/

set_option autoImplicit false

namespace PropertyWeaver

/-- All code of a type has a quality. -/
def TypeDef.AllCode (holds : Instruction → Prop) (type : TypeDef) : Prop :=
  ∀ method ∈ type.methods, ∀ body ∈ method.body, ∀ instruction ∈ body.instructions, holds instruction

def Module.AllCode (holds : Instruction → Prop) (module : Module) : Prop :=
  ∀ type ∈ module.types, type.AllCode holds

section Decidable

variable (holds : Instruction → Prop) [DecidablePred holds]

instance (type : TypeDef) : Decidable (type.AllCode holds) :=
  inferInstanceAs (Decidable (∀ method ∈ type.methods, ∀ body ∈ method.body,
    ∀ instruction ∈ body.instructions, holds instruction))

instance (module : Module) : Decidable (module.AllCode holds) :=
  inferInstanceAs (Decidable (∀ type ∈ module.types, type.AllCode holds))

end Decidable

/-- Every accessor of the type is one of its methods. -/
def TypeDef.HasAccessors (type : TypeDef) : Prop :=
  ∀ property ∈ type.properties, ∀ accessor ∈ property.accessors, accessor < type.methods.length

/-- What decoding establishes of a module: it has the header of an image, operands fit their opcodes,
and accessors exist. -/
structure Module.Decoded (module : Module) : Prop where
  magic : module.magic = expectedMagic
  version : module.version = expectedVersion
  fits : module.AllCode fun instruction => instruction.wellFormed = true
  accessors : ∀ type ∈ module.types, type.HasAccessors

instance (type : TypeDef) : Decidable type.HasAccessors :=
  inferInstanceAs (Decidable (∀ property ∈ type.properties, ∀ accessor ∈ property.accessors,
    accessor < type.methods.length))

instance (module : Module) : Decidable module.Decoded :=
  decidable_of_iff (module.magic = Module.expectedMagic ∧ module.version = Module.expectedVersion ∧
      (module.AllCode fun instruction => instruction.wellFormed = true) ∧
      ∀ type ∈ module.types, type.HasAccessors)
    ⟨fun ⟨magic, version, fits, accessors⟩ => ⟨magic, version, fits, accessors⟩,
      fun ⟨magic, version, fits, accessors⟩ => ⟨magic, version, fits, accessors⟩⟩

theorem Module.hasAccessors_of_validate {module : Module} (valid : module.validate = .ok ()) :
    ∀ type ∈ module.types, type.HasAccessors := by
  simp only [validate] at valid
  split at valid
  · cases valid
  split at valid
  · cases valid
  split at valid
  · cases valid
  next missing =>
    intro type listed property declared accessor named
    have none := List.findSome?_eq_none_iff.mp missing type listed
    have none := List.findSome?_eq_none_iff.mp (Option.map_eq_none_iff.mp none) property declared
    have exists_ := List.find?_eq_none.mp (Option.map_eq_none_iff.mp none) accessor named
    simpa using exists_

theorem Module.Encodable.decoded {module : Module} (encodable : module.Encodable) :
    module.Decoded where
  magic := encodable.magic
  version := encodable.version
  fits := fun type listed method declared body code instruction member =>
    let whole := (encodable.types.each type listed).methods.each method declared
    ((whole.body body code).instructions.each instruction member).wellFormed
  accessors := fun type listed => (encodable.types.each type listed).accessors

end PropertyWeaver
