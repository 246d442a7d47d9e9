import Mathlib.Algebra.Ring.Nat
import PropertyWeaver.Image.Basic

/-!
# Encodable declarations

An image counts bytes and items by 32-bit words, writes an operand by its own kind and reads it by
the kind of its opcode. A declaration is encodable if none of this loses anything: every text and
every list is short enough to be counted, every operand fits its opcode, every branch target fits
a word, and every accessor exists. Slots, flags and types are arbitrary.
-/

set_option autoImplicit false

namespace PropertyWeaver

/-- A text whose bytes can be counted by a 32-bit word. -/
def EncodableText (text : String) : Prop :=
  (Bytes.utf8 text).length < 2 ^ 32

instance (text : String) : Decidable (EncodableText text) :=
  inferInstanceAs (Decidable (_ < _))

/-- A list whose items can be counted by a 32-bit word and are encodable one by one. -/
structure EncodableList {α : Type} (encodable : α → Prop) (items : List α) : Prop where
  count : items.length < 2 ^ 32
  each : ∀ item ∈ items, encodable item

theorem EncodableList.nil {α : Type} {encodable : α → Prop} : EncodableList encodable [] :=
  ⟨by simp, by simp⟩

theorem EncodableList.singleton {α : Type} {encodable : α → Prop} {item : α}
    (only : encodable item) : EncodableList encodable [item] :=
  ⟨by simp, List.forall_mem_singleton.mpr only⟩

/-! ## Signatures -/

structure TypeRef.Encodable (type : TypeRef) : Prop where
  scope : ∀ scope ∈ type.scope, EncodableText scope
  qualifier : EncodableText type.qualifier
  name : EncodableText type.name

/-- Nesting is not bounded: only the texts and the numbers of arguments are. -/
inductive TypeSig.Encodable : TypeSig → Prop where
  | builtin {type : Builtin} : Encodable (.builtin type)
  | classType {type : TypeRef} : type.Encodable → Encodable (.classType type)
  | valueType {type : TypeRef} : type.Encodable → Encodable (.valueType type)
  | instantiated {definition : TypeRef} {isValue : Bool} {arguments : List TypeSig} :
      definition.Encodable → arguments.length < 2 ^ 32 →
      (∀ argument ∈ arguments, Encodable argument) →
      Encodable (.instantiated definition isValue arguments)
  | typeParameter {name : String} : EncodableText name → Encodable (.typeParameter name)
  | methodParameter {name : String} : EncodableText name → Encodable (.methodParameter name)
  | array {element : TypeSig} : Encodable element → Encodable (.array element)

structure FieldRef.Encodable (field : FieldRef) : Prop where
  declaringType : field.declaringType.Encodable
  name : EncodableText field.name
  fieldType : field.fieldType.Encodable

structure MethodRef.Encodable (method : MethodRef) : Prop where
  declaringType : method.declaringType.Encodable
  name : EncodableText method.name
  returnType : method.returnType.Encodable
  parameters : EncodableList TypeSig.Encodable method.parameters
  genericArguments : EncodableList TypeSig.Encodable method.genericArguments

/-! ## Code -/

/-- A branch target is written as a 32-bit word. Numbers and slots are never cut. -/
def Operand.Encodable : Operand → Prop
  | .string value => EncodableText value
  | .field member => member.Encodable
  | .method member => member.Encodable
  | .type sig => sig.Encodable
  | .branch target => target.toNat < 2 ^ 32
  | _ => True

structure Instruction.Encodable (instruction : Instruction) : Prop where
  wellFormed : instruction.wellFormed = true
  operand : instruction.operand.Encodable

structure MethodBody.Encodable (body : MethodBody) : Prop where
  locals : EncodableList TypeSig.Encodable body.locals
  instructions : EncodableList Instruction.Encodable body.instructions

/-! ## Constants -/

/-- Scalars are never cut. Arrays may be nested to any depth. -/
inductive Constant.Encodable : Constant → Prop where
  | scalar {constant : Constant} : constant.kind ∉ [.string, .type, .array] → Encodable constant
  | string {value : String} : EncodableText value → Encodable (.string value)
  | type {sig : TypeSig} : sig.Encodable → Encodable (.type sig)
  | array {items : List Constant} :
      items.length < 2 ^ 32 → (∀ item ∈ items, Encodable item) → Encodable (.array items)

structure Attribute.Encodable (attr : Attribute) : Prop where
  type : attr.type.Encodable
  arguments : EncodableList Constant.Encodable attr.arguments

/-! ## Declarations -/

structure FieldDef.Encodable (field : FieldDef) : Prop where
  name : EncodableText field.name
  fieldType : field.fieldType.Encodable
  attributes : EncodableList Attribute.Encodable field.attributes

structure ParameterDef.Encodable (parameter : ParameterDef) : Prop where
  name : EncodableText parameter.name
  parameterType : parameter.parameterType.Encodable

structure MethodDef.Encodable (method : MethodDef) : Prop where
  name : EncodableText method.name
  returnType : method.returnType.Encodable
  parameters : EncodableList ParameterDef.Encodable method.parameters
  genericParameters : EncodableList EncodableText method.genericParameters
  attributes : EncodableList Attribute.Encodable method.attributes
  body : ∀ body ∈ method.body, body.Encodable

/-- Accessors are judged by the type that declares the property. -/
structure PropertyDef.Encodable (property : PropertyDef) : Prop where
  name : EncodableText property.name
  propertyType : property.propertyType.Encodable
  attributes : EncodableList Attribute.Encodable property.attributes

structure TypeDef.Encodable (type : TypeDef) : Prop where
  qualifier : EncodableText type.qualifier
  name : EncodableText type.name
  base : ∀ base ∈ type.base, base.Encodable
  genericParameters : EncodableList EncodableText type.genericParameters
  fields : EncodableList FieldDef.Encodable type.fields
  methods : EncodableList MethodDef.Encodable type.methods
  properties : EncodableList PropertyDef.Encodable type.properties
  attributes : EncodableList Attribute.Encodable type.attributes
  accessors : ∀ property ∈ type.properties, ∀ accessor ∈ property.accessors,
    accessor < type.methods.length

/-- The flags and the checksum field are arbitrary. -/
structure Module.Encodable (module : Module) : Prop where
  magic : module.magic = expectedMagic
  version : module.version = expectedVersion
  name : EncodableText module.name
  references : EncodableList EncodableText module.references
  types : EncodableList TypeDef.Encodable module.types

end PropertyWeaver
