import PropertyWeaver.Image.Code
import PropertyWeaver.Image.Constant

/-!
# Declarations in an image

Fields, methods, properties, types and the tables of a module, each as its parts in a fixed order.
-/

set_option autoImplicit false

namespace PropertyWeaver

open Decoder

namespace FieldDef

def encode (field : FieldDef) : Bytes :=
  Bytes.string field.name ++ Bytes.uint32 field.flags ++ field.fieldType.encode ++
    Bytes.sequence Attribute.encode field.attributes

def decoder : Decoder FieldDef := do
  let name ← part .string
  let flags ← take .uint32
  let fieldType ← part .typeSig
  let attributes ← parts .attr
  return ⟨name, flags, fieldType, attributes⟩

end FieldDef

namespace ParameterDef

def encode (parameter : ParameterDef) : Bytes :=
  Bytes.string parameter.name ++ parameter.parameterType.encode

def decoder : Decoder ParameterDef := do
  let name ← part .string
  let parameterType ← part .typeSig
  return ⟨name, parameterType⟩

end ParameterDef

namespace MethodDef

def encode (method : MethodDef) : Bytes :=
  Bytes.string method.name ++ Bytes.uint32 method.flags ++ method.returnType.encode ++
    Bytes.sequence ParameterDef.encode method.parameters ++
    Bytes.sequence Bytes.string method.genericParameters ++
    Bytes.sequence Attribute.encode method.attributes ++
    Bytes.optional MethodBody.encode method.body

def decoder : Decoder MethodDef := do
  let name ← part .string
  let flags ← take .uint32
  let returnType ← part .typeSig
  let parameters ← parts .parameter
  let genericParameters ← parts .string
  let attributes ← parts .attr
  let body ← part? .body
  return ⟨name, flags, returnType, parameters, genericParameters, attributes, body⟩

end MethodDef

namespace PropertyDef

/-- The word that stands for a missing accessor. -/
def noAccessor : UInt32 := 0xFFFFFFFF

/-- An accessor index, cut to 32 bits. -/
def encodeAccessor : Option Nat → Bytes
  | some index => Bytes.count index
  | none => Bytes.uint32 noAccessor

/-- The accessor that a word stands for. -/
def accessorOfWord? (word : UInt32) : Option Nat :=
  if word = noAccessor then none else some word.toNat

def encode (property : PropertyDef) : Bytes :=
  Bytes.string property.name ++ property.propertyType.encode ++ encodeAccessor property.getter ++
    encodeAccessor property.setter ++ Bytes.sequence Attribute.encode property.attributes

def decoder : Decoder PropertyDef := do
  let name ← part .string
  let propertyType ← part .typeSig
  let getter ← take .uint32
  let setter ← take .uint32
  let attributes ← parts .attr
  return ⟨name, propertyType, accessorOfWord? getter, accessorOfWord? setter, attributes⟩

end PropertyDef

namespace TypeDef

def encode (type : TypeDef) : Bytes :=
  Bytes.string type.qualifier ++ Bytes.string type.name ++ Bytes.uint32 type.flags ++
    Bytes.optional TypeSig.encode type.base ++
    Bytes.sequence Bytes.string type.genericParameters ++
    Bytes.sequence FieldDef.encode type.fields ++
    Bytes.sequence MethodDef.encode type.methods ++
    Bytes.sequence PropertyDef.encode type.properties ++
    Bytes.sequence Attribute.encode type.attributes

def decoder : Decoder TypeDef := do
  let qualifier ← part .string
  let name ← part .string
  let flags ← take .uint32
  let base ← part? .typeSig
  let genericParameters ← parts .string
  let fields ← parts .field
  let methods ← parts .method
  let properties ← parts .property
  let attributes ← parts .attr
  return ⟨qualifier, name, flags, base, genericParameters, fields, methods, properties, attributes⟩

end TypeDef

namespace Module

def payload (module : Module) : Bytes :=
  Bytes.string module.name ++ Bytes.sequence Bytes.string module.references ++
    Bytes.sequence TypeDef.encode module.types

def tablesDecoder : Decoder (String × List String × List TypeDef) := do
  let name ← part .string
  let references ← parts .string
  let types ← parts .type
  return (name, references, types)

end Module

end PropertyWeaver
