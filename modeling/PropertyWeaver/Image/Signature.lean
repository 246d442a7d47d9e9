import PropertyWeaver.Image.Decoder

/-!
# Signatures in an image

A signature is a tag for its form, followed by what the form needs. Built-in types are a tag alone.
-/

set_option autoImplicit false

namespace PropertyWeaver

open Decoder

namespace TypeRef

def encode (type : TypeRef) : Bytes :=
  Bytes.optional Bytes.string type.scope ++ Bytes.string type.qualifier ++ Bytes.string type.name

def decoder : Decoder TypeRef := do
  let scope ← part? .string
  let qualifier ← part .string
  let name ← part .string
  return ⟨scope, qualifier, name⟩

end TypeRef

namespace TypeSig

mutual

def encode : TypeSig → Bytes
  | .builtin type => [(TypeForm.builtin type).tag]
  | .classType type => TypeForm.classType.tag :: type.encode
  | .valueType type => TypeForm.valueType.tag :: type.encode
  | .instantiated definition isValue arguments =>
      TypeForm.instantiated.tag :: definition.encode ++ Bytes.bool isValue ++
        Bytes.count arguments.length ++ encodeAll arguments
  | .typeParameter name => TypeForm.typeParameter.tag :: Bytes.string name
  | .methodParameter name => TypeForm.methodParameter.tag :: Bytes.string name
  | .array element => TypeForm.array.tag :: element.encode

/-- Several signatures, without their number. -/
def encodeAll : List TypeSig → Bytes
  | [] => []
  | sig :: rest => sig.encode ++ encodeAll rest

end

@[simp]
theorem encodeAll_eq_flatMap (sigs : List TypeSig) : encodeAll sigs = sigs.flatMap encode := by
  induction sigs with
  | nil => rfl
  | cons sig rest ih => simp [encodeAll, ih]

def decoder : Decoder TypeSig := do
  let form : TypeForm ← take .typeForm
  match form with
  | .builtin type => return .builtin type
  | .classType => return .classType (← part .typeRef)
  | .valueType => return .valueType (← part .typeRef)
  | .instantiated =>
      let definition ← part .typeRef
      let isValue ← take .bool
      let arguments ← parts .typeSig
      return .instantiated definition isValue arguments
  | .typeParameter => return .typeParameter (← part .string)
  | .methodParameter => return .methodParameter (← part .string)
  | .array => return .array (← part .typeSig)

end TypeSig

namespace FieldRef

def encode (field : FieldRef) : Bytes :=
  field.declaringType.encode ++ Bytes.string field.name ++ field.fieldType.encode

def decoder : Decoder FieldRef := do
  let declaringType ← part .typeSig
  let name ← part .string
  let fieldType ← part .typeSig
  return ⟨declaringType, name, fieldType⟩

end FieldRef

namespace MethodRef

def encode (method : MethodRef) : Bytes :=
  method.declaringType.encode ++ Bytes.string method.name ++ Bytes.bool method.hasThis ++
    method.returnType.encode ++ Bytes.sequence TypeSig.encode method.parameters ++
    Bytes.sequence TypeSig.encode method.genericArguments

def decoder : Decoder MethodRef := do
  let declaringType ← part .typeSig
  let name ← part .string
  let hasThis ← take .bool
  let returnType ← part .typeSig
  let parameters ← parts .typeSig
  let genericArguments ← parts .typeSig
  return ⟨declaringType, name, hasThis, returnType, parameters, genericArguments⟩

end MethodRef

end PropertyWeaver
