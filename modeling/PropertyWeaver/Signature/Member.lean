import PropertyWeaver.Signature.Scope

/-!
# Member references

References to fields and methods, as instructions carry them. Parameter and return types of a method
reference keep the generic parameters of the definition.
-/

set_option autoImplicit false

namespace PropertyWeaver

structure FieldRef where
  declaringType : TypeSig
  name : String
  fieldType : TypeSig
  deriving DecidableEq, Repr, Inhabited

namespace FieldRef

def display (field : FieldRef) : String :=
  field.fieldType.fullName ++ " " ++ field.declaringType.fullName ++ "::" ++ field.name

def scopes (field : FieldRef) : List String :=
  field.declaringType.scopes ++ field.fieldType.scopes

end FieldRef

/-- A method, named by its declaring type and signature. `parameters` leaves out the receiver, and
`genericArguments` binds the method's own generic parameters at the call. -/
structure MethodRef where
  declaringType : TypeSig
  name : String
  hasThis : Bool
  returnType : TypeSig
  parameters : List TypeSig
  genericArguments : List TypeSig
  deriving DecidableEq, Repr, Inhabited

namespace MethodRef

/-- Number of values that a call takes from the stack, the receiver included. -/
def popCount (method : MethodRef) : Nat :=
  method.parameters.length + method.hasThis.toNat

def returnsValue (method : MethodRef) : Bool :=
  !method.returnType.isVoid

def display (method : MethodRef) : String :=
  let list (sigs : List TypeSig) := ",".intercalate (sigs.map TypeSig.fullName)
  let arguments :=
    if method.genericArguments.isEmpty then "" else "<" ++ list method.genericArguments ++ ">"
  method.returnType.fullName ++ " " ++ method.declaringType.fullName ++ "::" ++ method.name ++
    arguments ++ "(" ++ list method.parameters ++ ")"

def scopes (method : MethodRef) : List String :=
  method.declaringType.scopes ++ method.returnType.scopes ++
    method.parameters.flatMap TypeSig.scopes ++ method.genericArguments.flatMap TypeSig.scopes

end MethodRef

end PropertyWeaver
