import PropertyWeaver.Metadata.Basic

/-!
# Looking members up

Methods are found by name and parameters on a type or on the most derived of its bases that has one.
A method that is found can be referred to from the target: its signature is qualified by the scope
of its owner.
-/

set_option autoImplicit false

namespace PropertyWeaver

structure LocatedMethod where
  owner : LocatedType
  index : Nat
  definition : MethodDef
  deriving DecidableEq

namespace LocatedMethod

def methodRef (method : LocatedMethod) : MethodRef :=
  let origin := method.owner.scope
  { declaringType := method.owner.sig
    name := method.definition.name
    hasThis := !method.definition.isStatic
    returnType := method.definition.returnType.qualify origin
    parameters := method.definition.parameterTypes.map (TypeSig.qualify origin)
    genericArguments := [] }

def instantiate (method : LocatedMethod) (arguments : List TypeSig) : MethodRef :=
  { method.methodRef with genericArguments := arguments }

end LocatedMethod

/-- The same method, declared by an instantiation of its declaring type. -/
def MethodRef.bindTo (method : MethodRef) (host : TypeSig) : MethodRef :=
  { method with declaringType := host }

def LocatedType.methods (type : LocatedType) : List LocatedMethod :=
  type.definition.methods.mapIdx fun index definition => ⟨type, index, definition⟩

/-- Whether a declared parameter accepts an argument of the given type: it is a generic parameter of
the same name, or both have the same element type by name. -/
def TypeSig.accepts (parameter argument : TypeSig) : Bool :=
  (parameter.isGenericParameter && parameter.fullName = argument.fullName) ||
    parameter.elementType.fullName = argument.elementType.fullName

namespace Metadata

/-- The first method with a property, on the most derived level of the chain that has one. -/
def findMethod? (metadata : Metadata) (type : LocatedType) (accepts : MethodDef → Bool) :
    Option LocatedMethod :=
  ((metadata.chain type).flatMap LocatedType.methods).find? fun method => accepts method.definition

def inheritedMethod? (metadata : Metadata) (type : LocatedType) (name : String)
    (parameters : List String) : Option LocatedMethod :=
  metadata.findMethod? type fun method => method.name = name && method.parameterNames = parameters

def inheritedGenericMethod? (metadata : Metadata) (type : LocatedType) (name : String)
    (arguments : List TypeSig) : Option LocatedMethod :=
  metadata.findMethod? type fun method =>
    method.name = name && method.parameters.length = arguments.length &&
      (method.parameterTypes.zip arguments).all fun (parameter, argument) =>
        parameter.accepts argument

def constructor? (metadata : Metadata) (type : LocatedType) (parameters : List String) :
    Option LocatedMethod :=
  metadata.findMethod? type fun method =>
    method.isConstructor && method.parameterNames = parameters

end Metadata

/-! ## Backing fields -/

/-- An accessor that a compiler has written rather than a person. -/
def MethodDef.isSynthesized (method : MethodDef) : Bool :=
  method.isCompilerGenerated || method.isCompilerControlled

/-- The field that the first field store of a synthesized setter writes. -/
def TypeDef.backingField? (type : TypeDef) (property : PropertyDef) : Option FieldRef := do
  let setter ← type.methods[(← property.setter)]?
  if !setter.isSynthesized then
    none
  else
    let body ← setter.body
    let store ← body.instructions.find? fun instruction => instruction.opcode = .stfld
    store.field?

/-! ## Equality of values -/

inductive Equality where
  | primitive
  | method (member : MethodRef)
  deriving DecidableEq

def MethodDef.comparesPairsOf (method : MethodDef) (name typeName : String) : Bool :=
  method.name = name && method.isStatic && method.parameterNames = [typeName, typeName]

/-- How values of a type are compared: value types directly, other types by the method `equals` that
their type declares, or else by the one that the root type declares. Inherited methods do not count.
-/
def Metadata.equality? (metadata : Metadata) (type : TypeSig) (equals rootObject : String) :
    Option Equality :=
  if type.isValueType then
    some .primitive
  else
    let declared (owner : LocatedType) (typeName : String) : Option LocatedMethod :=
      owner.methods.find? fun method => method.definition.comparesPairsOf equals typeName
    let own := (metadata.resolveSig? none type).bind fun owner => declared owner type.fullName
    let root := (metadata.findType? (some metadata.coreModule) rootObject).bind fun owner =>
      declared owner rootObject
    (own <|> root).map fun method => .method method.methodRef

end PropertyWeaver
