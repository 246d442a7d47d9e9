import PropertyWeaver.Code.Body
import PropertyWeaver.Module.Constant

/-!
# Modules

The declarations of a compiled module: types with their fields, methods and properties. Members are
found by name or by index; a property names its accessors by index into the methods of its type.
-/

set_option autoImplicit false

namespace PropertyWeaver

def hasFlag (flags flag : UInt32) : Bool :=
  flags &&& flag != 0

/-! ## Flags -/

def ModuleFlag.instrumented : UInt32 := 0x0001

def TypeFlag.valueType : UInt32 := 0x0200

/-- The bits of a method's flags that say who may refer to it. -/
def MethodFlag.accessMask : UInt32 := 0x0007

/-- Access bits of a method that source code cannot refer to. -/
def MethodFlag.compilerControlled : UInt32 := 0x0000

def MethodFlag.publicAccess : UInt32 := 0x0006

def MethodFlag.static : UInt32 := 0x0010

def MethodFlag.virtual : UInt32 := 0x0040

def MethodFlag.hideBySig : UInt32 := 0x0080

/-- The virtual method opens a slot instead of overriding an inherited one. -/
def MethodFlag.newSlot : UInt32 := 0x0100

def MethodFlag.abstract : UInt32 := 0x0400

def FieldFlag.privateAccess : UInt32 := 0x0001

def FieldFlag.static : UInt32 := 0x0010

/-! ## Members -/

structure FieldDef where
  name : String
  flags : UInt32
  fieldType : TypeSig
  attributes : List Attribute
  deriving DecidableEq, Inhabited

namespace FieldDef

def isStatic (field : FieldDef) : Bool :=
  hasFlag field.flags FieldFlag.static

def isCompilerGenerated (field : FieldDef) : Bool :=
  (findAttribute? field.attributes compilerGeneratedAttribute).isSome

end FieldDef

/-- A declared parameter. The receiver is not one. -/
structure ParameterDef where
  name : String
  parameterType : TypeSig
  deriving DecidableEq, Inhabited

/-- A declared method. Abstract and external methods have no body. -/
structure MethodDef where
  name : String
  flags : UInt32
  returnType : TypeSig
  parameters : List ParameterDef
  genericParameters : List String
  attributes : List Attribute
  body : Option MethodBody
  deriving DecidableEq, Inhabited

namespace MethodDef

def constructorName : String := ".ctor"

def access (method : MethodDef) : UInt32 :=
  method.flags &&& MethodFlag.accessMask

def isStatic (method : MethodDef) : Bool :=
  hasFlag method.flags MethodFlag.static

def isVirtual (method : MethodDef) : Bool :=
  hasFlag method.flags MethodFlag.virtual

/-- Whether the new-slot bit is set, be the method virtual or not. -/
def isNewSlot (method : MethodDef) : Bool :=
  hasFlag method.flags MethodFlag.newSlot

def isAbstract (method : MethodDef) : Bool :=
  hasFlag method.flags MethodFlag.abstract

/-- A virtual method that takes an inherited slot over. -/
def isOverride (method : MethodDef) : Bool :=
  method.isVirtual && !method.isNewSlot

/-- An instance constructor. A static method of that name is not one. -/
def isConstructor (method : MethodDef) : Bool :=
  method.name = constructorName && !method.isStatic

def isCompilerControlled (method : MethodDef) : Bool :=
  method.access = MethodFlag.compilerControlled

def hasAttribute (method : MethodDef) (fullName : String) : Bool :=
  (findAttribute? method.attributes fullName).isSome

def isCompilerGenerated (method : MethodDef) : Bool :=
  method.hasAttribute compilerGeneratedAttribute

/-- Number of argument slots, the receiver included. -/
def argumentCount (method : MethodDef) : Nat :=
  method.parameters.length + (!method.isStatic).toNat

def returnsValue (method : MethodDef) : Bool :=
  !method.returnType.isVoid

def parameterTypes (method : MethodDef) : List TypeSig :=
  method.parameters.map (·.parameterType)

def parameterNames (method : MethodDef) : List String :=
  method.parameterTypes.map TypeSig.fullName

end MethodDef

/-- A declared property. An accessor is an index into the methods of the declaring type. -/
structure PropertyDef where
  name : String
  propertyType : TypeSig
  getter : Option Nat
  setter : Option Nat
  attributes : List Attribute
  deriving DecidableEq, Inhabited

def PropertyDef.accessors (property : PropertyDef) : List Nat :=
  property.getter.toList ++ property.setter.toList

/-! ## Types -/

/-- A declared type. Only the root of the hierarchy has no base. -/
structure TypeDef where
  qualifier : String
  name : String
  flags : UInt32
  base : Option TypeSig
  genericParameters : List String
  fields : List FieldDef
  methods : List MethodDef
  properties : List PropertyDef
  attributes : List Attribute
  deriving DecidableEq, Inhabited

namespace TypeDef

def fullName (type : TypeDef) : String :=
  qualifiedName type.qualifier type.name

def isValueType (type : TypeDef) : Bool :=
  hasFlag type.flags TypeFlag.valueType

def field? (type : TypeDef) (name : String) : Option FieldDef :=
  type.fields.find? fun field => field.name = name

def methodIndex? (type : TypeDef) (name : String) : Option Nat :=
  type.methods.findIdx? fun method => method.name = name

def constructors (type : TypeDef) : List Nat :=
  (List.range type.methods.length).filter fun index =>
    type.methods[index]?.any MethodDef.isConstructor

def attributesNamed (type : TypeDef) (fullName : String) : List Attribute :=
  type.attributes.filter fun attr => attr.fullName = fullName

def addMethod (type : TypeDef) (method : MethodDef) : TypeDef :=
  { type with methods := type.methods ++ [method] }

def modifyMethod (type : TypeDef) (index : Nat) (change : MethodDef → MethodDef) : TypeDef :=
  { type with methods := type.methods.modify index change }

end TypeDef

/-! ## Modules -/

/-- A compiled module. `references` names the modules whose types it mentions. The magic bytes, the
version and the checksum come from the image it was read from. -/
structure Module where
  magic : List UInt8
  version : UInt32
  flags : UInt32
  name : String
  references : List String
  types : List TypeDef
  checksum : List UInt8
  deriving DecidableEq, Inhabited

namespace Module

def expectedMagic : List UInt8 := [0x53, 0x57, 0x4D, 0x44]

def expectedVersion : UInt32 := 1

def isInstrumented (module : Module) : Bool :=
  hasFlag module.flags ModuleFlag.instrumented

def markInstrumented (module : Module) : Module :=
  { module with flags := module.flags ||| ModuleFlag.instrumented }

def typeIndex? (module : Module) (fullName : String) : Option Nat :=
  module.types.findIdx? fun type => type.fullName = fullName

def type? (module : Module) (fullName : String) : Option TypeDef :=
  module.types.find? fun type => type.fullName = fullName

def modifyType (module : Module) (index : Nat) (change : TypeDef → TypeDef) : Module :=
  { module with types := module.types.modify index change }

/-- Whether a scope needs no further entry in the reference table: it is the module itself or is
already listed. -/
def knowsScope (module : Module) (scope : String) : Bool :=
  scope = module.name || module.references.contains scope

def addReference (module : Module) (scope : String) : Module :=
  if module.knowsScope scope then module
  else { module with references := module.references ++ [scope] }

def addReferences (module : Module) (scopes : List String) : Module :=
  scopes.foldl addReference module

end Module

end PropertyWeaver
