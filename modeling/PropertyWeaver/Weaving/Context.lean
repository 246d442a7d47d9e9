import PropertyWeaver.Metadata.Member
import PropertyWeaver.Weaving.Error

/-!
# What a task sees

A task reads the metadata around the target and the configuration, and what the annotations of a
type or property say. It changes neither.
-/

set_option autoImplicit false

namespace PropertyWeaver

structure WeavingContext where
  metadata : Metadata
  configuration : Configuration

def orError {ε α : Type} (error : ε) : Option α → Except ε α
  | some value => .ok value
  | none => .error error

namespace WeavingContext

/-- The context of a target. Built-in types live in the configured core module. -/
def ofModule (target : Module) (resolver : Resolver) (configuration : Configuration) :
    WeavingContext :=
  ⟨⟨target, resolver, configuration.runtime.coreModule⟩, configuration⟩

def targetType (context : WeavingContext) (index : Nat) : Except WeaveError LocatedType :=
  orError (.typeNotFound (.typeAt index context.metadata.target.name))
    (context.metadata.targetType? index)

def propertyOf (type : LocatedType) (index : Nat) : Except WeaveError PropertyDef :=
  orError (.typeNotFound (.propertyAt type.fullName index)) type.definition.properties[index]?

def runtimeType (context : WeavingContext) (fullName : String) : Except WeaveError LocatedType :=
  let module := context.configuration.runtime.module
  orError (.typeNotFound (.runtimeType module fullName))
    (context.metadata.findType? (some module) fullName)

def mappingType (context : WeavingContext) : Except WeaveError LocatedType :=
  context.runtimeType context.configuration.runtime.mappingType

def identifierType (context : WeavingContext) : Except WeaveError LocatedType :=
  context.runtimeType context.configuration.runtime.identifierType

/-! ## Annotations -/

/-- The identifiers that a type declares itself, in declaration order. -/
def typeIdentifiers (context : WeavingContext) (type : TypeDef) : Except WeaveError (List String) :=
  let name := context.configuration.annotations.typeIdentifiers
  (type.attributesNamed name).mapM fun attr =>
    match attr.arguments with
    | [.string identifier] => .ok identifier
    | _ => .error (.annotationMismatch type.fullName type.name name .oneString)

def persistentIdentifier (context : WeavingContext) (type : TypeDef) (property : PropertyDef) :
    Except WeaveError (Option String) :=
  let name := context.configuration.annotations.persistentIdentifier
  match findAttribute? property.attributes name with
  | none => .ok none
  | some attr =>
      match attr.arguments with
      | [.string identifier] | [.string identifier, .bool _] => .ok (some identifier)
      | _ => .error (.annotationMismatch type.fullName property.name name .stringAndFlag)

def defaultValue (context : WeavingContext) (type : TypeDef) (property : PropertyDef) :
    Except WeaveError (Option Constant) :=
  let name := context.configuration.annotations.defaultValue
  match findAttribute? property.attributes name with
  | none => .ok none
  | some attr =>
      match attr.arguments with
      | [value] => .ok (some value)
      | _ => .error (.annotationMismatch type.fullName property.name name .oneValue)

/-- Refuses to replace an accessor unless a compiler has written it. -/
def checkAccessor (type : TypeDef) (property : PropertyDef) (accessor : Accessor) (method : Nat) :
    Except WeaveError Unit :=
  if type.methods[method]?.any MethodDef.isSynthesized then .ok ()
  else .error (.handWrittenAccessor type.fullName property.name accessor)

end WeavingContext

end PropertyWeaver
