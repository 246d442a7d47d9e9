import PropertyWeaver.Module.Basic
import PropertyWeaver.Signature.Member
import PropertyWeaver.Storage.Resolver

/-!
# Looking types up

Metadata is the target module together with the modules it refers to. A type that is found comes
with the scope in which it lives, seen from the target: no scope for the target's own types. Looking
up fails by `none`; whether a miss matters is for the caller to say.
-/

set_option autoImplicit false

namespace PropertyWeaver

/-- The target, the modules around it, and the name of the module that declares built-in types. -/
structure Metadata where
  target : Module
  resolver : Resolver
  coreModule : String

structure LocatedType where
  definition : TypeDef
  scope : Option String
  deriving DecidableEq

namespace LocatedType

def fullName (type : LocatedType) : String :=
  type.definition.fullName

def typeRef (type : LocatedType) : TypeRef :=
  ⟨type.scope, type.definition.qualifier, type.definition.name⟩

/-- The signature of the type, as the target writes it. A generic definition is instantiated over
its own parameters. -/
def sig (type : LocatedType) : TypeSig :=
  let definition := type.definition
  if !definition.genericParameters.isEmpty then
    .instantiated type.typeRef definition.isValueType
      (definition.genericParameters.map TypeSig.typeParameter)
  else if definition.isValueType then
    .valueType type.typeRef
  else
    .classType type.typeRef

def isLocal (type : LocatedType) : Bool :=
  type.scope.isNone

end LocatedType

namespace Metadata

/-- The module that a scope means, and the scope that its types are given. No scope, or the target's
own name, means the target. -/
def module? (metadata : Metadata) : Option String → Option (Module × Option String)
  | none => some (metadata.target, none)
  | some name =>
      if name = metadata.target.name then some (metadata.target, none)
      else (metadata.resolver.find? name).map fun module => (module, some module.name)

def targetType? (metadata : Metadata) (index : Nat) : Option LocatedType :=
  metadata.target.types[index]?.map fun definition => ⟨definition, none⟩

def findType? (metadata : Metadata) (scope : Option String) (fullName : String) :
    Option LocatedType := do
  let (module, scope) ← metadata.module? scope
  let definition ← module.type? fullName
  return ⟨definition, scope⟩

/-- The type that a reference stored in the module `origin` names. -/
def resolve? (metadata : Metadata) (origin : Option String) (type : TypeRef) :
    Option LocatedType :=
  metadata.findType? (type.scope <|> origin) type.fullName

/-- The type behind a signature stored in the module `origin`. Built-in types and arrays are looked
up in the core module; generic parameters have no type. -/
def resolveSig? (metadata : Metadata) (origin : Option String) (sig : TypeSig) :
    Option LocatedType :=
  match sig.typeRef? with
  | some type => metadata.resolve? origin type
  | none =>
      if sig.isGenericParameter then none
      else metadata.findType? (some metadata.coreModule) sig.fullName

def base? (metadata : Metadata) (type : LocatedType) : Option LocatedType := do
  metadata.resolveSig? type.scope (← type.definition.base)

def typeCount (metadata : Metadata) : Nat :=
  metadata.target.types.length +
    (metadata.resolver.modules.flatMap fun (_, module) => module.types).length

/-- A type and at most `limit` of its bases, each the base of the one before. -/
def chainUpTo (metadata : Metadata) : (limit : Nat) → LocatedType → List LocatedType
  | 0, type => [type]
  | limit + 1, type =>
      match metadata.base? type with
      | some base => type :: metadata.chainUpTo limit base
      | none => [type]

/-- A type followed by its bases, the most derived first. The number of types bounds a chain that
does not run in circles. -/
def chain (metadata : Metadata) (type : LocatedType) : List LocatedType :=
  metadata.chainUpTo metadata.typeCount type

end Metadata

end PropertyWeaver
