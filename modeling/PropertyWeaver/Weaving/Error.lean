import PropertyWeaver.Code.Assembly
import PropertyWeaver.Module.Constant
import PropertyWeaver.Storage.Resolver
import PropertyWeaver.Verification.Depth

/-!
# Why weaving fails

Every error ends a pass, and the module stays as it was. Types are given by full name.
-/

set_option autoImplicit false

namespace PropertyWeaver

inductive Accessor where
  | getter
  | setter
  deriving DecidableEq, Repr

def Accessor.name : Accessor → String
  | .getter => "get"
  | .setter => "set"

/-- What an annotation was expected to hold. -/
inductive AnnotationShape where
  | oneString
  | stringAndFlag
  | oneValue
  deriving DecidableEq, Repr

def AnnotationShape.message : AnnotationShape → String
  | .oneString => "expected a single string argument"
  | .stringAndFlag => "expected a string and an optional bool"
  | .oneValue => "expected exactly one argument"

inductive MissingType where
  | typeAt (index : Nat) (module : String)
  | propertyAt (type : String) (index : Nat)
  | runtimeType (module fullName : String)
  | oneParameter (type : String)
  deriving DecidableEq, Repr

def MissingType.message : MissingType → String
  | .typeAt index module => "#" ++ toString index ++ " in " ++ module
  | .propertyAt type index => type ++ " property #" ++ toString index
  | .runtimeType module fullName => "[" ++ module ++ "]" ++ fullName
  | .oneParameter type => type ++ " with one generic parameter"

/-- Why a module could not be woven. -/
inductive WeaveError where
  | handWrittenAccessor (type property : String) (accessor : Accessor)
  | missingBackingField (type property : String)
  | mappingApiNotFound (type property method mappingType : String)
  | notificationMethodNotFound (type property method : String)
  | equalityNotResolvable (type property valueType : String)
  | unsupportedDefaultValue (type property : String) (kind : ConstantKind)
  | missingTypeIdentifiers (type method : String)
  | queryMethodNotFound (type method : String)
  | mappingConstructorNotFound (type mappingType : String) (parameters : List String)
  | identifierConstructorNotFound (type identifierType : String)
  | annotationMismatch (type owner annotationName : String) (expected : AnnotationShape)
  | typeNotFound (missing : MissingType)
  | fieldNameCollision (type field existing : String)
  | unboundLabel (label : Label)
  | verification (error : VerifyError)
  | storage (error : StorageError)
  deriving DecidableEq, Repr

def WeaveError.message : WeaveError → String
  | .handWrittenAccessor type property accessor =>
      type ++ "." ++ property ++ ": refusing to rewrite hand-written " ++ accessor.name ++
        " accessor"
  | .missingBackingField type property =>
      type ++ "." ++ property ++ ": no compiler-generated backing field found in setter"
  | .mappingApiNotFound type property method mappingType =>
      type ++ "." ++ property ++ ": no " ++ method ++ " method accepting " ++ mappingType ++
        " found in type hierarchy"
  | .notificationMethodNotFound type property method =>
      type ++ "." ++ property ++ ": notification method " ++ method ++
        "(System.String) not found in type hierarchy"
  | .equalityNotResolvable type property valueType =>
      type ++ "." ++ property ++ ": cannot resolve an equality check for " ++ valueType
  | .unsupportedDefaultValue type property kind =>
      type ++ "." ++ property ++ ": unsupported default value of type " ++ kind.name
  | .missingTypeIdentifiers type method =>
      type ++ ": mapped type declares no type identifiers and no " ++ method ++
        " override exists in its hierarchy"
  | .queryMethodNotFound type method =>
      type ++ ": no virtual " ++ method ++ " declaration found in base types"
  | .mappingConstructorNotFound type mappingType parameters =>
      type ++ ": " ++ mappingType ++ " has no constructor taking (" ++
        ",".intercalate parameters ++ ")"
  | .identifierConstructorNotFound type identifierType =>
      type ++ ": identifier type " ++ identifierType ++ " has no constructor taking (System.String)"
  | .annotationMismatch type owner annotationName expected =>
      type ++ "." ++ owner ++ ": invalid " ++ annotationName ++ " annotation: " ++ expected.message
  | .typeNotFound missing => "type " ++ missing.message ++ " could not be resolved"
  | .fieldNameCollision type field existing =>
      type ++ ": field " ++ field ++ " already exists with type " ++ existing
  | .unboundLabel label => "unbound label " ++ toString label ++ " in synthesized body"
  | .verification error => "verification failed: " ++ error.message
  | .storage error => error.message

end PropertyWeaver
