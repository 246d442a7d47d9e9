/-!
# Configuration

The names by which the weaver recognises annotations and finds the runtime that woven code calls,
and whether woven code is verified.
-/

set_option autoImplicit false

namespace PropertyWeaver

structure AnnotationNames where
  typeIdentifiers : String := "Semweave.Mapping.RdfClassAttribute"
  persistentIdentifier : String := "Semweave.Mapping.RdfPropertyAttribute"
  defaultValue : String := "System.ComponentModel.DefaultValueAttribute"
  changeNotification : String := "Semweave.Mapping.NotifyPropertyChangedAttribute"
  deriving DecidableEq, Repr

/-- Modules, types and members of the runtime. Types are given by full name. -/
structure RuntimeNames where
  module : String := "Semweave.Runtime"
  coreModule : String := "System.Runtime"
  rootObject : String := "System.Object"
  mappingType : String := "Semweave.Mapping.PropertyMapping`1"
  identifierType : String := "Semweave.Class"
  getValue : String := "GetValue"
  setValue : String := "SetValue"
  raisePropertyChanged : String := "RaisePropertyChanged"
  typeQuery : String := "GetTypes"
  equals : String := "Equals"
  mappingFieldSuffix : String := "Mapping"
  deriving DecidableEq, Repr

structure Configuration where
  annotations : AnnotationNames := {}
  runtime : RuntimeNames := {}
  verify : Bool := true
  deriving DecidableEq, Repr

/-- The annotations that ask for something to be woven. A default value alone does not. -/
inductive AnnotationKind where
  | typeIdentifiers
  | persistentIdentifier
  | changeNotification
  deriving DecidableEq, Repr

namespace Configuration

/-- What an attribute asks for, by the full name of its type. Names are compared in the order of the
kinds, so a name configured twice means the earlier kind. -/
def annotationKind? (configuration : Configuration) (fullName : String) : Option AnnotationKind :=
  if fullName = configuration.annotations.typeIdentifiers then some .typeIdentifiers
  else if fullName = configuration.annotations.persistentIdentifier then some .persistentIdentifier
  else if fullName = configuration.annotations.changeNotification then some .changeNotification
  else none

def mappingFieldName (configuration : Configuration) (property : String) : String :=
  property ++ configuration.runtime.mappingFieldSuffix

end Configuration

end PropertyWeaver
