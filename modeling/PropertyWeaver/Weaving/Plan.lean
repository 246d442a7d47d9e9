import PropertyWeaver.Weaving.Hierarchy
import PropertyWeaver.Weaving.MappedProperty
import PropertyWeaver.Weaving.Notification

/-!
# Planning

Which tasks a type needs, and the order in which the types of a module are visited. Bases come
before the types derived from them, so a task sees what has been added to them.
-/

set_option autoImplicit false

namespace PropertyWeaver

/-- A unit of work. Types and properties are given by index. -/
inductive Task where
  | mappedProperty (type property : Nat)
  | changeNotification (type property : Nat)
  | typeHierarchy (type : Nat)
  deriving DecidableEq, Repr

namespace Task

def kind : Task → TaskKind
  | .mappedProperty _ _ => .mappedProperty
  | .changeNotification _ _ => .changeNotification
  | .typeHierarchy _ => .typeHierarchy

def canExecute (context : WeavingContext) : Task → Bool
  | .mappedProperty type property => context.canMap type property
  | .changeNotification type property => context.canNotify type property
  | .typeHierarchy type => context.canOverrideQuery type

/-- The edits of the task, whether it applies or not. -/
def execute (context : WeavingContext) : Task → Except WeaveError TypeEdit
  | .mappedProperty type property => context.mapProperty type property
  | .changeNotification type property => context.notifyChanges type property
  | .typeHierarchy type => context.overrideQuery type

end Task

def Configuration.requests (configuration : Configuration) (attributes : List Attribute)
    (kind : AnnotationKind) : Bool :=
  attributes.any fun attr => configuration.annotationKind? attr.fullName = some kind

namespace TypeDef

def mapsProperty (configuration : Configuration) (property : PropertyDef) : Bool :=
  configuration.requests property.attributes .persistentIdentifier

/-- Whether a property that is not mapped is to notify: because it asks for it, or because its type
does and its setter is synthesized. -/
def notifiesProperty (configuration : Configuration) (type : TypeDef) (property : PropertyDef) :
    Bool :=
  configuration.requests property.attributes .changeNotification ||
    (configuration.requests type.attributes .changeNotification &&
      (property.setter.bind fun setter => type.methods[setter]?).any MethodDef.isSynthesized)

def propertiesWhere (type : TypeDef) (quality : PropertyDef → Bool) : List Nat :=
  (List.range type.properties.length).filter fun index => type.properties[index]?.any quality

def mappedProperties (configuration : Configuration) (type : TypeDef) : List Nat :=
  type.propertiesWhere (mapsProperty configuration)

/-- The properties to notify. Mapped ones notify anyway and are not among them. -/
def notifyingProperties (configuration : Configuration) (type : TypeDef) : List Nat :=
  type.propertiesWhere fun property =>
    !mapsProperty configuration property && notifiesProperty configuration type property

end TypeDef

namespace Module

/-- The tasks of a type in the order in which they run: mapped properties, notifying setters, and
the query override if the type asks for it or has mapped properties. -/
def plan (configuration : Configuration) (module : Module) (typeIndex : Nat) : List Task :=
  match module.types[typeIndex]? with
  | none => []
  | some type =>
      let mapped := type.mappedProperties configuration
      let hierarchy :=
        configuration.requests type.attributes .typeIdentifiers || !mapped.isEmpty
      mapped.map (.mappedProperty typeIndex) ++
        (type.notifyingProperties configuration).map (.changeNotification typeIndex) ++
        (if hierarchy then [.typeHierarchy typeIndex] else [])

def localBase? (module : Module) (typeIndex : Nat) : Option Nat := do
  let type ← module.types[typeIndex]?
  let base ← (← type.base).typeRef?
  match base.scope with
  | none => module.typeIndex? base.fullName
  | some scope => if scope = module.name then module.typeIndex? base.fullName else none

/-- Number of steps to the last local base, at most `limit`. -/
def baseDepthUpTo (module : Module) : (limit : Nat) → (typeIndex : Nat) → Nat
  | 0, _ => 0
  | limit + 1, typeIndex =>
      match module.localBase? typeIndex with
      | none => 0
      | some base => baseDepthUpTo module limit base + 1

/-- Number of local bases above a type. Where bases run in circles it is the number of types. -/
def baseDepth (module : Module) (typeIndex : Nat) : Nat :=
  module.baseDepthUpTo module.types.length typeIndex

/-- The indices of all types, bases before derived types. Types of one depth keep their order. -/
def baseFirstOrder (module : Module) : List Nat :=
  (List.range module.types.length).mergeSort fun left right =>
    decide (module.baseDepth left ≤ module.baseDepth right)

end Module

end PropertyWeaver
