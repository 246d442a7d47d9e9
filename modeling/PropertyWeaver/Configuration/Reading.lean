import PropertyWeaver.Configuration.Basic
import PropertyWeaver.Toml.Document

/-!
# Reading a configuration

A configuration is a TOML document. Missing keys keep their defaults and unknown keys are ignored. A
group of names may also be an array, which gives the names by position; a date stands for a group
that sets nothing.
-/

set_option autoImplicit false

namespace PropertyWeaver

namespace Toml.Value

def string? : Value → Option String
  | .string text => some text
  | _ => none

def boolean? : Value → Option Bool
  | .boolean value => some value
  | _ => none

def partOr {α : Type} (default : α) (read : Value → Option α) : Option Value → Option α
  | some value => read value
  | none => some default

/-- The names of a group, given the keys and the defaults in their order. Every name that is given
has to be a string. -/
def names? (group : List (String × String)) : Value → Option (List String)
  | .table entries =>
      group.mapM fun (key, default) => partOr default string? (entries.lookup key)
  | .array items =>
      group.mapIdxM fun position (_, default) => partOr default string? items[position]?
  | .dateTime _ => some (group.map (·.2))
  | _ => none

end Toml.Value

namespace AnnotationNames

def toList (names : AnnotationNames) : List (String × String) :=
  [("type_identifiers", names.typeIdentifiers),
   ("persistent_identifier", names.persistentIdentifier),
   ("default_value", names.defaultValue),
   ("change_notification", names.changeNotification)]

def ofList? : List String → Option AnnotationNames
  | [typeIdentifiers, persistentIdentifier, defaultValue, changeNotification] =>
      some { typeIdentifiers, persistentIdentifier, defaultValue, changeNotification }
  | _ => none

end AnnotationNames

namespace RuntimeNames

def toList (names : RuntimeNames) : List (String × String) :=
  [("module", names.module), ("core_module", names.coreModule),
   ("root_object", names.rootObject), ("mapping_type", names.mappingType),
   ("identifier_type", names.identifierType), ("get_value", names.getValue),
   ("set_value", names.setValue), ("raise_property_changed", names.raisePropertyChanged),
   ("type_query", names.typeQuery), ("equals", names.equals),
   ("mapping_field_suffix", names.mappingFieldSuffix)]

def ofList? : List String → Option RuntimeNames
  | [module, coreModule, rootObject, mappingType, identifierType, getValue, setValue,
      raisePropertyChanged, typeQuery, equals, mappingFieldSuffix] =>
      some {
        module, coreModule, rootObject, mappingType, identifierType, getValue, setValue,
        raisePropertyChanged, typeQuery, equals, mappingFieldSuffix }
  | _ => none

end RuntimeNames

namespace Configuration

open Toml.Value in
/-- The configuration that a TOML document describes; `none` if the text is not TOML or gives a
known key a value of the wrong kind. -/
def ofToml? (text : String) : Option Configuration := do
  match ← Toml.parse? text with
  | .table entries => do
      let defaults : Configuration := {}
      let annotations ← partOr defaults.annotations
        (fun value => do AnnotationNames.ofList? (← names? defaults.annotations.toList value))
        (entries.lookup "annotations")
      let runtime ← partOr defaults.runtime
        (fun value => do RuntimeNames.ofList? (← names? defaults.runtime.toList value))
        (entries.lookup "runtime")
      let verify ← partOr defaults.verify boolean? (entries.lookup "verify")
      return { annotations, runtime, verify }
  | _ => none

end Configuration

end PropertyWeaver
