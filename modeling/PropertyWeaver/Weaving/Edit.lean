import PropertyWeaver.Module.Basic

/-!
# Edits

What a task wants changed in one type, and what it reports about it. Methods are named by index;
edits only ever append methods, so indices stay valid.
-/

set_option autoImplicit false

namespace PropertyWeaver

inductive TaskKind where
  | typeHierarchy
  | mappedProperty
  | changeNotification
  deriving DecidableEq, Repr

inductive Edit where
  | replaceBody (method : Nat) (body : MethodBody)
  | prependToConstructor (method : Nat) (block : List Instruction) (maxStack : UInt16)
  | addField (field : FieldDef)
  | removeField (name : String)
  | addMethod (method : MethodDef)
  deriving DecidableEq

structure WovenMember where
  typeName : String
  member : String
  task : TaskKind
  detail : String
  deriving DecidableEq, Repr

/-- The changes that one task makes to one type, in order. -/
structure TypeEdit where
  type : Nat
  edits : List Edit
  woven : Option WovenMember
  deriving DecidableEq

def TypeEdit.none (type : Nat) : TypeEdit := ⟨type, [], Option.none⟩

end PropertyWeaver
