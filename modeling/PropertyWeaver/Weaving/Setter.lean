import PropertyWeaver.Code.Literal
import PropertyWeaver.Weaving.Context

/-!
# Notifying setters

A synthesized setter compares the current value with the incoming one. If they are equal it returns
at once; otherwise it stores the new value and then calls the notification method with the name of
the property.
-/

set_option autoImplicit false

namespace PropertyWeaver

/-- Where the value of a property is kept: in a field of its own, or behind a mapping field that the
runtime reads and writes. -/
inductive ValueSource where
  | field (member : FieldRef)
  | mapping (member : FieldRef) (getValue setValue : MethodRef)
  deriving DecidableEq

namespace ValueSource

def maxStack : ValueSource → UInt16
  | .field _ => 2
  | .mapping _ _ _ => 4

def load : ValueSource → List Instruction
  | .field member => [Opcode.ldarg0.plain, ⟨.ldfld, .field member⟩]
  | .mapping member getValue _ =>
      [Opcode.ldarg0.plain, Opcode.ldarg0.plain, ⟨.ldfld, .field member⟩,
       ⟨.callvirt, .method getValue⟩]

def store : ValueSource → List Instruction
  | .field member => [Opcode.ldarg0.plain, Opcode.ldarg1.plain, ⟨.stfld, .field member⟩]
  | .mapping member _ setValue =>
      [Opcode.ldarg0.plain, Opcode.ldarg0.plain, ⟨.ldfld, .field member⟩, Opcode.ldarg1.plain,
       ⟨.callvirt, .method setValue⟩]

/-- The type whose equality decides, given the type of the property. -/
def valueType (propertyType : TypeSig) : ValueSource → TypeSig
  | .field member => member.fieldType
  | .mapping _ _ _ => propertyType

end ValueSource

def Equality.compare : Equality → Instruction
  | .primitive => Opcode.ceq.plain
  | .method member => ⟨.call, .method member⟩

/-- The code of a notifying setter, with its labels still open. -/
def setterAssembly (source : ValueSource) (equality : Equality) (notify : MethodRef)
    (propertyName : String) : Assembly :=
  let (store, assembly) := Assembly.empty.defineLabel
  let (exit, assembly) := assembly.defineLabel
  let guarded := assembly.append
    (source.load ++
      [Opcode.ldarg1.plain, equality.compare, .pushInt32 0, Opcode.ceq.plain])
  let branched := (guarded.branch .brtrue store).branch .br exit
  let stored := (branched.mark store).append
    (source.store ++
      [Opcode.ldarg0.plain, .pushString propertyName, ⟨.callvirt, .method notify⟩])
  (stored.mark exit).push Opcode.ret.plain

namespace WeavingContext

/-- The notifying setter of a property. How its values are compared is settled before the
notification method is looked up. -/
def setter (context : WeavingContext) (type : LocatedType) (property : PropertyDef)
    (source : ValueSource) : Except WeaveError MethodBody := do
  let names := context.configuration.runtime
  let valueType := source.valueType property.propertyType
  let equality ← orError
    (.equalityNotResolvable type.fullName property.name valueType.fullName)
    (context.metadata.equality? valueType names.equals names.rootObject)
  let notify ← orError
    (.notificationMethodNotFound type.fullName property.name names.raisePropertyChanged)
    (context.metadata.inheritedMethod? type names.raisePropertyChanged ["System.String"])
  let code ← (setterAssembly source equality notify.methodRef property.name).finish.mapError
    .unboundLabel
  return .ofCode source.maxStack code

end WeavingContext

end PropertyWeaver
