import PropertyWeaver.Weaving.Edit
import PropertyWeaver.Weaving.Setter

/-!
# Mapped properties

A property with a persistent identifier is kept behind a mapping field of the runtime. The field is
injected, every instance constructor initialises it, and both accessors go through the runtime. The
backing field goes if nothing else in the type uses it.
-/

set_option autoImplicit false

namespace PropertyWeaver.WeavingContext

def canMap (context : WeavingContext) (type property : Nat) : Bool :=
  (context.metadata.target.types[type]?.bind fun definition => definition.properties[property]?).any
    fun property => property.getter.isSome || property.setter.isSome

/-- The generic parameter of the mapping type, which has to be its only one. -/
def mappingParameter (mapping : LocatedType) : Except WeaveError String :=
  match mapping.definition.genericParameters with
  | [parameter] => .ok parameter
  | _ => .error (.typeNotFound (.oneParameter mapping.fullName))

structure MappingApi where
  getValue : LocatedMethod
  setValue : LocatedMethod

def mappingApi (context : WeavingContext) (type : LocatedType) (property : PropertyDef)
    (mapping : LocatedType) : Except WeaveError MappingApi := do
  let names := context.configuration.runtime
  let parameter ← mappingParameter mapping
  let find (name : String) (arguments : List TypeSig) : Except WeaveError LocatedMethod :=
    orError (.mappingApiNotFound type.fullName property.name name mapping.sig.fullName)
      (context.metadata.inheritedGenericMethod? type name arguments)
  let getValue ← find names.getValue [mapping.sig]
  let setValue ← find names.setValue [mapping.sig, .typeParameter parameter]
  return ⟨getValue, setValue⟩

def mappedGetter (field : FieldRef) (getValue : MethodRef) : MethodBody :=
  .ofCode 2
    [Opcode.ldarg0.plain, Opcode.ldarg0.plain, ⟨.ldfld, .field field⟩,
     ⟨.callvirt, .method getValue⟩, Opcode.ret.plain]

/-- Whether a method other than the accessors of a property mentions a field of the given name. -/
def usesFieldElsewhere (type : TypeDef) (property : PropertyDef) (name : String) : Bool :=
  (List.range type.methods.length).any fun index =>
    index ∉ property.accessors &&
      (type.methods[index]?.bind (·.body)).any fun body =>
        body.instructions.any fun instruction =>
          instruction.field?.any fun field => field.name = name

/-- The backing field that may go: the type declares it, a compiler has added it, and only the
accessors mention a field of its name. -/
def removableBackingField? (type : TypeDef) (property : PropertyDef) : Option String := do
  let backing ← type.backingField? property
  let field ← type.field? backing.name
  if field.isCompilerGenerated && !usesFieldElsewhere type property backing.name then
    some backing.name
  else
    none

/-- Code that pushes the default value of a property; no code if it has none. -/
def defaultCode (context : WeavingContext) (type : LocatedType) (property : PropertyDef) :
    Except WeaveError (Option (List Instruction)) := do
  match ← context.defaultValue type.definition property with
  | none => return none
  | some value => do
      let code ← orError (.unsupportedDefaultValue type.fullName property.name value.kind)
        value.push?
      return some code

/-- The code that initialises a mapping field, and the stack it needs: the mapping object is made
from the name of the property, its identifier and its default value if it has one. -/
def constructorBlock (context : WeavingContext) (type : LocatedType) (property : PropertyDef)
    (mapping : LocatedType) (identifier : String) (field : FieldRef) :
    Except WeaveError (List Instruction × UInt16) := do
  let default ← context.defaultCode type property
  let parameter ← mappingParameter mapping
  let parameters :=
    ["System.String", "System.String"] ++ (if default.isSome then [parameter] else [])
  let constructor ← orError
    (.mappingConstructorNotFound type.fullName mapping.fullName parameters)
    (context.metadata.constructor? mapping parameters)
  let code :=
    [Opcode.ldarg0.plain, .pushString property.name, .pushString identifier] ++ default.getD [] ++
      [⟨.newobj, .method (constructor.methodRef.bindTo field.fieldType)⟩, ⟨.stfld, .field field⟩]
  return (code, if default.isSome then 4 else 3)

def routeThrough (context : WeavingContext) (typeIndex : Nat) (type : LocatedType)
    (property : PropertyDef) (mapping : LocatedType) (identifier : String) (fieldName : String)
    (fieldType : TypeSig) : Except WeaveError TypeEdit := do
  let api ← context.mappingApi type property mapping
  let field : FieldRef := ⟨type.sig, fieldName, fieldType⟩
  let getValue := api.getValue.instantiate [property.propertyType]
  let setValue := api.setValue.instantiate [property.propertyType]
  let getterEdits := property.getter.toList.map fun getter =>
    Edit.replaceBody getter (mappedGetter field getValue)
  let setterEdits ← property.setter.toList.mapM fun setter => do
    return Edit.replaceBody setter
      (← context.setter type property (.mapping field getValue setValue))
  let removals := (removableBackingField? type.definition property).toList.map Edit.removeField
  let (code, maxStack) ← context.constructorBlock type property mapping identifier field
  let preludes := type.definition.constructors.map fun constructor =>
    Edit.prependToConstructor constructor code maxStack
  return {
    type := typeIndex
    edits :=
      .addField ⟨fieldName, FieldFlag.privateAccess, fieldType, []⟩ :: getterEdits ++ setterEdits ++
        removals ++ preludes
    woven := some ⟨type.fullName, property.name, .mappedProperty, identifier⟩ }

/-- Routes a property with a persistent identifier through a mapping field. Nothing is done if it
has no identifier or its mapping field is already there; a field of that name and another type is an
error. -/
def mapProperty (context : WeavingContext) (typeIndex propertyIndex : Nat) :
    Except WeaveError TypeEdit := do
  let type ← context.targetType typeIndex
  let property ← propertyOf type propertyIndex
  match ← context.persistentIdentifier type.definition property with
  | none => return TypeEdit.none typeIndex
  | some identifier => do
      property.getter.toList.forM (checkAccessor type.definition property .getter)
      property.setter.toList.forM (checkAccessor type.definition property .setter)
      let mapping ← context.mappingType
      let fieldName := context.configuration.mappingFieldName property.name
      let fieldType := TypeSig.instantiated mapping.typeRef false [property.propertyType]
      match type.definition.field? fieldName with
      | none =>
          context.routeThrough typeIndex type property mapping identifier fieldName fieldType
      | some existing =>
          if existing.fieldType = fieldType then
            return TypeEdit.none typeIndex
          else
            throw (.fieldNameCollision type.fullName fieldName existing.fieldType.fullName)

end PropertyWeaver.WeavingContext
