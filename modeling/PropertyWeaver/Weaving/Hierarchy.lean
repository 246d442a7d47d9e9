import PropertyWeaver.Code.Literal
import PropertyWeaver.Weaving.Context
import PropertyWeaver.Weaving.Edit

/-!
# Type-hierarchy queries

A type with identifiers overrides the query of its bases by a method that returns a fresh array: one
wrapper for each identifier, the type's own first and then those of its bases.
-/

set_option autoImplicit false

namespace PropertyWeaver.WeavingContext

/-- Whether a type of the target does not declare the query as an instance method yet. -/
def canOverrideQuery (context : WeavingContext) (type : Nat) : Bool :=
  context.metadata.target.types[type]?.any fun definition =>
    !definition.methods.any fun method =>
      method.name = context.configuration.runtime.typeQuery && method.parameters.isEmpty &&
        !method.isStatic

def queryDeclaration? (query : String) (type : LocatedType) : Option LocatedMethod :=
  type.methods.find? fun method =>
    method.definition.name = query && method.definition.parameters.isEmpty &&
      method.definition.isVirtual

def hasQueryOverride (context : WeavingContext) (type : LocatedType) (query : String) : Bool :=
  (context.metadata.chain type).any fun level =>
    level.definition.methods.any fun method =>
      method.name = query && method.parameters.isEmpty && method.isOverride

/-- Code that stores one wrapper in the array on the stack and leaves the array there. -/
def storeIdentifier (constructor : MethodRef) (index : Nat) (identifier : String) :
    List Instruction :=
  [Opcode.dup.plain, .pushInt32 (Int32.ofNat index), .pushString identifier,
   ⟨.newobj, .method constructor⟩, Opcode.stelemRef.plain]

/-- The code of the query, with its label still open. -/
def queryAssembly (element : TypeSig) (constructor : MethodRef) (identifiers : List String) :
    Assembly :=
  let (exit, assembly) := Assembly.empty.defineLabel
  let filled := assembly.append
    ([.pushInt32 (Int32.ofNat identifiers.length), ⟨.newarr, .type element⟩] ++
      (identifiers.mapIdx (storeIdentifier constructor)).flatten ++ [.storeLocal 0])
  ((filled.branch .br exit).mark exit).append [.loadLocal 0, Opcode.ret.plain]

/-- Flags of the override: those of the declaration, but virtual, in the inherited slot and with a
body. -/
def overrideFlags (flags : UInt32) : UInt32 :=
  (flags &&& ~~~(MethodFlag.newSlot ||| MethodFlag.abstract)) |||
    MethodFlag.virtual ||| MethodFlag.hideBySig

/-- Adds the override to a type that declares identifiers. A type without any is left alone if it
inherits an override. -/
def overrideQuery (context : WeavingContext) (typeIndex : Nat) : Except WeaveError TypeEdit := do
  let type ← context.targetType typeIndex
  let query := context.configuration.runtime.typeQuery
  let own ← context.typeIdentifiers type.definition
  if own.isEmpty then
    if context.hasQueryOverride type query then
      return TypeEdit.none typeIndex
    else
      throw (.missingTypeIdentifiers type.fullName query)
  else
    let chain := context.metadata.chain type
    let identifiers ← chain.mapM fun level => context.typeIdentifiers level.definition
    let identifiers := identifiers.flatten
    let declaration ← orError (.queryMethodNotFound type.fullName query)
      (chain.tail.findSome? (queryDeclaration? query))
    let wrapper ← context.identifierType
    let constructor ← orError
      (.identifierConstructorNotFound type.fullName wrapper.fullName)
      (context.metadata.constructor? wrapper ["System.String"])
    let code ← (queryAssembly wrapper.sig constructor.methodRef identifiers).finish.mapError
      .unboundLabel
    let returnType := declaration.definition.returnType.qualify declaration.owner.scope
    let method : MethodDef :=
      { name := query
        flags := overrideFlags declaration.definition.flags
        returnType := returnType
        parameters := []
        genericParameters := []
        attributes := []
        body := some ⟨4, [returnType], true, code⟩ }
    return {
      type := typeIndex
      edits := [.addMethod method]
      woven := some ⟨type.fullName, query, .typeHierarchy, Text.bracketed identifiers⟩ }

end PropertyWeaver.WeavingContext
