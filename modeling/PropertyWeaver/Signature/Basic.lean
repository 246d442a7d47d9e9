/-!
# Type references and type signatures

A `TypeRef` names a type, and a `TypeSig` describes the type of a value, a member or an argument.
A reference without a scope always means the module in which the reference is stored.
-/

set_option autoImplicit false

namespace PropertyWeaver

def qualifiedName (qualifier name : String) : String :=
  if qualifier.isEmpty then name else qualifier ++ "." ++ name

/-- A named type. The simple name includes any generic arity suffix. -/
structure TypeRef where
  scope : Option String
  qualifier : String
  name : String
  deriving DecidableEq, Repr, Inhabited

/-- Types that need no declaration to be named. -/
inductive Builtin where
  | void | bool | char | int8 | uint8 | int16 | uint16 | int32 | uint32 | int64 | uint64 | float32
  | float64 | string | object
  deriving DecidableEq, Repr, Inhabited

/-- The shape of a type. Arguments of an instantiated definition are not required to agree in number
with its parameters. -/
inductive TypeSig where
  | builtin (type : Builtin)
  | classType (type : TypeRef)
  | valueType (type : TypeRef)
  | instantiated (definition : TypeRef) (isValue : Bool) (arguments : List TypeSig)
  | typeParameter (name : String)
  | methodParameter (name : String)
  | array (element : TypeSig)
  deriving Repr, Inhabited

/-! ## Text -/

/-- Splits a list at the last occurrence of a separator, which belongs to neither part. -/
def splitAtLast? (separator : Char) : List Char → Option (List Char × List Char)
  | [] => none
  | c :: rest =>
      match splitAtLast? separator rest with
      | some (before, after) => some (c :: before, after)
      | none => if c = separator then some ([], rest) else none

namespace TypeRef

def fullName (type : TypeRef) : String :=
  qualifiedName type.qualifier type.name

/-- The reference that a dotted full name spells: all before the last dot is the namespace. -/
def ofFullName (scope : Option String) (fullName : String) : TypeRef :=
  match splitAtLast? '.' fullName.toList with
  | some (qualifier, name) => ⟨scope, String.ofList qualifier, String.ofList name⟩
  | none => ⟨scope, "", fullName⟩

def display (type : TypeRef) : String :=
  match type.scope with
  | some scope => "[" ++ scope ++ "]" ++ type.fullName
  | none => type.fullName

end TypeRef

def Builtin.fullName : Builtin → String
  | .void => "System.Void"
  | .bool => "System.Boolean"
  | .char => "System.Char"
  | .int8 => "System.SByte"
  | .uint8 => "System.Byte"
  | .int16 => "System.Int16"
  | .uint16 => "System.UInt16"
  | .int32 => "System.Int32"
  | .uint32 => "System.UInt32"
  | .int64 => "System.Int64"
  | .uint64 => "System.UInt64"
  | .float32 => "System.Single"
  | .float64 => "System.Double"
  | .string => "System.String"
  | .object => "System.Object"

namespace TypeSig

mutual

/-- Full name as metadata shows it. Scopes do not appear in it. -/
def fullName : TypeSig → String
  | .builtin type => type.fullName
  | .classType type | .valueType type => type.fullName
  | .instantiated definition _ arguments =>
      definition.fullName ++ "<" ++ ",".intercalate (fullNames arguments) ++ ">"
  | .typeParameter name | .methodParameter name => name
  | .array element => element.fullName ++ "[]"

def fullNames : List TypeSig → List String
  | [] => []
  | sig :: rest => sig.fullName :: fullNames rest

end

@[simp]
theorem fullNames_eq_map (sigs : List TypeSig) : fullNames sigs = sigs.map fullName := by
  induction sigs with
  | nil => rfl
  | cons sig rest ih => simp [fullNames, ih]

/-! ## Classification -/

def ofFullName (scope : Option String) (fullName : String) : TypeSig :=
  .classType (TypeRef.ofFullName scope fullName)

/-- The signature without array dimensions and generic arguments. -/
def elementType : TypeSig → TypeSig
  | .instantiated definition true _ => .valueType definition
  | .instantiated definition false _ => .classType definition
  | .array element => element.elementType
  | sig => sig

/-- The named type behind the signature. Built-in types, parameters and arrays have none. -/
def typeRef? : TypeSig → Option TypeRef
  | .classType type | .valueType type | .instantiated type _ _ => some type
  | _ => none

/-- Built-in types whose values are compared bit by bit: the numbers, characters and booleans. -/
def isPrimitive : TypeSig → Bool
  | .builtin .void | .builtin .string | .builtin .object => false
  | .builtin _ => true
  | _ => false

def isValueType : TypeSig → Bool
  | .valueType _ => true
  | .instantiated _ isValue _ => isValue
  | sig => sig.isPrimitive

def isGenericParameter : TypeSig → Bool
  | .typeParameter _ | .methodParameter _ => true
  | _ => false

def isVoid : TypeSig → Bool
  | .builtin .void => true
  | _ => false

/-! ## Decidable equality -/

mutual

def same : TypeSig → TypeSig → Bool
  | .builtin left, .builtin right => left = right
  | .classType left, .classType right => left = right
  | .valueType left, .valueType right => left = right
  | .instantiated left isValue arguments, .instantiated right isValue' arguments' =>
      left = right && isValue = isValue' && sameAll arguments arguments'
  | .typeParameter left, .typeParameter right => left = right
  | .methodParameter left, .methodParameter right => left = right
  | .array left, .array right => left.same right
  | _, _ => false

def sameAll : List TypeSig → List TypeSig → Bool
  | [], [] => true
  | left :: lefts, right :: rights => left.same right && sameAll lefts rights
  | _, _ => false

end

mutual

theorem same_iff_eq : (left right : TypeSig) → (left.same right = true ↔ left = right)
  | .builtin _, right => by cases right <;> simp [same]
  | .classType _, right => by cases right <;> simp [same]
  | .valueType _, right => by cases right <;> simp [same]
  | .instantiated _ _ arguments, right => by
      cases right <;> simp [same, sameAll_iff_eq arguments, and_assoc]
  | .typeParameter _, right => by cases right <;> simp [same]
  | .methodParameter _, right => by cases right <;> simp [same]
  | .array element, right => by cases right <;> simp [same, same_iff_eq element]

theorem sameAll_iff_eq :
    (lefts rights : List TypeSig) → (sameAll lefts rights = true ↔ lefts = rights)
  | [], rights => by cases rights <;> simp [sameAll]
  | left :: lefts, rights => by
      cases rights <;> simp [sameAll, same_iff_eq left, sameAll_iff_eq lefts]

end

instance : DecidableEq TypeSig :=
  fun left right => decidable_of_iff (left.same right = true) (same_iff_eq left right)

end TypeSig

end PropertyWeaver
