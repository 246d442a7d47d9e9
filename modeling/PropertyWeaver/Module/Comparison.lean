import PropertyWeaver.Module.Basic

/-!
# Comparing declarations by value

Two declarations have the same value if they agree everywhere and their floats are equal as numbers.
So a declaration that holds a NaN does not even have the same value as itself, and the zeros are not
told apart. Equality of the structures, in contrast, compares the words of floats.
-/

set_option autoImplicit false

namespace PropertyWeaver

/-- Whether two lists have one length and agree item by item. -/
def agreeItemwise {α : Type} (agree : α → α → Bool) (left right : List α) : Bool :=
  left.length = right.length && (left.zip right).all fun (left, right) => agree left right

def Operand.sameValue : Operand → Operand → Bool
  | .float32 left, .float32 right => left.value.sameNumber right.value
  | .float64 left, .float64 right => left.value.sameNumber right.value
  | left, right => left = right

def Instruction.sameValue (left right : Instruction) : Bool :=
  left.opcode = right.opcode && left.operand.sameValue right.operand

def MethodBody.sameValue (left right : MethodBody) : Bool :=
  left.maxStack = right.maxStack && left.locals = right.locals &&
    left.initLocals = right.initLocals &&
    agreeItemwise Instruction.sameValue left.instructions right.instructions

def Attribute.sameValue (left right : Attribute) : Bool :=
  left.type = right.type && agreeItemwise Constant.sameValue left.arguments right.arguments

def FieldDef.sameValue (left right : FieldDef) : Bool :=
  { left with attributes := [] } = { right with attributes := [] } &&
    agreeItemwise Attribute.sameValue left.attributes right.attributes

def MethodDef.sameValue (left right : MethodDef) : Bool :=
  { left with attributes := [], body := none } = { right with attributes := [], body := none } &&
    agreeItemwise Attribute.sameValue left.attributes right.attributes &&
    agreeItemwise MethodBody.sameValue left.body.toList right.body.toList

def PropertyDef.sameValue (left right : PropertyDef) : Bool :=
  { left with attributes := [] } = { right with attributes := [] } &&
    agreeItemwise Attribute.sameValue left.attributes right.attributes

def TypeDef.sameValue (left right : TypeDef) : Bool :=
  { left with fields := [], methods := [], properties := [], attributes := [] } =
      { right with fields := [], methods := [], properties := [], attributes := [] } &&
    agreeItemwise FieldDef.sameValue left.fields right.fields &&
    agreeItemwise MethodDef.sameValue left.methods right.methods &&
    agreeItemwise PropertyDef.sameValue left.properties right.properties &&
    agreeItemwise Attribute.sameValue left.attributes right.attributes

end PropertyWeaver
