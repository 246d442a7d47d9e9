import PropertyWeaver.Image.Reader
import PropertyWeaver.Image.Tag
import PropertyWeaver.Module.Basic

/-!
# Decoders

The payload of an image is a tree of nodes. The decoder of a kind of node says what such a node is
made of: tokens, single nodes and sequences of nodes, in their order, and the value that they make.
It only names the kinds of its parts, so nested data is described without recursion; and it is data,
so each format is stated once and carried out in whatever way is wanted.
-/

set_option autoImplicit false

namespace PropertyWeaver

/-- The forms that have no parts. -/
inductive Token where
  | uint8 | uint16 | uint32 | uint64 | int32 | int64 | float32 | float64
  | bool | varint | string | opcode | typeForm | constantKind
  deriving DecidableEq, Repr

namespace Token

abbrev Value : Token → Type
  | .uint8 => UInt8
  | .uint16 => UInt16
  | .uint32 => UInt32
  | .uint64 => UInt64
  | .int32 | .varint => Int32
  | .int64 => Int64
  | .float32 => Binary32
  | .float64 => Binary64
  | .bool => Bool
  | .string => String
  | .opcode => Opcode
  | .typeForm => TypeForm
  | .constantKind => ConstantKind

def read : (token : Token) → Reader token.Value
  | .uint8 => Reader.uint8
  | .uint16 => Reader.uint16
  | .uint32 => Reader.uint32
  | .uint64 => Reader.uint64
  | .int32 => Reader.int32
  | .int64 => Reader.int64
  | .float32 => Reader.float32
  | .float64 => Reader.float64
  | .bool => Reader.bool
  | .varint => Reader.varint
  | .string => Reader.string
  | .opcode => Reader.opcode
  | .typeForm => Reader.coded TypeForm.ofTag? (.invalidTag .typeSignature)
  | .constantKind => Reader.coded ConstantKind.ofTag? (.invalidTag .constant)

end Token

/-- The kinds of node. The tables are the name of a module, its references and its types. A node has
nodes of earlier kinds in it, and of its own kind only behind a tag. -/
inductive NodeKind where
  | string | typeRef | typeSig | fieldRef | methodRef | instruction | body | constant | attr
  | field | parameter | method | property | type | tables
  deriving DecidableEq, Repr

abbrev NodeKind.Value : NodeKind → Type
  | .string => String
  | .typeRef => TypeRef
  | .typeSig => TypeSig
  | .fieldRef => FieldRef
  | .methodRef => MethodRef
  | .instruction => Instruction
  | .body => MethodBody
  | .constant => Constant
  | .attr => Attribute
  | .field => FieldDef
  | .parameter => ParameterDef
  | .method => MethodDef
  | .property => PropertyDef
  | .type => TypeDef
  | .tables => String × List String × List TypeDef

/-- What is read one after the other. A sequence of nodes stands behind their number. -/
inductive Decoder (α : Type) where
  | done (value : α)
  | token (form : Token) (next : form.Value → Decoder α)
  | node (kind : NodeKind) (next : kind.Value → Decoder α)
  | sequence (kind : NodeKind) (next : List kind.Value → Decoder α)

/-- How tokens and numbers of nodes are read, and what is done where nodes are nested too deep. -/
structure Interpretation (m : Type → Type) where
  token : (form : Token) → m form.Value
  count : m Nat
  tooDeep : {α : Type} → m α

namespace Decoder

variable {α β : Type}

def bind : Decoder α → (α → Decoder β) → Decoder β
  | .done value, further => further value
  | .token form next, further => .token form fun value => (next value).bind further
  | .node kind next, further => .node kind fun value => (next value).bind further
  | .sequence kind next, further => .sequence kind fun values => (next values).bind further

instance : Monad Decoder where
  pure := .done
  bind := .bind

def take (form : Token) : Decoder form.Value := .token form .done

def part (kind : NodeKind) : Decoder kind.Value := .node kind .done

def parts (kind : NodeKind) : Decoder (List kind.Value) := .sequence kind .done

/-- A node after a byte that says whether there is one. -/
def part? (kind : NodeKind) : Decoder (Option kind.Value) := do
  let present : Bool ← take .bool
  if present then
    return some (← part kind)
  else
    return none

/-- Carries out a decoder. How a node is read is given. -/
def follow {m : Type → Type} [Monad m] (interpretation : Interpretation m)
    (node : (kind : NodeKind) → m kind.Value) : Decoder α → m α
  | .done value => return value
  | .token form next => do
      let value ← interpretation.token form
      (next value).follow interpretation node
  | .node kind next => do
      let value ← node kind
      (next value).follow interpretation node
  | .sequence kind next => do
      let values ← times (node kind) (← interpretation.count)
      (next values).follow interpretation node

end Decoder

end PropertyWeaver
