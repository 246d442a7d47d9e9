import PropertyWeaver.Image.Declaration

/-!
# Reading nodes

A node is read by the decoder of its kind, and so are the nodes in it.
-/

set_option autoImplicit false

namespace PropertyWeaver

namespace NodeKind

def decoder : (kind : NodeKind) → Decoder kind.Value
  | .string => Decoder.take .string
  | .typeRef => TypeRef.decoder
  | .typeSig => TypeSig.decoder
  | .fieldRef => FieldRef.decoder
  | .methodRef => MethodRef.decoder
  | .instruction => Instruction.decoder
  | .body => MethodBody.decoder
  | .constant => Constant.decoder
  | .attr => Attribute.decoder
  | .field => FieldDef.decoder
  | .parameter => ParameterDef.decoder
  | .method => MethodDef.decoder
  | .property => PropertyDef.decoder
  | .type => TypeDef.decoder
  | .tables => Module.tablesDecoder

/-- Reads a node in which nodes are nested up to the given depth. -/
def follow {m : Type → Type} [Monad m] (interpretation : Interpretation m) :
    (depth : Nat) → (kind : NodeKind) → m kind.Value
  | 0, _ => interpretation.tooDeep
  | depth + 1, kind => kind.decoder.follow interpretation (follow interpretation depth)

/-- A depth that nodes in so many bytes cannot reach: every node is of an earlier one of the 15 kinds
than the node that it is in, or has the byte of a tag before it. -/
def depthWithin (bytes : Nat) : Nat :=
  bytes + 15

/-- Nothing is nested too deep for a reader; its error would be that of missing bytes. -/
def reading : Interpretation Reader where
  token := Token.read
  count := Reader.count
  tooDeep := do Reader.fail (.unexpectedEnd (← Reader.position))

def read (kind : NodeKind) : Reader kind.Value := do
  kind.follow reading (depthWithin (← Reader.remaining))

end NodeKind

def Instruction.read : Reader Instruction :=
  NodeKind.read .instruction

/-- Reads the name, the references and the types of a module. -/
def Module.readPayload : Reader (String × List String × List TypeDef) :=
  NodeKind.read .tables

end PropertyWeaver
