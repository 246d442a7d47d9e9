import Mathlib.Algebra.Ring.Nat
import PropertyWeaver.Proofs.Image.Runs

/-!
# Nodes and the bytes for them

The nodes of a value are those that its decoder reads, and every node takes a byte that no node in it
takes. Most kinds have a tag, a number or a word of their own. Field references and parameters have
none, but there is a name in them, and a text has four bytes for its length of which it needs one.
-/

set_option autoImplicit false

namespace PropertyWeaver

/-! ## Nodes of a value -/

def TypeRef.nodes (type : TypeRef) : Nat :=
  1 + type.scope.elim 0 (fun _ => 1) + 1 + 1

namespace TypeSig

mutual

def nodes : TypeSig → Nat
  | .builtin _ => 1
  | .classType type | .valueType type => 1 + type.nodes
  | .instantiated definition _ arguments => 1 + definition.nodes + nodesOfAll arguments
  | .typeParameter _ | .methodParameter _ => 1 + 1
  | .array element => 1 + element.nodes

def nodesOfAll : List TypeSig → Nat
  | [] => 0
  | sig :: rest => sig.nodes + nodesOfAll rest

end

theorem nodesOfAll_eq_sum (sigs : List TypeSig) : nodesOfAll sigs = (sigs.map nodes).sum := by
  induction sigs with
  | nil => rfl
  | cons sig rest hypothesis => rw [nodesOfAll, hypothesis, List.map_cons, List.sum_cons]

end TypeSig

def FieldRef.nodes (field : FieldRef) : Nat :=
  1 + field.declaringType.nodes + 1 + field.fieldType.nodes

def MethodRef.nodes (method : MethodRef) : Nat :=
  1 + method.declaringType.nodes + 1 + method.returnType.nodes +
    (method.parameters.map TypeSig.nodes).sum + (method.genericArguments.map TypeSig.nodes).sum

/-- An operand is part of its instruction, and only what it holds counts. -/
def Operand.nodes : Operand → Nat
  | .string _ => 1
  | .field member => member.nodes
  | .method member => member.nodes
  | .type sig => sig.nodes
  | _ => 0

def Instruction.nodes (instruction : Instruction) : Nat :=
  1 + instruction.operand.nodes

def MethodBody.nodes (body : MethodBody) : Nat :=
  1 + (body.locals.map TypeSig.nodes).sum + (body.instructions.map Instruction.nodes).sum

namespace Constant

mutual

def nodes : Constant → Nat
  | .string _ => 1 + 1
  | .type sig => 1 + sig.nodes
  | .array items => 1 + nodesOfAll items
  | _ => 1

def nodesOfAll : List Constant → Nat
  | [] => 0
  | item :: rest => item.nodes + nodesOfAll rest

end

theorem nodesOfAll_eq_sum (items : List Constant) : nodesOfAll items = (items.map nodes).sum := by
  induction items with
  | nil => rfl
  | cons item rest hypothesis => rw [nodesOfAll, hypothesis, List.map_cons, List.sum_cons]

end Constant

def Attribute.nodes (attr : Attribute) : Nat :=
  1 + attr.type.nodes + (attr.arguments.map Constant.nodes).sum

def FieldDef.nodes (field : FieldDef) : Nat :=
  1 + 1 + field.fieldType.nodes + (field.attributes.map Attribute.nodes).sum

def ParameterDef.nodes (parameter : ParameterDef) : Nat :=
  1 + 1 + parameter.parameterType.nodes

def MethodDef.nodes (method : MethodDef) : Nat :=
  1 + 1 + method.returnType.nodes + (method.parameters.map ParameterDef.nodes).sum +
    method.genericParameters.length + (method.attributes.map Attribute.nodes).sum +
    method.body.elim 0 MethodBody.nodes

def PropertyDef.nodes (property : PropertyDef) : Nat :=
  1 + 1 + property.propertyType.nodes + (property.attributes.map Attribute.nodes).sum

def TypeDef.nodes (type : TypeDef) : Nat :=
  1 + 1 + 1 + type.base.elim 0 TypeSig.nodes + type.genericParameters.length +
    (type.fields.map FieldDef.nodes).sum + (type.methods.map MethodDef.nodes).sum +
    (type.properties.map PropertyDef.nodes).sum + (type.attributes.map Attribute.nodes).sum

/-- The module itself, its name, its references and what is in its types. -/
def Module.nodesOfTables (tables : String × List String × List TypeDef) : Nat :=
  1 + 1 + tables.2.1.length + (tables.2.2.map TypeDef.nodes).sum

namespace NodeKind

def nodes : (kind : NodeKind) → kind.Value → Nat
  | .string => fun _ => 1
  | .typeRef => TypeRef.nodes
  | .typeSig => TypeSig.nodes
  | .fieldRef => FieldRef.nodes
  | .methodRef => MethodRef.nodes
  | .instruction => Instruction.nodes
  | .body => MethodBody.nodes
  | .constant => Constant.nodes
  | .attr => Attribute.nodes
  | .field => FieldDef.nodes
  | .parameter => ParameterDef.nodes
  | .method => MethodDef.nodes
  | .property => PropertyDef.nodes
  | .type => TypeDef.nodes
  | .tables => Module.nodesOfTables

/-- Bytes that a node takes in any case beyond one for itself and for every node in it. -/
def spare : NodeKind → Nat
  | .string => 3
  | _ => 0

end NodeKind

/-! ## Balances -/

variable {α : Type}

/-- However the decoder ends, it can spare so many bytes, and the nodes that it has read are those of
the value, both counted from given numbers. It can spare the bytes that it takes itself and those that
its nodes can spare. -/
def Decoder.Balances (least : Nat) (count : α → Nat) : Decoder α → (spare nodes : Nat) → Prop
  | .done value, spare, nodes => least ≤ spare ∧ nodes = count value
  | .token form next, spare, nodes =>
      ∀ value, (next value).Balances least count (spare + form.size) nodes
  | .node kind next, spare, nodes =>
      ∀ value, (next value).Balances least count (spare + kind.spare) (nodes + kind.nodes value)
  | .sequence kind next, spare, nodes =>
      ∀ values, (next values).Balances least count (spare + 4) (nodes + (values.map kind.nodes).sum)

namespace Decoder.Balances

variable {decoder : Decoder α} {kind : NodeKind} {least spare more nodes : Nat} {count : α → Nat}

private theorem mono (balances : decoder.Balances least count spare nodes) (below : spare ≤ more) :
    decoder.Balances least count more nodes := by
  induction decoder generalizing spare more nodes with
  | done value => exact ⟨Nat.le_trans balances.1 below, balances.2⟩
  | token form next hypothesis =>
      exact fun value => hypothesis value (balances value) (Nat.add_le_add_right below _)
  | node kind next hypothesis =>
      exact fun value => hypothesis value (balances value) (Nat.add_le_add_right below _)
  | sequence kind next hypothesis =>
      exact fun values => hypothesis values (balances values) (Nat.add_le_add_right below _)

theorem times {next : List kind.Value → Decoder α}
    (each : ∀ values,
      (next values).Balances least count spare (nodes + (values.map kind.nodes).sum))
    (number : Nat) : (Decoder.times kind number next).Balances least count spare nodes := by
  induction number generalizing next spare nodes with
  | zero => exact each []
  | succ number hypothesis =>
      intro first
      apply hypothesis
      intro rest
      have counted := (each (first :: rest)).mono (Nat.le_add_right spare kind.spare)
      rwa [List.map_cons, List.sum_cons, ← Nat.add_assoc] at counted

private theorem part? {next : Option kind.Value → Decoder α}
    (tail : ∀ option,
      (next option).Balances least count (spare + 1) (nodes + option.elim 0 kind.nodes)) :
    (Decoder.part? kind >>= next).Balances least count spare nodes := by
  intro present
  cases present with
  | false => exact tail none
  | true => exact fun value => (tail (some value)).mono (Nat.le_add_right _ _)

end Decoder.Balances

/-! ## Kinds -/

open Decoder (Balances)

/-- What a decoder has to show for a node of a kind: it can spare a byte for the node beside what the
node itself can spare, and the nodes that it has read are those of the value. -/
abbrev NodeKind.Paid (kind : NodeKind) (decoder : Decoder kind.Value) : Prop :=
  decoder.Balances (kind.spare + 1) kind.nodes 0 1

private theorem sum_map_string (texts : List String) :
    (texts.map (NodeKind.nodes .string)).sum = texts.length := by
  simp [NodeKind.nodes, List.map_const']

theorem TypeRef.paid_decoder : NodeKind.Paid .typeRef decoder :=
  .part? fun scope qualifier name => ⟨by decide, rfl⟩

theorem TypeSig.paid_decoder : NodeKind.Paid .typeSig decoder := by
  intro form
  cases form with
  | builtin => exact ⟨by decide, rfl⟩
  | instantiated =>
      intro definition isValue arguments
      refine ⟨by decide, ?_⟩
      change _ = 1 + definition.nodes + nodesOfAll arguments
      rw [nodesOfAll_eq_sum]
      rfl
  | _ => exact fun _ => ⟨by decide, rfl⟩

theorem FieldRef.paid_decoder : NodeKind.Paid .fieldRef decoder :=
  fun declaringType name fieldType => ⟨by decide, rfl⟩

theorem MethodRef.paid_decoder : NodeKind.Paid .methodRef decoder :=
  fun declaringType name hasThis returnType parameters arguments => ⟨by decide, rfl⟩

private theorem Operand.balances_decoder {least spare nodes : Nat} {count : α → Nat}
    (kind : OperandKind) {next : Operand → Decoder α}
    (tail : ∀ operand, (next operand).Balances least count spare (nodes + operand.nodes)) :
    (Operand.decoder kind >>= next).Balances least count spare nodes := by
  cases kind with
  | none => exact tail .none
  | _ => exact fun value => (tail _).mono (Nat.le_add_right _ _)

theorem Instruction.paid_decoder : NodeKind.Paid .instruction decoder :=
  fun opcode => Operand.balances_decoder opcode.operandKind fun operand => ⟨by decide, rfl⟩

theorem MethodBody.paid_decoder : NodeKind.Paid .body decoder :=
  fun maxStack initLocals locals instructions => ⟨by decide, rfl⟩

theorem Constant.paid_decoder : NodeKind.Paid .constant decoder := by
  intro kind
  cases kind with
  | null => exact ⟨by decide, rfl⟩
  | array =>
      intro items
      refine ⟨by decide, ?_⟩
      change _ = 1 + nodesOfAll items
      rw [nodesOfAll_eq_sum]
      rfl
  | _ => exact fun _ => ⟨by decide, rfl⟩

theorem Attribute.paid_decoder : NodeKind.Paid .attr decoder :=
  fun type arguments => ⟨by decide, rfl⟩

theorem FieldDef.paid_decoder : NodeKind.Paid .field decoder :=
  fun name flags fieldType attributes => ⟨by decide, rfl⟩

theorem ParameterDef.paid_decoder : NodeKind.Paid .parameter decoder :=
  fun name parameterType => ⟨by decide, rfl⟩

theorem MethodDef.paid_decoder : NodeKind.Paid .method decoder := by
  intro name flags returnType parameters genericParameters attributes
  rw [sum_map_string]
  refine .part? fun body => ⟨by decide, ?_⟩
  cases body <;> rfl

theorem PropertyDef.paid_decoder : NodeKind.Paid .property decoder :=
  fun name propertyType getter setter attributes => ⟨by decide, rfl⟩

theorem TypeDef.paid_decoder : NodeKind.Paid .type decoder := by
  intro qualifier name flags
  refine .part? fun base genericParameters fields methods properties attributes => ⟨by decide, ?_⟩
  rw [sum_map_string]
  cases base <;> rfl

private theorem Module.paid_tablesDecoder : NodeKind.Paid .tables tablesDecoder := by
  intro name references types
  refine ⟨by decide, ?_⟩
  rw [sum_map_string]
  rfl

theorem NodeKind.paid_decoder (kind : NodeKind) : kind.Paid kind.decoder := by
  cases kind with
  | string => exact fun text => ⟨Nat.le_refl 4, rfl⟩
  | typeRef => exact TypeRef.paid_decoder
  | typeSig => exact TypeSig.paid_decoder
  | fieldRef => exact FieldRef.paid_decoder
  | methodRef => exact MethodRef.paid_decoder
  | instruction => exact Instruction.paid_decoder
  | body => exact MethodBody.paid_decoder
  | constant => exact Constant.paid_decoder
  | attr => exact Attribute.paid_decoder
  | field => exact FieldDef.paid_decoder
  | parameter => exact ParameterDef.paid_decoder
  | method => exact MethodDef.paid_decoder
  | property => exact PropertyDef.paid_decoder
  | type => exact TypeDef.paid_decoder
  | tables => exact Module.paid_tablesDecoder

end PropertyWeaver
