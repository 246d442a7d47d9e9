import Mathlib.Control.Monad.Writer
import PropertyWeaver.Image.Basic

/-!
# Reading with a record of the spellings

Two forms of an image can be spelled in more than one way: a Boolean, for which every byte but zero
stands for `true`, and a signed integer in groups, which may be longer than needed and may carry
bits above the 32nd. A tracer is a reader that also records how those forms were spelled. It carries
out the same decoders, and forgetting what it has recorded gives the reader back.
-/

set_option autoImplicit false

namespace PropertyWeaver

/-- The spelling of a form for which an image may choose one: the byte of a Boolean, or the groups
of an integer with the integer that they stand for. -/
inductive Spelling where
  | bool (byte : UInt8)
  | varint (groups : Bytes) (value : Int32)
  deriving DecidableEq, Repr

/-- The spelling is the one that is written. -/
def Spelling.Canonical : Spelling → Prop
  | .bool byte => byte = 0 ∨ byte = 1
  | .varint groups value => groups = Bytes.varint value

instance : DecidablePred Spelling.Canonical
  | .bool byte => inferInstanceAs (Decidable (byte = 0 ∨ byte = 1))
  | .varint groups value => inferInstanceAs (Decidable (groups = Bytes.varint value))

/-- A reader that records the spellings it comes across, in their order. -/
abbrev Tracer := WriterT (List Spelling) Reader

namespace Tracer

variable {α β : Type}

/-- A reader of forms that are spelled in one way only. -/
def plain (reader : Reader α) : Tracer α := .mk (do return (← reader, []))

/-- Records a spelling. -/
def record (spelling : Spelling) : Tracer Unit := .mk (pure ((), [spelling]))

/-- The value of a reader with the bytes it took. -/
def withBytes (reader : Reader α) : Reader (α × Bytes) := fun cursor =>
  match reader cursor with
  | .ok value rest => .ok (value, cursor.unread.take (rest.position - cursor.position)) rest
  | .error error failed => .error error failed

def bool : Tracer Bool := do
  let byte ← plain Reader.uint8
  record (.bool byte)
  return byte != 0

def varint : Tracer Int32 := do
  let (value, groups) ← plain (withBytes Reader.varint)
  record (.varint groups value)
  return value

end Tracer

open Tracer

def Token.trace : (token : Token) → Tracer token.Value
  | .bool => Tracer.bool
  | .varint => Tracer.varint
  | token => plain token.read

namespace NodeKind

/-- Tokens are read and recorded. -/
def tracing : Interpretation Tracer where
  token := Token.trace
  count := plain Reader.count
  tooDeep := plain reading.tooDeep

def trace (kind : NodeKind) : Tracer kind.Value := do
  kind.follow tracing (depthWithin (← plain Reader.remaining))

end NodeKind

namespace Module

/-- The spellings in an image, from its payload on. A header has none; neither has an image that
cannot be read. -/
def spellings (image : Bytes) : List Spelling :=
  match readHeader (.start image) with
  | .error _ => []
  | .ok (_, cursor) =>
      match (NodeKind.trace .tables).run cursor with
      | .error _ _ => []
      | .ok (_, spellings) _ => spellings

end Module

/-! ## Forgetting -/

namespace Tracer

variable {α β : Type}

/-- A tracer without its record. -/
def forget (tracer : Tracer α) : Reader α := Prod.fst <$> tracer.run

@[simp] theorem forget_pure (value : α) : forget (pure value) = pure value := rfl

@[simp] theorem forget_plain (reader : Reader α) : forget (plain reader) = reader := by
  simp [forget, plain]

@[simp] theorem forget_record (spelling : Spelling) : forget (record spelling) = pure () := rfl

@[simp] theorem forget_bind (tracer : Tracer α) (next : α → Tracer β) :
    forget (tracer >>= next) = forget tracer >>= fun value => forget (next value) := by
  simp [forget]

@[simp] theorem forget_bool : forget bool = Reader.bool := by
  simp [bool, Reader.bool]

@[simp] theorem fst_withBytes (reader : Reader α) : Prod.fst <$> withBytes reader = reader := by
  funext cursor
  change EStateM.map Prod.fst (withBytes reader) cursor = reader cursor
  unfold EStateM.map withBytes
  cases reader cursor <;> rfl

@[simp] theorem forget_varint : forget varint = Reader.varint := by
  simp [varint]

@[simp] theorem forget_times (item : Tracer α) (number : Nat) :
    forget (times item number) = times item.forget number := by
  induction number with
  | zero => rfl
  | succ number ih => simp only [times, forget_bind, forget_pure, ih]

end Tracer

theorem Token.forget_trace (token : Token) : token.trace.forget = token.read := by
  cases token with
  | bool => exact forget_bool
  | varint => exact forget_varint
  | _ => exact forget_plain _

theorem Decoder.forget_follow {α : Type} (decoder : Decoder α)
    (node : (kind : NodeKind) → Tracer kind.Value) :
    (decoder.follow NodeKind.tracing node).forget =
      decoder.follow NodeKind.reading fun kind => (node kind).forget := by
  induction decoder with
  | done value => rfl
  | token form next ih =>
      have head : (NodeKind.tracing.token form).forget = NodeKind.reading.token form :=
        form.forget_trace
      simp only [follow, forget_bind, head, ih]
  | node kind next ih => simp only [follow, forget_bind, ih]
  | sequence kind next ih =>
      have number : NodeKind.tracing.count.forget = NodeKind.reading.count := forget_plain _
      simp only [follow, forget_bind, forget_times, number, ih]

theorem NodeKind.forget_follow (kind : NodeKind) (depth : Nat) :
    (kind.follow tracing depth).forget = kind.follow reading depth := by
  induction depth generalizing kind with
  | zero => exact forget_plain _
  | succ depth ih => simp only [follow, Decoder.forget_follow, ih]

/-- Recording the spellings changes nothing in what is read, or whether anything is. -/
theorem NodeKind.forget_trace (kind : NodeKind) : kind.trace.forget = kind.read := by
  simp only [trace, read, forget_bind, forget_plain, forget_follow]

end PropertyWeaver
