import Mathlib.Logic.ExistsUnique
import PropertyWeaver.Proofs.Image.Delimitation
import PropertyWeaver.Proofs.Image.NodeCounts

/-!
# Reading is bounded by the bytes

Whatever tags and counts an image holds, every run ends inside it and has read at most as many nodes
as it has taken bytes. This holds behind any calls of the reader, also behind those that have failed
halfway.
-/

set_option autoImplicit false

namespace PropertyWeaver

variable {α : Type}

/-! ## Nodes of a run -/

/-- A run has read the nodes of its value, and beside a byte for each of them it has taken what its
decoder can spare in the end. -/
theorem Decoder.Runs.balances {decoder : Decoder α} {cursor rest : Cursor}
    {nodes least spare counted : Nat} {value : α} {count : α → Nat}
    (run : decoder.Runs cursor nodes (.ok value rest))
    (balanced : decoder.Balances least count spare counted) :
    counted + nodes = count value ∧ least + nodes + cursor.position ≤ spare + rest.position := by
  generalize ended : EStateM.Result.ok value rest = outcome at run
  induction run generalizing least spare counted rest with
  | done =>
      cases ended
      obtain ⟨enough, rfl⟩ := balanced
      exact ⟨rfl, Nat.add_le_add_right enough _⟩
  | @token _ form _ _ _ _ _ _ read _ hypothesis =>
      obtain ⟨counts, paid⟩ := hypothesis (balanced _) ended
      obtain ⟨taken, -, moved, size⟩ := form.takes_size _ _ _ read
      exact ⟨counts, by omega⟩
  | refused => cases ended
  | @node _ kind _ _ _ item _ _ _ _ _ first second =>
      -- the node has a byte more to spare than this decoder counts on: the byte for the node itself
      obtain ⟨own, paid⟩ := first kind.paid_decoder rfl
      obtain ⟨counts, paid'⟩ := second (balanced item) ended
      exact ⟨by omega, by omega⟩
  | stuck => cases ended
  | sequence read _ hypothesis =>
      obtain ⟨counts, paid⟩ := hypothesis (.times balanced _) ended
      obtain ⟨-, -, moved, -⟩ := Reader.count_eq_ok.mp read
      exact ⟨counts, by omega⟩
  | uncounted => cases ended

namespace NodeKind

variable {kind : NodeKind} {cursor rest : Cursor} {value : kind.Value} {nodes : Nat}

/-- The nodes of a value are the value itself and those that its decoder has read. -/
theorem nodes_of_runs (run : kind.decoder.Runs cursor nodes (.ok value rest)) :
    kind.nodes value = nodes + 1 ∧ cursor.position + kind.nodes value ≤ rest.position := by
  obtain ⟨counts, paid⟩ := run.balances kind.paid_decoder
  omega

private theorem nodes_le_of_read (read : kind.read cursor = .ok value rest) :
    cursor.position < rest.position ∧ cursor.position + kind.nodes value ≤ rest.position := by
  obtain ⟨nodes, run⟩ := kind.exists_runs cursor
  rw [read] at run
  obtain ⟨whole, within⟩ := nodes_of_runs run
  omega

end NodeKind

/-- However a run ends, every node that it has read took a byte of its own. -/
theorem Decoder.Runs.nodes_le {decoder : Decoder α} {cursor : Cursor} {nodes : Nat}
    {outcome : Reader.Outcome α} (run : decoder.Runs cursor nodes outcome) :
    cursor.position + nodes ≤ outcome.cursor.position := by
  induction run with
  | done => exact Nat.le_refl _
  | @token _ form _ _ _ _ _ _ read _ hypothesis =>
      obtain ⟨taken, -, moved, -⟩ := form.takes_size _ _ _ read
      omega
  | @refused _ form _ cursor _ _ read =>
      have moved := (form.forward cursor).position_le
      rwa [read] at moved
  | node inner _ _ second =>
      obtain ⟨whole, within⟩ := NodeKind.nodes_of_runs inner
      omega
  | stuck _ hypothesis => exact hypothesis
  | sequence read _ hypothesis =>
      obtain ⟨-, -, moved, -⟩ := Reader.count_eq_ok.mp read
      omega
  | @uncounted _ _ _ cursor _ _ read =>
      have moved := (Reader.Forward.count cursor).position_le
      rwa [read] at moved

/-- The nodes in the payload of an image fit into the bytes behind its header. -/
theorem Module.nodes_le_of_decode {image : Bytes} {module : Module}
    (read : decode image = .ok module) :
    headerSize + nodesOfTables (module.name, module.references, module.types) ≤ image.length := by
  obtain ⟨header, body, accepted⟩ := exists_accepted read
  obtain ⟨rest, payload, finished⟩ := accepted.payload
  obtain ⟨nodes, run⟩ := NodeKind.exists_runs .tables ⟨headerSize, body⟩
  have whole : NodeKind.read .tables ⟨headerSize, body⟩ = _ := payload
  have moved := run.reaches.length_add
  rw [whole] at moved
  change rest.unread.length + rest.position = body.length + headerSize at moved
  rw [finished, List.length_nil] at moved
  have within := (NodeKind.nodes_le_of_read whole).2
  have size : header.encode.length = headerSize := Header.length_encode accepted.digestSize
  change headerSize + nodesOfTables _ ≤ rest.position at within
  rw [accepted.image, List.length_append, size]
  omega

/-! ## Calls -/

private theorem NodeKind.describes_read (kind : NodeKind) (limit : Nat) :
    kind.decoder.Describes limit kind.read :=
  fun cursor _ => kind.exists_runs cursor

/-- What a reader is asked for. -/
inductive Reader.Call where
  | position | remaining | hasMore
  | bytes (size : Nat)
  | token (form : Token)
  | sequence (kind : NodeKind)
  | node (kind : NodeKind)
  deriving DecidableEq, Repr

namespace Reader.Call

abbrev Value : Call → Type
  | .position | .remaining => Nat
  | .hasMore => Bool
  | .bytes _ => Bytes
  | .token form => form.Value
  | .sequence kind => List kind.Value
  | .node kind => kind.Value

def read : (call : Call) → Reader call.Value
  | .position => Reader.position
  | .remaining => Reader.remaining
  | .hasMore => Reader.hasMore
  | .bytes size => Reader.bytes size
  | .token form => form.read
  | .sequence kind => Reader.sequence kind.read
  | .node kind => kind.read

/-- The call reads so many nodes to their end. Of the tokens only a string is a node. -/
def Counts : (call : Call) → Cursor → Nat → Prop
  | .token .string, cursor, nodes => (Decoder.part .string).Runs cursor nodes (Reader.string cursor)
  | .sequence kind, cursor, nodes =>
      (Decoder.parts kind).Runs cursor nodes (Reader.sequence kind.read cursor)
  | .node kind, cursor, nodes => (Decoder.part kind).Runs cursor nodes (kind.read cursor)
  | _, _, nodes => nodes = 0

/-- Where a call leaves the cursor, also if it fails. -/
def leaves (call : Call) (cursor : Cursor) : Cursor :=
  Outcome.cursor (call.read cursor)

private theorem exists_counts (call : Call)
    (cursor : Cursor) : ∃ nodes, call.Counts cursor nodes := by
  cases call with
  | token form =>
      cases form with
      | string =>
          have head : (Decoder.take .string).Describes cursor.unread.length
              (Token.read .string >>= pure) := .token fun _ text => .done text
          rw [bind_pure] at head
          have whole : (Decoder.part .string).Describes cursor.unread.length
              (Token.read .string >>= pure) := .node head fun text => .done text
          rw [bind_pure] at whole
          exact whole cursor (Nat.le_refl _)
      | _ => exact ⟨0, rfl⟩
  | sequence kind =>
      have whole := (kind.describes_read cursor.unread.length).sequence fun values => .done values
      simp only [bind_pure] at whole
      exact whole cursor (Nat.le_refl _)
  | node kind =>
      have whole := (kind.describes_read cursor.unread.length).node fun value => .done value
      simp only [bind_pure] at whole
      exact whole cursor (Nat.le_refl _)
  | _ => exact ⟨0, rfl⟩

private theorem reaches_leaves (call : Call) (cursor : Cursor) : cursor.Reaches
    (call.leaves cursor) := by
  cases call with
  | position | remaining | hasMore => exact .refl cursor
  | bytes size => exact Forward.bytes size cursor
  | token form => exact form.forward cursor
  | sequence kind =>
      obtain ⟨nodes, run⟩ := exists_counts (.sequence kind) cursor
      exact Decoder.Runs.reaches run
  | node kind =>
      obtain ⟨nodes, run⟩ := kind.exists_runs cursor
      exact run.reaches

namespace Counts

variable {call : Call} {cursor : Cursor} {nodes : Nat}

theorem unique {other : Nat} (counts : call.Counts cursor nodes)
    (counts' : call.Counts cursor other) : other = nodes := by
  cases call with
  | token form =>
      cases form with
      | string => exact (Decoder.Runs.unique counts counts').1
      | _ => exact counts'.trans counts.symm
  | sequence kind => exact (Decoder.Runs.unique counts counts').1
  | node kind => exact (Decoder.Runs.unique counts counts').1
  | _ => exact counts'.trans counts.symm

theorem le (counts : call.Counts cursor nodes) :
    cursor.position + nodes ≤ (call.leaves cursor).position := by
  have moved := (call.reaches_leaves cursor).position_le
  cases call with
  | token form =>
      cases form with
      | string => exact Decoder.Runs.nodes_le counts
      | _ =>
          obtain rfl : nodes = 0 := counts
          exact moved
  | sequence kind => exact Decoder.Runs.nodes_le counts
  | node kind => exact Decoder.Runs.nodes_le counts
  | _ =>
      obtain rfl : nodes = 0 := counts
      exact moved

end Counts

/-- Calls one behind the other: each goes on where the one before has left the cursor. -/
def after : List Call → Cursor → Cursor
  | [], cursor => cursor
  | call :: calls, cursor => after calls (call.leaves cursor)

/-- So many nodes are read by the calls. -/
inductive Count : List Call → Cursor → Nat → Prop where
  | nil {cursor : Cursor} : Count [] cursor 0
  | cons {call : Call} {calls : List Call} {cursor : Cursor} {nodes more : Nat} :
      call.Counts cursor nodes → Count calls (call.leaves cursor) more →
        Count (call :: calls) cursor (nodes + more)

variable {calls : List Call} {cursor : Cursor} {nodes : Nat}

private theorem reaches_after (calls : List Call) (cursor : Cursor) :
    cursor.Reaches (after calls cursor) := by
  induction calls generalizing cursor with
  | nil => exact .refl cursor
  | cons call calls hypothesis => exact (call.reaches_leaves cursor).trans (hypothesis _)

private theorem exists_count (calls : List Call)
    (cursor : Cursor) : ∃ nodes, Count calls cursor nodes := by
  induction calls generalizing cursor with
  | nil => exact ⟨0, .nil⟩
  | cons call calls hypothesis =>
      obtain ⟨nodes, counts⟩ := call.exists_counts cursor
      obtain ⟨more, count⟩ := hypothesis (call.leaves cursor)
      exact ⟨nodes + more, .cons counts count⟩

namespace Count

theorem unique {other : Nat} (count : Count calls cursor nodes) (count' : Count calls cursor other) :
    other = nodes := by
  induction count generalizing other with
  | nil =>
      cases count'
      rfl
  | cons counts _ hypothesis =>
      cases count' with
      | cons counts' count' => rw [counts.unique counts', hypothesis count']

theorem le (count : Count calls cursor nodes) :
    cursor.position + nodes ≤ (after calls cursor).position := by
  induction count with
  | nil => exact Nat.le_refl _
  | cons counts _ hypothesis =>
      have first := counts.le
      change _ ≤ (after _ (leaves _ _)).position
      omega

end Count

end Reader.Call

/-! ## Bounds -/

/-- The cursor at a position of an image. -/
def Cursor.atPosition (image : Bytes) (position : Nat) : Cursor :=
  ⟨position, image.drop position⟩

/-- A cursor inside an image, and not before a position of it. -/
structure Cursor.Within (image : Bytes) (start : Nat) (cursor : Cursor) : Prop where
  forward : start ≤ cursor.position
  inside : cursor.position ≤ image.length
  unread : cursor.unread = image.drop cursor.position

namespace Cursor.Within

variable {image : Bytes} {start : Nat} {cursor rest : Cursor}

private theorem atPosition (inside : start ≤ image.length) :
    (Cursor.atPosition image start).Within image start :=
  ⟨Nat.le_refl _, inside, rfl⟩

private theorem moved (within : cursor.Within image start) (reaches : cursor.Reaches rest) :
    rest.Within image cursor.position := by
  have total := reaches.length_add
  obtain ⟨taken, spelled, moved⟩ := reaches
  rw [within.unread] at spelled total
  refine ⟨?_, ?_, ?_⟩
  · omega
  · have inside := within.inside
    rw [List.length_drop] at total
    omega
  · rw [moved, ← List.drop_drop, spelled, List.drop_left]

private theorem remaining (within : cursor.Within image start) :
    Reader.remaining cursor = .ok (image.length - cursor.position) cursor := by
  rw [← List.length_drop, ← within.unread]
  rfl

end Cursor.Within

/-- Reading is bounded from any position of any image and behind any calls, failed ones included. -/
theorem Reader.calls_bounded (image : Bytes) (start : Nat) (inside : start ≤ image.length)
    (calls : List Call) :
    let first := Cursor.atPosition image start
    let cursor := Call.after calls first
    cursor.Within image start ∧
    Reader.remaining cursor = .ok (image.length - cursor.position) cursor ∧
    (∃! nodes, Call.Count calls first nodes) ∧
    (∀ nodes, Call.Count calls first nodes → start + nodes ≤ cursor.position) ∧
    (∀ call : Call, (call.leaves cursor).Within image cursor.position) ∧
    ∀ kind : NodeKind,
      (∃! nodes, kind.decoder.Runs cursor nodes (kind.read cursor)) ∧
      ∀ value rest, kind.read cursor = .ok value rest →
        cursor.position < rest.position ∧
          cursor.position + kind.nodes value ≤ rest.position := by
  intro first cursor
  -- where the calls have come to is inside again, so what is shown of one call holds of the next
  have placed : first.Within image start := .atPosition inside
  have within : cursor.Within image start := placed.moved (Call.reaches_after calls first)
  refine ⟨within, within.remaining, ?_, fun nodes count => count.le, ?_, ?_⟩
  · obtain ⟨nodes, count⟩ := Call.exists_count calls first
    exact ⟨nodes, count, fun other count' => count.unique count'⟩
  · intro call
    exact within.moved (call.reaches_leaves cursor)
  · intro kind
    obtain ⟨nodes, run⟩ := kind.exists_runs cursor
    refine ⟨⟨nodes, run, fun other run' => (run.unique run').1⟩, ?_⟩
    intro value rest read
    exact NodeKind.nodes_le_of_read read

/-- An array that claims more items than there are bytes, between a byte and a constant. -/
def greedyArray : Bytes :=
  0x2A :: ConstantKind.array.tag :: Bytes.uint32 0xFFFFFFFF ++ [ConstantKind.null.tag]

theorem Reader.calls_bounded_behind_greedyArray :
    1 ≤ greedyArray.length ∧
      let cursor := Call.after [.node .constant] (Cursor.atPosition greedyArray 1)
      cursor = ⟨6, [ConstantKind.null.tag]⟩ ∧
        cursor.Within greedyArray 1 ∧
        NodeKind.read .constant cursor = .ok Constant.null ⟨7, []⟩ ∧
        6 < 7 ∧ 6 + NodeKind.nodes .constant Constant.null ≤ 7 := by
  have inside : 1 ≤ greedyArray.length := by decide
  obtain ⟨within, _, _, _, _, kinds⟩ := Reader.calls_bounded greedyArray 1 inside [.node .constant]
  exact ⟨inside, rfl, within, rfl, (kinds .constant).2 _ _ rfl⟩

end PropertyWeaver
