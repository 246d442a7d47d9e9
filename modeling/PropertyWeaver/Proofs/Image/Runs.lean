import PropertyWeaver.Proofs.Image.Tokens

/-!
# Running a decoder

A run of a decoder reads the nodes that it names by the decoders of their kinds, to any depth. It is
finite by definition, so that there is one at all has to be shown. It says where it ends, also if it
fails, and how many nodes it has read to their end. There is at most one.
-/

set_option autoImplicit false

namespace PropertyWeaver

variable {α β : Type}

/-- A value or an error, each with the cursor that is left behind. -/
abbrev Reader.Outcome (α : Type) := EStateM.Result ReadError Cursor α

def Reader.Outcome.cursor : Reader.Outcome α → Cursor
  | .ok _ rest => rest
  | .error _ rest => rest

/-! ## Moving forward -/

/-- The cursor has moved over some of the unread bytes, if over any. -/
def Cursor.Reaches (cursor rest : Cursor) : Prop :=
  ∃ taken, cursor.unread = taken ++ rest.unread ∧ rest.position = cursor.position + taken.length

namespace Cursor.Reaches

variable {cursor middle rest : Cursor}

theorem refl (cursor : Cursor) : cursor.Reaches cursor :=
  ⟨[], rfl, rfl⟩

theorem trans (first : cursor.Reaches middle) (second : middle.Reaches rest) :
    cursor.Reaches rest := by
  obtain ⟨front, spelled, moved⟩ := first
  obtain ⟨back, spelled', moved'⟩ := second
  refine ⟨front ++ back, ?_, ?_⟩
  · rw [spelled, spelled', List.append_assoc]
  · rw [moved', moved, List.length_append, Nat.add_assoc]

theorem length_add (reaches : cursor.Reaches rest) :
    rest.unread.length + rest.position = cursor.unread.length + cursor.position := by
  obtain ⟨taken, spelled, moved⟩ := reaches
  rw [spelled, moved, List.length_append]
  omega

theorem position_le (reaches : cursor.Reaches rest) : cursor.position ≤ rest.position := by
  obtain ⟨taken, -, moved⟩ := reaches
  omega

theorem length_le (reaches : cursor.Reaches rest) : rest.unread.length ≤ cursor.unread.length := by
  have total := reaches.length_add
  have moved := reaches.position_le
  omega

end Cursor.Reaches

/-- However the reader ends, it has not moved back or beyond the unread bytes. -/
def Reader.Forward (reader : Reader α) : Prop :=
  ∀ cursor : Cursor, cursor.Reaches (Outcome.cursor (reader cursor))

namespace Reader.Forward

variable {reader : Reader α} {next : α → Reader β}

private theorem pure (value : α) : Forward (Pure.pure value) :=
  fun cursor => .refl cursor

private theorem fail (error : ReadError) : Forward (Reader.fail error : Reader α) :=
  fun cursor => .refl cursor

private theorem position : Forward Reader.position :=
  fun cursor => .refl cursor

private theorem remaining : Forward Reader.remaining :=
  fun cursor => .refl cursor

private theorem bind (head : reader.Forward) (tail : ∀ value, (next value).Forward) :
    (reader >>= next).Forward := by
  intro cursor
  have first := head cursor
  change cursor.Reaches (Outcome.cursor (EStateM.bind reader next cursor))
  unfold EStateM.bind
  cases ended : reader cursor with
  | ok value middle =>
      rw [ended] at first
      exact first.trans (tail value middle)
  | error error middle =>
      rw [ended] at first
      exact first

private theorem map (head : reader.Forward) (rename : α → β) :
    Forward (do return rename (← reader)) :=
  head.bind fun value => pure (rename value)

theorem bytes (size : Nat) : (Reader.bytes size).Forward := by
  intro cursor
  cases ended : Reader.bytes size cursor with
  | ok taken rest =>
      obtain ⟨counted, spelled, moved⟩ := Reader.bytes_eq_ok.mp ended
      exact ⟨taken, spelled, counted ▸ moved⟩
  | error error rest =>
      unfold Reader.bytes at ended
      split at ended <;> cases ended
      exact .refl cursor

private theorem uint8 : Forward Reader.uint8 := by
  rintro ⟨place, _ | ⟨byte, unread⟩⟩
  · exact .refl _
  · exact ⟨[byte], rfl, rfl⟩

private theorem uint16 : Forward Reader.uint16 :=
  (bytes 2).map _

private theorem uint32 : Forward Reader.uint32 :=
  (bytes 4).map _

private theorem uint64 : Forward Reader.uint64 :=
  (bytes 8).map _

private theorem sevenBitGroups (start limit : Nat) :
    (Reader.sevenBitGroups start limit).Forward := by
  induction limit with
  | zero => exact fail _
  | succ limit hypothesis =>
      refine uint8.bind fun byte => ?_
      split
      · exact pure _
      · exact hypothesis.map _

private theorem varint : Forward Reader.varint :=
  position.bind fun start => (sevenBitGroups start 5).map _

private theorem string : Forward Reader.string := by
  refine uint32.bind fun size => position.bind fun start => (bytes size.toNat).bind fun encoded => ?_
  split
  · exact pure _
  · exact fail _

private theorem coded {ofByte? : UInt8 → Option α} {error : UInt8 → Nat → ReadError} :
    (Reader.coded ofByte? error).Forward := by
  refine position.bind fun offset => uint8.bind fun byte => ?_
  split
  · exact pure _
  · exact fail _

theorem count : Forward Reader.count := by
  refine uint32.bind fun number => remaining.bind fun available => ?_
  split
  · exact position.bind fun offset => fail _
  · exact pure _

end Reader.Forward

theorem Token.forward (token : Token) : token.read.Forward := by
  cases token with
  | uint8 => exact .uint8
  | uint16 => exact .uint16
  | uint32 => exact .uint32
  | uint64 => exact .uint64
  | int32 | float32 => exact Reader.Forward.uint32.map _
  | int64 | float64 => exact Reader.Forward.uint64.map _
  | bool => exact Reader.Forward.uint8.map _
  | varint => exact .varint
  | string => exact .string
  | opcode | typeForm | constantKind => exact .coded

/-! ## Runs -/

/-- So many nodes, one behind the other, before the decoder goes on. -/
def Decoder.times (kind : NodeKind) : (number : Nat) → (List kind.Value → Decoder α) → Decoder α
  | 0, next => next []
  | number + 1, next => .node kind fun first =>
      times kind number fun rest => next (first :: rest)

/-- A decoder, run from a cursor, reads so many nodes and ends like this. Nodes that a failing
decoder has read before it fails are counted too; the one in which it fails is not. -/
inductive Decoder.Runs : {α : Type} → Decoder α → Cursor → Nat → Reader.Outcome α → Prop where
  | done {α : Type} {value : α} {cursor : Cursor} : Runs (.done value) cursor 0 (.ok value cursor)
  | token {α : Type} {form : Token} {next : form.Value → Decoder α} {cursor middle : Cursor}
      {value : form.Value} {nodes : Nat} {outcome : Reader.Outcome α} :
      form.read cursor = .ok value middle → Runs (next value) middle nodes outcome →
      Runs (.token form next) cursor nodes outcome
  | refused {α : Type} {form : Token} {next : form.Value → Decoder α} {cursor rest : Cursor}
      {error : ReadError} :
      form.read cursor = .error error rest →
      Runs (.token form next) cursor 0 (.error error rest)
  | node {α : Type} {kind : NodeKind} {next : kind.Value → Decoder α} {cursor middle : Cursor}
      {value : kind.Value} {inner more : Nat} {outcome : Reader.Outcome α} :
      Runs kind.decoder cursor inner (.ok value middle) → Runs (next value) middle more outcome →
      Runs (.node kind next) cursor (inner + 1 + more) outcome
  | stuck {α : Type} {kind : NodeKind} {next : kind.Value → Decoder α} {cursor rest : Cursor}
      {error : ReadError} {inner : Nat} :
      Runs kind.decoder cursor inner (.error error rest) →
      Runs (.node kind next) cursor inner (.error error rest)
  | sequence {α : Type} {kind : NodeKind} {next : List kind.Value → Decoder α}
      {cursor middle : Cursor} {number more : Nat} {outcome : Reader.Outcome α} :
      Reader.count cursor = .ok number middle → Runs (times kind number next) middle more outcome →
      Runs (.sequence kind next) cursor more outcome
  | uncounted {α : Type} {kind : NodeKind} {next : List kind.Value → Decoder α}
      {cursor rest : Cursor} {error : ReadError} :
      Reader.count cursor = .error error rest →
      Runs (.sequence kind next) cursor 0 (.error error rest)

namespace Decoder.Runs

variable {decoder : Decoder α} {cursor : Cursor} {nodes : Nat} {outcome : Reader.Outcome α}

/-- No run moves the cursor back or beyond the unread bytes, however it ends. -/
theorem reaches (run : decoder.Runs cursor nodes outcome) : cursor.Reaches outcome.cursor := by
  induction run with
  | done => exact .refl _
  | @token _ form _ cursor _ _ _ _ read _ hypothesis =>
      have first := form.forward cursor
      rw [read] at first
      exact first.trans hypothesis
  | @refused _ form _ cursor _ _ read =>
      have first := form.forward cursor
      rwa [read] at first
  | node _ _ first second => exact Cursor.Reaches.trans first second
  | stuck _ hypothesis => exact hypothesis
  | @sequence _ _ _ cursor _ _ _ _ read _ hypothesis =>
      have first := Reader.Forward.count cursor
      rw [read] at first
      exact first.trans hypothesis
  | @uncounted _ _ _ cursor _ _ read =>
      have first := Reader.Forward.count cursor
      rwa [read] at first

theorem unique {nodes' : Nat} {outcome' : Reader.Outcome α}
    (run : decoder.Runs cursor nodes outcome) (other : decoder.Runs cursor nodes' outcome') :
    nodes' = nodes ∧ outcome' = outcome := by
  induction run generalizing nodes' with
  | done =>
      cases other
      exact ⟨rfl, rfl⟩
  | token read _ hypothesis =>
      cases other with
      | token read' further =>
          cases read'.symm.trans read
          exact hypothesis further
      | refused read' => cases read'.symm.trans read
  | refused read =>
      cases other with
      | token read' _ => cases read'.symm.trans read
      | refused read' =>
          cases read'.symm.trans read
          exact ⟨rfl, rfl⟩
  | node _ _ first second =>
      cases other with
      | node inner further =>
          obtain ⟨rfl, same⟩ := first inner
          cases same
          obtain ⟨rfl, rfl⟩ := second further
          exact ⟨rfl, rfl⟩
      | stuck inner => cases (first inner).2
  | stuck _ hypothesis =>
      cases other with
      | node inner _ => cases (hypothesis inner).2
      | stuck inner =>
          obtain ⟨rfl, same⟩ := hypothesis inner
          cases same
          exact ⟨rfl, rfl⟩
  | sequence read _ hypothesis =>
      cases other with
      | sequence read' further =>
          cases read'.symm.trans read
          exact hypothesis further
      | uncounted read' => cases read'.symm.trans read
  | uncounted read =>
      cases other with
      | sequence read' _ => cases read'.symm.trans read
      | uncounted read' =>
          cases read'.symm.trans read
          exact ⟨rfl, rfl⟩

end Decoder.Runs

end PropertyWeaver
