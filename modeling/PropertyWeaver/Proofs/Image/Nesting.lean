import PropertyWeaver.Proofs.Image.Runs

/-!
# Nothing is nested too deep

A node has nodes of earlier kinds in it, and nodes of its own kind only behind its tag. Each step
into a node therefore uses up a kind or a byte, so the reader of a kind never comes to the end of its
depth: it carries out a run of the decoder, whatever the bytes are.
-/

set_option autoImplicit false

namespace PropertyWeaver

variable {α : Type}

/-! ## Kinds in order -/

def NodeKind.rank : NodeKind → Nat
  | .string => 0
  | .typeRef => 1
  | .typeSig => 2
  | .fieldRef => 3
  | .methodRef => 4
  | .instruction => 5
  | .body => 6
  | .constant => 7
  | .attr => 8
  | .field => 9
  | .parameter => 10
  | .method => 11
  | .property => 12
  | .type => 13
  | .tables => 14

private theorem NodeKind.rank_lt (kind : NodeKind) : kind.rank < 15 := by
  cases kind <;> decide

/-- All nodes that the decoder names are of kinds below the rank. -/
def Decoder.Below (rank : Nat) : Decoder α → Prop
  | .done _ => True
  | .token _ next => ∀ value, (next value).Below rank
  | .node kind next => kind.rank < rank ∧ ∀ value, (next value).Below rank
  | .sequence kind next => kind.rank < rank ∧ ∀ values, (next values).Below rank

namespace Decoder.Below

variable {rank : Nat} {form : Token} {kind : NodeKind}

private theorem last {value : α} : (pure value : Decoder α).Below rank := trivial

private theorem take {next : form.Value → Decoder α} (tail : ∀ value, (next value).Below rank) :
    (Decoder.take form >>= next).Below rank := tail

private theorem part {next : kind.Value → Decoder α} (earlier : kind.rank < rank)
    (tail : ∀ value, (next value).Below rank) : (Decoder.part kind >>= next).Below rank :=
  ⟨earlier, tail⟩

private theorem parts {next : List kind.Value → Decoder α} (earlier : kind.rank < rank)
    (tail : ∀ values, (next values).Below rank) : (Decoder.parts kind >>= next).Below rank :=
  ⟨earlier, tail⟩

private theorem part? {next : Option kind.Value → Decoder α} (earlier : kind.rank < rank)
    (tail : ∀ option, (next option).Below rank) : (Decoder.part? kind >>= next).Below rank := by
  intro present
  cases present with
  | false => exact tail none
  | true => exact ⟨earlier, fun value => tail (some value)⟩

end Decoder.Below

private theorem Operand.below_decoder (kind : OperandKind) {next : Operand → Decoder α}
    (tail : ∀ operand, (next operand).Below 5) : (Operand.decoder kind >>= next).Below 5 := by
  cases kind with
  | none => exact tail _
  | string | field | method | type => exact .part (by decide) fun _ => tail _
  | _ => exact .take fun _ => tail _

/-- The nodes in a node are of earlier kinds, or behind a first token also of its own. -/
def NodeKind.Nests (kind : NodeKind) : Prop :=
  kind.decoder.Below kind.rank ∨
    ∃ form next, kind.decoder = .token form next ∧ ∀ value, (next value).Below (kind.rank + 1)

theorem TypeSig.nests : NodeKind.Nests .typeSig := by
  refine .inr ⟨.typeForm, _, rfl, fun form => ?_⟩
  cases form with
  | builtin => exact .last
  | instantiated =>
      exact .part (by decide) fun _ => .take fun _ => .parts (by decide) fun _ => .last
  | _ => exact .part (by decide) fun _ => .last

theorem Constant.nests : NodeKind.Nests .constant := by
  refine .inr ⟨.constantKind, _, rfl, fun kind => ?_⟩
  cases kind with
  | null => exact .last
  | string | type => exact .part (by decide) fun _ => .last
  | array => exact .parts (by decide) fun _ => .last
  | _ => exact .take fun _ => .last

theorem NodeKind.nests (kind : NodeKind) : kind.Nests := by
  cases kind with
  | string => exact .inl (.take fun _ => .last)
  | typeRef =>
      exact .inl (.part? (by decide) fun _ => .part (by decide) fun _ => .part (by decide) fun _ =>
        .last)
  | typeSig => exact TypeSig.nests
  | fieldRef =>
      exact .inl (.part (by decide) fun _ => .part (by decide) fun _ => .part (by decide) fun _ =>
        .last)
  | methodRef =>
      exact .inl (.part (by decide) fun _ => .part (by decide) fun _ => .take fun _ =>
        .part (by decide) fun _ => .parts (by decide) fun _ => .parts (by decide) fun _ => .last)
  | instruction => exact .inl (.take fun opcode => Operand.below_decoder opcode.operandKind fun _ => .last)
  | body =>
      exact .inl (.take fun _ => .take fun _ => .parts (by decide) fun _ => .parts (by decide) fun _ =>
        .last)
  | constant => exact Constant.nests
  | attr => exact .inl (.part (by decide) fun _ => .parts (by decide) fun _ => .last)
  | field =>
      exact .inl (.part (by decide) fun _ => .take fun _ => .part (by decide) fun _ =>
        .parts (by decide) fun _ => .last)
  | parameter => exact .inl (.part (by decide) fun _ => .part (by decide) fun _ => .last)
  | method =>
      exact .inl (.part (by decide) fun _ => .take fun _ => .part (by decide) fun _ =>
        .parts (by decide) fun _ => .parts (by decide) fun _ => .parts (by decide) fun _ =>
          .part? (by decide) fun _ => .last)
  | property =>
      exact .inl (.part (by decide) fun _ => .part (by decide) fun _ => .take fun _ => .take fun _ =>
        .parts (by decide) fun _ => .last)
  | type =>
      exact .inl (.part (by decide) fun _ => .part (by decide) fun _ => .take fun _ =>
        .part? (by decide) fun _ => .parts (by decide) fun _ => .parts (by decide) fun _ =>
          .parts (by decide) fun _ => .parts (by decide) fun _ => .parts (by decide) fun _ => .last)
  | tables =>
      exact .inl (.part (by decide) fun _ => .parts (by decide) fun _ => .parts (by decide) fun _ =>
        .last)

/-! ## Readers that carry out decoders -/

/-- Where not more than `limit` bytes are left, the reader carries out a run of the decoder. -/
def Decoder.Describes (limit : Nat) (decoder : Decoder α) (reader : Reader α) : Prop :=
  ∀ cursor : Cursor, cursor.unread.length ≤ limit →
    ∃ nodes, decoder.Runs cursor nodes (reader cursor)

namespace Decoder.Describes

variable {limit : Nat} {form : Token} {kind : NodeKind} {item : Reader kind.Value}

theorem done (value : α) : Describes limit (.done value) (pure value) :=
  fun _ _ => ⟨0, .done⟩

/-- What is behind a token has a byte less. -/
theorem token {next : form.Value → Decoder α} {further : form.Value → Reader α}
    (tail : 0 < limit → ∀ value, (next value).Describes (limit - 1) (further value)) :
    Describes limit (.token form next) (form.read >>= further) := by
  intro cursor few
  change ∃ nodes, Runs _ cursor nodes (EStateM.bind form.read further cursor)
  unfold EStateM.bind
  cases ended : form.read cursor with
  | ok value middle =>
      obtain ⟨taken, spelled, -, size⟩ := form.takes_size _ _ _ ended
      have positive := form.size_pos
      rw [spelled, List.length_append] at few
      obtain ⟨nodes, run⟩ := tail (by omega) value middle (by omega)
      exact ⟨nodes, .token ended run⟩
  | error error rest => exact ⟨0, .refused ended⟩

theorem node {next : kind.Value → Decoder α} {further : kind.Value → Reader α}
    (head : kind.decoder.Describes limit item)
    (tail : ∀ value, (next value).Describes limit (further value)) :
    Describes limit (.node kind next) (item >>= further) := by
  intro cursor few
  obtain ⟨inner, first⟩ := head cursor few
  change ∃ nodes, Runs _ cursor nodes (EStateM.bind item further cursor)
  unfold EStateM.bind
  cases ended : item cursor with
  | ok value middle =>
      rw [ended] at first
      obtain ⟨more, run⟩ := tail value middle (Nat.le_trans first.reaches.length_le few)
      exact ⟨inner + 1 + more, .node first run⟩
  | error error rest =>
      rw [ended] at first
      exact ⟨inner, .stuck first⟩

private theorem times {next : List kind.Value → Decoder α} {further : List kind.Value → Reader α}
    (head : kind.decoder.Describes limit item)
    (tail : ∀ values, (next values).Describes limit (further values)) (number : Nat) :
    Describes limit (Decoder.times kind number next)
      (PropertyWeaver.times item number >>= further) := by
  induction number generalizing next further with
  | zero => exact tail []
  | succ number hypothesis =>
      simp only [PropertyWeaver.times, bind_assoc, pure_bind]
      exact head.node fun first => hypothesis fun rest => tail (first :: rest)

theorem sequence {next : List kind.Value → Decoder α} {further : List kind.Value → Reader α}
    (head : kind.decoder.Describes limit item)
    (tail : ∀ values, (next values).Describes limit (further values)) :
    Describes limit (.sequence kind next)
      (Reader.count >>= fun number => PropertyWeaver.times item number >>= further) := by
  intro cursor few
  change ∃ nodes, Runs _ cursor nodes (EStateM.bind Reader.count _ cursor)
  unfold EStateM.bind
  cases ended : Reader.count cursor with
  | ok number middle =>
      have moved := Reader.Forward.count cursor
      rw [ended] at moved
      obtain ⟨nodes, run⟩ := head.times tail number middle (Nat.le_trans moved.length_le few)
      exact ⟨nodes, .sequence ended run⟩
  | error error rest => exact ⟨0, .uncounted ended⟩

private theorem mono {fewer : Nat} {decoder : Decoder α} {reader : Reader α}
    (describes : decoder.Describes limit reader) (below : fewer ≤ limit) :
    decoder.Describes fewer reader :=
  fun cursor few => describes cursor (Nat.le_trans few below)

/-- If the readers of nodes do what the decoders say, so does the reader that is made of them. -/
theorem follow {rank : Nat} {node : (kind : NodeKind) → Reader kind.Value}
    (each : ∀ kind : NodeKind, kind.rank < rank → kind.decoder.Describes limit (node kind))
    {decoder : Decoder α} (below : decoder.Below rank) :
    decoder.Describes limit (decoder.follow NodeKind.reading node) := by
  induction decoder with
  | done value => exact done value
  | token form next hypothesis =>
      exact token fun _ value => (hypothesis value (below value)).mono (Nat.sub_le limit 1)
  | node kind next hypothesis =>
      exact (each kind below.1).node fun value => hypothesis value (below.2 value)
  | sequence kind next hypothesis =>
      exact (each kind below.1).sequence fun values => hypothesis values (below.2 values)

end Decoder.Describes

/-- Each level of nesting uses up a kind or a byte. -/
theorem NodeKind.describes_follow {depth limit : Nat} {kind : NodeKind}
    (enough : kind.rank + limit < depth) :
    kind.decoder.Describes limit (kind.follow reading depth) := by
  induction depth generalizing kind limit with
  | zero => exact absurd enough (Nat.not_lt_zero _)
  | succ depth hypothesis =>
      change kind.decoder.Describes limit (kind.decoder.follow reading (follow reading depth))
      rcases kind.nests with earlier | ⟨form, next, tagged, earlier⟩
      · exact .follow (fun part before => hypothesis (by omega)) earlier
      · rw [tagged]
        exact .token fun positive value =>
          .follow (fun part before => hypothesis (by omega)) (earlier value)

/-- Every kind has a run from every cursor, and its reader carries it out. -/
theorem NodeKind.exists_runs (kind : NodeKind) (cursor : Cursor) :
    ∃ nodes, kind.decoder.Runs cursor nodes (kind.read cursor) := by
  have placed := kind.rank_lt
  have enough : kind.rank + cursor.unread.length < depthWithin cursor.unread.length := by
    rw [depthWithin]
    omega
  exact describes_follow enough cursor (Nat.le_refl _)

/-- What a run of the decoder gives, the reader gives. -/
theorem NodeKind.read_eq_of_runs {kind : NodeKind} {cursor : Cursor} {nodes : Nat}
    {outcome : Reader.Outcome kind.Value} (run : kind.decoder.Runs cursor nodes outcome) :
    kind.read cursor = outcome := by
  obtain ⟨_, reading⟩ := kind.exists_runs cursor
  exact (run.unique reading).2

end PropertyWeaver
