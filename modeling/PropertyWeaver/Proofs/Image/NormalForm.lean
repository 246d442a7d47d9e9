import PropertyWeaver.Proofs.Image.Delimitation
import PropertyWeaver.Proofs.Image.Taken
import PropertyWeaver.Proofs.Image.Tracing

/-!
# Writing again what was read

Every reader gives an encodable value whose own bytes are no longer than those taken. They are the
bytes taken if every Boolean and every grouped integer among them is spelled as it is written. So
writing a decoded module is a normal form of images: it is reached in one step, and only those two
forms are not in it already.
-/

set_option autoImplicit false

namespace PropertyWeaver

/-! ## What a tracer gives -/

/-- Whatever the tracer gives, the bytes written for it are no more than those taken, and the same
if every spelling that was recorded is canonical. -/
def Tracer.Yields {α : Type} (tracer : Tracer α) (form : α → Bytes → Prop) : Prop :=
  ∀ cursor value spellings rest, tracer.run cursor = .ok (value, spellings) rest →
    ∃ taken written, cursor.unread = taken ++ rest.unread ∧ form value written ∧
      written.length ≤ taken.length ∧
      ((∀ spelling ∈ spellings, spelling.Canonical) → written = taken)

/-- What the tracer gives is written like this and is of this kind. -/
abbrev Tracer.Writes {α : Type} (tracer : Tracer α) (write : α → Bytes) (holds : α → Prop) : Prop :=
  tracer.Yields fun value written => written = write value ∧ holds value

namespace Tracer

variable {α β : Type} {tracer : Tracer α} {next : α → Tracer β} {reader : Reader α}

private theorem bind_eq_ok {cursor rest : Cursor} {value : β} {spellings : List Spelling} :
    (tracer >>= next).run cursor = .ok (value, spellings) rest ↔
      ∃ first before middle after, tracer.run cursor = .ok (first, before) middle ∧
        (next first).run middle = .ok (value, after) rest ∧ spellings = before ++ after := by
  change (tracer.run >>= fun found =>
    (fun further => (further.1, found.2 ++ further.2)) <$> (next found.1).run) cursor = _ ↔ _
  simp only [Reader.bind_eq_ok, Reader.map_eq_ok, Prod.exists, Prod.mk.injEq]
  constructor
  · rintro ⟨first, before, middle, taken, _, after, read, rfl, rfl⟩
    exact ⟨first, before, middle, after, taken, read, rfl⟩
  · rintro ⟨first, before, middle, after, taken, read, rfl⟩
    exact ⟨first, before, middle, taken, value, after, read, rfl, rfl⟩

private theorem plain_eq_ok {cursor rest : Cursor} {value : α} {spellings : List Spelling} :
    (plain reader).run cursor = .ok (value, spellings) rest ↔
      reader cursor = .ok value rest ∧ spellings = [] := by
  change (reader >>= fun found => Pure.pure (found, [])) cursor = _ ↔ _
  rw [Reader.bind_eq_ok]
  constructor
  · rintro ⟨_, _, read, ⟨⟩⟩
    exact ⟨read, rfl⟩
  · rintro ⟨read, rfl⟩
    exact ⟨value, rest, read, rfl⟩

private theorem withBytes_eq_ok {cursor rest : Cursor} {value : α} {image : Bytes} :
    withBytes reader cursor = .ok (value, image) rest ↔
      reader cursor = .ok value rest ∧
        image = cursor.unread.take (rest.position - cursor.position) := by
  unfold withBytes
  cases reader cursor with
  | error error failed => simp
  | ok found middle =>
      constructor
      · rintro ⟨⟩
        exact ⟨rfl, rfl⟩
      · rintro ⟨⟨⟩, rfl⟩
        rfl

namespace Yields

private theorem pure {form : α → Bytes → Prop} {value : α} (fact : form value []) :
    Yields (Pure.pure value) form := by
  rintro cursor _ _ _ ⟨⟩
  exact ⟨[], [], rfl, fact, Nat.le_refl 0, fun _ => rfl⟩

private theorem bind {form : α → Bytes → Prop} {whole : β → Bytes → Prop}
    (head : tracer.Yields form) (tail : ∀ value front, form value front →
      (next value).Yields fun result back => whole result (front ++ back)) :
    (tracer >>= next).Yields whole := by
  intro cursor result spellings rest read
  obtain ⟨value, before, middle, after, first, second, rfl⟩ := bind_eq_ok.mp read
  obtain ⟨taken, front, spelled, fact, shorter, same⟩ := head _ _ _ _ first
  obtain ⟨taken', back, spelled', fact', shorter', same'⟩ := tail value front fact _ _ _ _ second
  refine ⟨taken ++ taken', front ++ back, ?_, fact', ?_, fun canonical => ?_⟩
  · rw [spelled, spelled', List.append_assoc]
  · simp only [List.length_append]
    omega
  · rw [same fun spelling member => canonical spelling (List.mem_append_left after member),
      same' fun spelling member => canonical spelling (List.mem_append_right before member)]

private theorem weaken {form other : α → Bytes → Prop} (yields : tracer.Yields form)
    (implies : ∀ value written, form value written → other value written) :
    tracer.Yields other := by
  intro cursor value spellings rest read
  obtain ⟨taken, written, spelled, fact, shorter, same⟩ := yields _ _ _ _ read
  exact ⟨taken, written, spelled, implies value written fact, shorter, same⟩

private theorem plain {form : α → Bytes → Prop} (takes : reader.Takes form) :
    (Tracer.plain reader).Yields form := by
  intro cursor value spellings rest read
  obtain ⟨plainly, rfl⟩ := plain_eq_ok.mp read
  obtain ⟨taken, spelled, -, fact⟩ := takes _ _ _ plainly
  exact ⟨taken, taken, spelled, fact, Nat.le_refl _, fun _ => rfl⟩

/-- Of the bytes of a Boolean, only 0 and 1 are written again. -/
theorem bool : Writes Tracer.bool Bytes.bool fun _ => True := by
  intro cursor value spellings rest read
  obtain ⟨byte, _, middle, _, first, recorded, rfl⟩ := bind_eq_ok.mp read
  obtain ⟨plainly, rfl⟩ := plain_eq_ok.mp first
  obtain ⟨_, spelled, -, rfl⟩ := Reader.Takes.uint8 _ _ _ plainly
  cases recorded
  refine ⟨[byte], _, spelled, ⟨rfl, trivial⟩, Nat.le_refl 1, fun canonical => ?_⟩
  rcases canonical _ (List.mem_singleton.mpr rfl) with rfl | rfl <;> rfl

private theorem varint : Writes Tracer.varint Bytes.varint fun _ => True := by
  intro cursor value spellings rest read
  obtain ⟨⟨_, groups⟩, _, middle, _, first, recorded, rfl⟩ := bind_eq_ok.mp read
  obtain ⟨plainly, rfl⟩ := plain_eq_ok.mp first
  obtain ⟨found, rfl⟩ := withBytes_eq_ok.mp plainly
  obtain ⟨taken, spelled, moved, _, form, _, codes⟩ := Reader.Takes.varint _ _ _ found
  have groups : cursor.unread.take (middle.position - cursor.position) = taken := by
    rw [moved, spelled, Nat.add_sub_cancel_left, List.take_left]
  cases recorded
  refine ⟨taken, _, spelled, ⟨rfl, trivial⟩, form.length_varint_le codes, fun canonical => ?_⟩
  have same := canonical _ (List.mem_singleton.mpr rfl)
  exact same.symm.trans groups

/-- The number of nodes is written as it was read. -/
theorem count : (Tracer.plain Reader.count).Yields fun number written =>
    written = Bytes.count number ∧ number < 2 ^ 32 := by
  refine plain fun cursor number rest read => ?_
  obtain ⟨fits, spelled, moved, -⟩ := Reader.count_eq_ok.mp read
  exact ⟨Bytes.count number, spelled, moved, rfl, fits⟩

private theorem times {write : α → Bytes} {holds : α → Prop} (item : tracer.Writes write holds)
    (number : Nat) :
    Yields (times tracer number) fun values written =>
      written = values.flatMap write ∧ values.length = number ∧ ∀ value ∈ values, holds value := by
  induction number with
  | zero => exact pure ⟨rfl, rfl, by simp⟩
  | succ number ih =>
      refine item.bind ?_
      rintro first _ ⟨rfl, here⟩
      refine bind ih ?_
      rintro others _ ⟨rfl, counted, rest⟩
      exact pure ⟨by simp, by simp [counted], List.forall_mem_cons.mpr ⟨here, rest⟩⟩

end Yields

end Tracer

open Tracer

/-! ## Nodes -/

theorem Token.trace_writes (token : Token) : token.trace.Writes token.encode token.Spellable := by
  cases token with
  | bool => exact Yields.bool
  | varint => exact Yields.varint
  | _ => exact .plain (Token.takes (by decide) (by decide))

/-- A decoder gives what is spelled by the bytes that are written for it. -/
theorem Decoder.follow_yields {α : Type} {node : (kind : NodeKind) → Tracer kind.Value}
    (each : ∀ kind, (node kind).Writes kind.encode kind.Spellable) (decoder : Decoder α) :
    (decoder.follow NodeKind.tracing node).Yields fun value written =>
      decoder.Spells written value := by
  induction decoder with
  | done value => exact .pure ⟨rfl, rfl⟩
  | token form next ih =>
      refine .bind form.trace_writes ?_
      rintro value _ ⟨rfl, fits⟩
      exact (ih value).weaken fun _ back spells => ⟨value, back, fits, rfl, spells⟩
  | node kind next ih =>
      refine .bind (each kind) ?_
      rintro value _ ⟨rfl, fits⟩
      exact (ih value).weaken fun _ back spells => ⟨value, back, fits, rfl, spells⟩
  | sequence kind next ih =>
      refine .bind .count ?_
      rintro number _ ⟨rfl, fits⟩
      refine .bind (.times (each kind) number) ?_
      rintro values _ ⟨rfl, rfl, holds⟩
      refine (ih values).weaken fun _ back spells => ⟨values, back, ⟨fits, holds⟩, ?_, spells⟩
      rw [Bytes.sequence, List.append_assoc]

private theorem NodeKind.follow_writes (kind : NodeKind) (depth : Nat) :
    (kind.follow tracing depth).Writes kind.encode kind.Spellable := by
  induction depth generalizing kind with
  | zero => exact .plain (.bind .position fun _ _ _ => .fail _)
  | succ depth ih =>
      exact (Decoder.follow_yields ih kind.decoder).weaken fun _ _ spells => spells_iff.mp spells

theorem NodeKind.trace_writes (kind : NodeKind) :
    kind.trace.Writes kind.encode kind.Spellable := by
  refine .bind (.plain .remaining) ?_
  rintro available _ rfl
  exact kind.follow_writes _

/-- Nodes are read back from the bytes written for them if nothing of them is cut, and only then. -/
theorem NodeKind.reads_sequence_iff {kind : NodeKind} {values : List kind.Value} :
    Reads (Reader.sequence kind.read) (Bytes.sequence kind.encode values) values ↔
      EncodableList kind.Spellable values := by
  constructor
  · intro reads
    have read := reads 0 []
    have forgotten : (do times kind.trace (← plain Reader.count) : Tracer _).forget =
        Reader.sequence kind.read := by
      simp only [forget_bind, forget_plain, forget_times, kind.forget_trace]
      rfl
    have yields : (do times kind.trace (← plain Reader.count) : Tracer _).Yields
        fun values _ => EncodableList kind.Spellable values := by
      refine .bind .count ?_
      rintro number _ ⟨-, fits⟩
      refine (Yields.times kind.trace_writes number).weaken ?_
      rintro values _ ⟨-, rfl, each⟩
      exact ⟨fits, each⟩
    rw [← forgotten] at read
    obtain ⟨⟨_, spellings⟩, traced, rfl⟩ := Reader.map_eq_ok.mp read
    obtain ⟨_, _, _, encodable, _⟩ := yields _ _ _ _ traced
    exact encodable
  · intro fits
    exact Reader.reads_sequence fits.count (fun value _ => kind.encode_ne_nil value)
      fun value member => NodeKind.reads (fits.each value member)

/-! ## Modules -/

namespace Module

/-- A tracer succeeds where its reader does. -/
theorem exists_trace {cursor rest : Cursor} {parts : String × List String × List TypeDef}
    (read : readPayload cursor = .ok parts rest) :
    ∃ spellings, (NodeKind.trace .tables).run cursor = .ok (parts, spellings) rest := by
  rw [readPayload, ← NodeKind.forget_trace] at read
  obtain ⟨⟨_, spellings⟩, traced, rfl⟩ := Reader.map_eq_ok.mp read
  exact ⟨spellings, traced⟩

private theorem spellings_of_readHeader {image : Bytes} {header : Header} {cursor rest : Cursor}
    {parts : String × List String × List TypeDef} {recorded : List Spelling}
    (head : readHeader (.start image) = .ok (header, cursor))
    (traced : (NodeKind.trace .tables).run cursor = .ok (parts, recorded) rest) :
    spellings image = recorded := by
  simp only [spellings, head, traced]

/-- What a decoded module is written as, next to the image that it was read from. -/
theorem Accepted.written {image : Bytes} {module : Module} {header : Header} {body : Bytes}
    (accepted : Accepted Checksum.crc32 Digest.sha256 image module header body) :
    module.Encodable ∧ module.payload.length ≤ body.length ∧
      ((∀ spelling ∈ spellings image, spelling.Canonical) → module.payload = body) := by
  obtain ⟨rest, payload, finished⟩ := accepted.payload
  obtain ⟨recorded, traced⟩ := exists_trace payload
  obtain ⟨taken, _, spelled, ⟨rfl, nameFits, referencesFit, typesFit⟩, shorter, same⟩ :=
    NodeKind.trace_writes .tables _ _ _ _ traced
  rw [finished, List.append_nil] at spelled
  simp only at spelled
  subst spelled
  rw [spellings_of_readHeader accepted.readHeader traced]
  have accessors := hasAccessors_of_validate accepted.valid
  exact ⟨{
    magic := accepted.magic
    version := accepted.version
    name := nameFits
    references := referencesFit
    types := ⟨typesFit.count, fun type listed =>
      TypeDef.encodable_iff.mpr ⟨typesFit.each type listed, accessors type listed⟩⟩ },
    shorter, same⟩

theorem decoded_of_decode {image : Bytes} {module : Module} (read : decode image = .ok module) :
    module.Decoded := by
  obtain ⟨header, body, accepted⟩ := exists_accepted read
  exact accepted.written.1.decoded

/-- Writing a decoded module is a normal form of its image: no longer, read back but for the digest,
written again as it is, and the image itself if that is spelled canonically. -/
theorem normal_form {image : Bytes} {module : Module} (read : decode image = .ok module) :
    module.encode.length ≤ image.length ∧
      (∃ again, decode module.encode = .ok again ∧
        again = { module with checksum := again.checksum } ∧ again.encode = module.encode) ∧
      ((∀ spelling ∈ spellings image, spelling.Canonical) → module.encode = image) := by
  obtain ⟨header, body, accepted⟩ := exists_accepted read
  obtain ⟨encodable, shorter, same⟩ := accepted.written
  refine ⟨?_, ⟨_, decode_encode encodable, rfl, rfl⟩, fun canonical => ?_⟩
  · rw [encodable.encode_eq, accepted.image, List.length_append, List.length_append,
      length_imageHeader, Header.length_encode accepted.digestSize]
    exact Nat.add_le_add_left shorter headerSize
  · have imageHeader : module.imageHeader = header := by
      rw [Module.imageHeader, same canonical, accepted.flags, ← accepted.checksum,
        ← accepted.digest]
    rw [encodable.encode_eq, imageHeader, same canonical, accepted.image]

/-! An image in which a base is announced by 7 instead of 1, the initialisation of locals by 2, and
the integer 1 takes two bytes. -/

def looseMethod : Bytes :=
  Bytes.string "m" ++ Bytes.uint32 0 ++ (TypeSig.builtin .void).encode ++ Bytes.count 0 ++
    Bytes.count 0 ++ Bytes.count 0 ++ Bytes.bool true ++ Bytes.uint16 1 ++ [2] ++ Bytes.count 0 ++
    Bytes.count 2 ++ [Opcode.ldcI4S.byte, 0x82, 0x00] ++ [Opcode.ret.byte]

def loosePayload : Bytes :=
  Bytes.string "M" ++ Bytes.count 0 ++ Bytes.count 1 ++ Bytes.string "" ++ Bytes.string "T" ++
    Bytes.uint32 0 ++ [7] ++ (TypeSig.builtin .object).encode ++ Bytes.count 0 ++ Bytes.count 0 ++
    Bytes.count 1 ++ looseMethod ++ Bytes.count 0 ++ Bytes.count 0

def looseHeader : Header where
  flags := 0
  storedChecksum := Checksum.crc32 loosePayload
  digest := Digest.sha256 loosePayload

def looseImage : Bytes :=
  looseHeader.encode ++ loosePayload

/-- The module that the image holds. -/
def looseModule : Module where
  magic := expectedMagic
  version := expectedVersion
  flags := 0
  name := "M"
  references := []
  types :=
    [{ qualifier := ""
       name := "T"
       flags := 0
       base := some (.builtin .object)
       genericParameters := []
       fields := []
       methods :=
         [{ name := "m"
            flags := 0
            returnType := .builtin .void
            parameters := []
            genericParameters := []
            attributes := []
            body := some ⟨1, [], true, [⟨.ldcI4S, .int32 1⟩, Opcode.ret.plain]⟩ }]
       properties := []
       attributes := [] }]
  checksum := Digest.sha256 loosePayload

private theorem accepted_looseImage :
    Accepted Checksum.crc32 Digest.sha256 looseImage looseModule looseHeader loosePayload where
  image := rfl
  digestSize := length_sha256 loosePayload
  checksum := rfl
  digest := rfl
  magic := rfl
  version := rfl
  flags := rfl
  digestField := rfl
  valid := by decide
  payload := by
    have read : runReader readPayload ⟨headerSize, loosePayload⟩ =
        .ok ((looseModule.name, looseModule.references, looseModule.types),
          ⟨headerSize + loosePayload.length, []⟩) := by
      decide +kernel
    exact ⟨_, runReader_eq_ok.mp read, rfl⟩

example : spellings looseImage = [.bool 7, .bool 1, .bool 2, .varint [0x82, 0x00] 1] := by
  decide +kernel

theorem normal_form_looseImage :
    decode looseImage = .ok looseModule ∧
      looseModule.encode.length ≤ looseImage.length ∧
      ∃ again, decode looseModule.encode = .ok again ∧
        again = { looseModule with checksum := again.checksum } ∧
        again.encode = looseModule.encode := by
  have read : decode looseImage = .ok looseModule := accepted_looseImage.decodeWith
  obtain ⟨shorter, again, -⟩ := normal_form read
  exact ⟨read, shorter, again⟩

end Module

end PropertyWeaver
