import PropertyWeaver.Proofs.Image.RoundTrip

/-!
# Images delimit themselves

A reader that succeeds on some bytes gives the same value on more of them and leaves the rest. This
holds although a sequence looks at the number of unread bytes, since more bytes only raise what that
number allows. A payload cut short can therefore not be read to its end, and bytes behind a payload
are left over. Neither needs the checksum or the digest, so both are arbitrary functions here.
-/

set_option autoImplicit false

namespace PropertyWeaver

variable {α β : Type}

/-- The cursor with more bytes behind the unread ones. -/
def Cursor.extend (cursor : Cursor) (more : Bytes) : Cursor :=
  ⟨cursor.position, cursor.unread ++ more⟩

/-- What the reader gives on some bytes, it gives on more of them, and it leaves the bytes added. -/
def Reader.Persists (reader : Reader α) : Prop :=
  ∀ (cursor : Cursor) value rest, reader cursor = .ok value rest → ∀ more,
    reader (cursor.extend more) = .ok value (rest.extend more)

namespace Reader.Persists

variable {reader : Reader α} {next : α → Reader β}

private theorem pure (value : α) : Persists (Pure.pure value) := by
  rintro _ _ _ ⟨⟩ more
  rfl

private theorem fail (error : ReadError) : Persists (Reader.fail error : Reader α) := by
  rintro _ _ _ ⟨⟩

private theorem position : Persists Reader.position := by
  rintro _ _ _ ⟨⟩ more
  rfl

private theorem bind (head : reader.Persists) (tail : ∀ value, (next value).Persists) :
    (reader >>= next).Persists := by
  intro cursor result rest read more
  obtain ⟨value, middle, taken, read⟩ := Reader.bind_eq_ok.mp read
  exact Reader.bind_eq_ok.mpr ⟨value, _, head _ _ _ taken more, tail value _ _ _ read more⟩

/-- What only renames the value reads nothing. -/
private theorem map (head : reader.Persists) (rename : α → β) :
    Persists (do return rename (← reader)) :=
  head.bind fun value => pure (rename value)

private theorem uint8 : Persists Reader.uint8 := by
  rintro ⟨place, _ | ⟨byte, unread⟩⟩ value rest read more
  · cases read
  · cases read
    rfl

private theorem bytes (size : Nat) : (Reader.bytes size).Persists := by
  intro cursor value rest read more
  obtain ⟨counted, spelled, moved⟩ := Reader.bytes_eq_ok.mp read
  refine Reader.bytes_eq_ok.mpr ⟨counted, ?_, moved⟩
  rw [Cursor.extend, spelled, List.append_assoc]
  rfl

private theorem uint16 : Persists Reader.uint16 :=
  (bytes 2).map _

private theorem uint32 : Persists Reader.uint32 :=
  (bytes 4).map _

private theorem uint64 : Persists Reader.uint64 :=
  (bytes 8).map _

private theorem sevenBitGroups (start limit : Nat) :
    (Reader.sevenBitGroups start limit).Persists := by
  induction limit with
  | zero => exact fail _
  | succ limit ih =>
      refine uint8.bind fun byte => ?_
      split
      · exact pure _
      · exact ih.map _

private theorem varint : Persists Reader.varint :=
  position.bind fun start => (sevenBitGroups start 5).map _

private theorem string : Persists Reader.string := by
  refine uint32.bind fun size => position.bind fun start =>
    (bytes size.toNat).bind fun encoded => ?_
  split
  · exact pure _
  · exact fail _

private theorem coded {ofByte? : UInt8 → Option α} {error : UInt8 → Nat → ReadError} :
    (Reader.coded ofByte? error).Persists := by
  refine position.bind fun offset => uint8.bind fun byte => ?_
  split
  · exact pure _
  · exact fail _

/-- More unread bytes allow the same numbers of items and others. -/
private theorem count : Persists Reader.count := by
  intro cursor number rest read more
  obtain ⟨fits, spelled, moved, enough⟩ := Reader.count_eq_ok.mp read
  refine Reader.count_eq_ok.mpr ⟨fits, ?_, moved, ?_⟩
  · rw [Cursor.extend, spelled, List.append_assoc]
    rfl
  · rw [Cursor.extend, List.length_append]
    omega

end Reader.Persists

private theorem Token.persists (token : Token) : token.read.Persists := by
  cases token with
  | uint8 => exact .uint8
  | uint16 => exact .uint16
  | uint32 => exact .uint32
  | uint64 => exact .uint64
  | int32 | float32 => exact Reader.Persists.uint32.map _
  | int64 | float64 => exact Reader.Persists.uint64.map _
  | bool => exact Reader.Persists.uint8.map _
  | varint => exact .varint
  | string => exact .string
  | opcode | typeForm | constantKind => exact .coded

private theorem Decoder.Runs.extend {decoder : Decoder α} {cursor rest : Cursor} {nodes : Nat}
    {value : α} (run : decoder.Runs cursor nodes (.ok value rest)) (more : Bytes) :
    decoder.Runs (cursor.extend more) nodes (.ok value (rest.extend more)) := by
  generalize ended : EStateM.Result.ok value rest = outcome at run
  induction run generalizing rest with
  | done =>
      cases ended
      exact .done
  | @token _ form _ _ _ _ _ _ read _ hypothesis =>
      exact .token (form.persists _ _ _ read more) (hypothesis ended)
  | refused => cases ended
  | node _ _ first second => exact .node (first rfl) (second ended)
  | stuck => cases ended
  | sequence read _ hypothesis =>
      exact .sequence (Reader.Persists.count _ _ _ read more) (hypothesis ended)
  | uncounted => cases ended

private theorem NodeKind.read_persists (kind : NodeKind) : kind.read.Persists := by
  intro cursor value rest read more
  obtain ⟨nodes, run⟩ := kind.exists_runs cursor
  rw [read] at run
  exact read_eq_of_runs (run.extend more)

open Reader

/-! ## Modules -/

namespace Module

/-- Reads a whole image whose payload is vouched for by the given functions in place of the checksum
and the digest. -/
def decodeWith (checksum : Bytes → UInt32) (digest : Bytes → Bytes) (image : Bytes) :
    Except ImageError Module := do
  let (header, cursor) ← readHeader (Cursor.start image)
  let computed := checksum cursor.unread
  if header.storedChecksum ≠ computed then
    throw (.checksumMismatch header.storedChecksum computed)
  if digest cursor.unread ≠ header.digest then
    throw .digestMismatch
  let ((name, references, types), cursor) ← runReader readPayload cursor
  if !cursor.unread.isEmpty then
    throw (.trailingBytes cursor.unread.length)
  let module : Module :=
    { magic := expectedMagic
      version := expectedVersion
      flags := header.flags
      name := name
      references := references
      types := types
      checksum := header.digest }
  module.validate
  return module

private theorem decode_eq_decodeWith : decode = decodeWith Checksum.crc32 Digest.sha256 := rfl

/-- An image is accepted with this header and this payload as this module. -/
structure Accepted (checksum : Bytes → UInt32) (digest : Bytes → Bytes) (image : Bytes)
    (module : Module) (header : Header) (body : Bytes) : Prop where
  image : image = header.encode ++ body
  digestSize : header.digest.length = 32
  checksum : header.storedChecksum = checksum body
  digest : header.digest = digest body
  magic : module.magic = expectedMagic
  version : module.version = expectedVersion
  flags : module.flags = header.flags
  digestField : module.checksum = header.digest
  valid : module.validate = .ok ()
  payload : ∃ rest, readPayload ⟨headerSize, body⟩ =
    .ok (module.name, module.references, module.types) rest ∧ rest.unread = []

theorem exists_accepted {checksum : Bytes → UInt32} {digest : Bytes → Bytes} {image : Bytes}
    {module : Module} (read : decodeWith checksum digest image = .ok module) :
    ∃ header body, Accepted checksum digest image module header body := by
  obtain ⟨⟨header, ⟨position, body⟩⟩, head, read⟩ := Outcome.bind_eq_ok.mp read
  obtain ⟨digestSize, spelled, moved⟩ := readHeader_eq_ok.mp head
  simp only at read spelled moved
  subst moved
  split at read
  · cases read
  next checked =>
  split at read
  · cases read
  next digested =>
  obtain ⟨⟨⟨name, references, types⟩, rest⟩, payload, read⟩ := Outcome.bind_eq_ok.mp read
  simp only at read
  split at read
  · cases read
  next finished =>
  obtain ⟨⟨⟩, valid, read⟩ := Outcome.bind_eq_ok.mp read
  obtain rfl := Except.ok.inj read
  exact ⟨header, body, {
    image := spelled
    digestSize := digestSize
    checksum := not_not.mp checked
    digest := (not_not.mp digested).symm
    magic := rfl
    version := rfl
    flags := rfl
    digestField := rfl
    valid := valid
    payload := ⟨rest, runReader_eq_ok.mp payload, by simpa using finished⟩ }⟩

theorem Accepted.readHeader {checksum : Bytes → UInt32} {digest : Bytes → Bytes} {image : Bytes}
    {module : Module} {header : Header} {body : Bytes}
    (accepted : Accepted checksum digest image module header body) :
    readHeader (.start image) = .ok (header, ⟨headerSize, body⟩) :=
  readHeader_eq_ok.mpr ⟨accepted.digestSize, accepted.image, rfl⟩

theorem Accepted.decodeWith {checksum : Bytes → UInt32} {digest : Bytes → Bytes} {image : Bytes}
    {module : Module} {header : Header} {body : Bytes}
    (accepted : Accepted checksum digest image module header body) :
    decodeWith checksum digest image = .ok module := by
  obtain ⟨rest, payload, finished⟩ := accepted.payload
  have head := accepted.readHeader
  obtain ⟨magic, version, flags, name, references, types, field⟩ := module
  obtain rfl : magic = expectedMagic := accepted.magic
  obtain rfl : version = expectedVersion := accepted.version
  obtain rfl : flags = header.flags := accepted.flags
  obtain rfl : field = header.digest := accepted.digestField
  simp only [Module.decodeWith, head, accepted.checksum, ← accepted.digest,
    runReader_eq_ok.mpr payload, finished, accepted.valid, bind, Except.bind, ne_eq,
    not_true_eq_false, ↓reduceIte, List.isEmpty_nil, Bool.not_true, Bool.false_eq_true]
  rfl

section Resized

variable {module : Module} {checksum : Bytes → UInt32} {digest : Bytes → Bytes}

private theorem Encodable.decodeWith_prefix (encodable : module.Encodable) {image : Bytes}
    (cut : image <+: module.encode) (proper : image ≠ module.encode) :
    ∃ error, decodeWith checksum digest image = .error error := by
  cases read : decodeWith checksum digest image with
  | error error => exact ⟨error, rfl⟩
  | ok other =>
      obtain ⟨header, front, accepted⟩ := exists_accepted read
      obtain ⟨rest, payload, finished⟩ := accepted.payload
      obtain ⟨back, parts⟩ := cut
      have size := Header.length_encode accepted.digestSize
      rw [accepted.image, encodable.encode_eq, List.append_assoc] at parts
      obtain ⟨sameHeader, parts⟩ :=
        List.append_inj parts (size.trans module.length_imageHeader.symm)
      -- the whole payload is read like its front, which leaves what is missing there
      have longer : readPayload ⟨headerSize, front ++ back⟩ = _ :=
        NodeKind.read_persists .tables _ _ _ payload back
      have whole := encodable.readsPayload headerSize []
      rw [List.append_nil, ← parts, longer, Cursor.extend, finished] at whole
      have nothing : back = [] := congrArg Cursor.unread (EStateM.Result.ok.inj whole).2
      rw [nothing, List.append_nil] at parts
      rw [accepted.image, encodable.encode_eq, sameHeader, parts] at proper
      exact absurd rfl proper

private theorem Encodable.decodeWith_append (encodable : module.Encodable) {tail : Bytes}
    (longer : tail ≠ []) :
    ∃ error, decodeWith checksum digest (module.encode ++ tail) = .error error := by
  cases read : decodeWith checksum digest (module.encode ++ tail) with
  | error error => exact ⟨error, rfl⟩
  | ok other =>
      obtain ⟨header, body, accepted⟩ := exists_accepted read
      obtain ⟨rest, payload, finished⟩ := accepted.payload
      have size := Header.length_encode accepted.digestSize
      have parts := accepted.image
      rw [encodable.encode_eq, List.append_assoc] at parts
      obtain ⟨-, parts⟩ := List.append_inj parts (module.length_imageHeader.trans size.symm)
      have whole := encodable.readsPayload headerSize tail
      rw [parts, payload] at whole
      have left : rest.unread = tail := congrArg Cursor.unread (EStateM.Result.ok.inj whole).2
      exact absurd (left.symm.trans finished) longer

/-- An image is neither cut short nor continued, whatever stands for the checksum and the digest.
-/
theorem Encodable.self_delimiting (encodable : module.Encodable) :
    decode = decodeWith Checksum.crc32 Digest.sha256 ∧
      ∀ (checksum : Bytes → UInt32) (digest : Bytes → Bytes),
        (∀ image, image <+: module.encode → image ≠ module.encode →
          ∃ error, decodeWith checksum digest image = .error error) ∧
        ∀ tail, tail ≠ [] →
          ∃ error, decodeWith checksum digest (module.encode ++ tail) = .error error :=
  ⟨decode_eq_decodeWith, fun _ _ => ⟨fun _ cut proper => encodable.decodeWith_prefix cut proper,
    fun _ longer => encodable.decodeWith_append longer⟩⟩

end Resized

/-- A check that accepts everything still needs the last byte and no more. -/
theorem self_delimiting_counterModule :
    counterModule.Encodable ∧
      (∃ error, decodeWith (fun _ => Checksum.crc32 counterModule.payload)
        (fun _ => Digest.sha256 counterModule.payload) counterModule.encode.dropLast =
          .error error) ∧
      ∃ error, decodeWith (fun _ => Checksum.crc32 counterModule.payload)
        (fun _ => Digest.sha256 counterModule.payload) (counterModule.encode ++ [0]) =
          .error error := by
  have nonempty : counterModule.encode ≠ [] := by
    simp [encode, header, expectedMagic, counterModule]
  have proper : counterModule.encode.dropLast ≠ counterModule.encode := by
    intro same
    have positive := List.length_pos_iff.mpr nonempty
    have shorter := congrArg List.length same
    rw [List.length_dropLast] at shorter
    omega
  obtain ⟨-, delimits⟩ := counterModule_encodable.self_delimiting
  obtain ⟨cut, continued⟩ := delimits (fun _ => Checksum.crc32 counterModule.payload)
    (fun _ => Digest.sha256 counterModule.payload)
  exact ⟨counterModule_encodable, cut _ (List.dropLast_prefix _) proper, continued [0] (by simp)⟩

end Module

end PropertyWeaver
