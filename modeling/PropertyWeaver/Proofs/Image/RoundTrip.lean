import PropertyWeaver.Proofs.Image.Nesting
import PropertyWeaver.Proofs.Image.Spelling

/-!
# Images of encodable declarations

Every run of a decoder on bytes that spell a value gives that value, whatever bytes follow them. So
every encodable declaration is read back from its bytes, and so is the whole of an encodable module.
Of the checksum and the digest only their sizes matter: both are recomputed from the payload when it
is read.
-/

set_option autoImplicit false

namespace PropertyWeaver

open Reader

/-! ## Nodes -/

theorem string_ne_nil (text : String) : Bytes.string text ≠ [] := by
  simp [Bytes.string, Bytes.count, Bytes.littleEndian]

private theorem sequence_ne_nil {α : Type} (write : α → Bytes) (items : List α) :
    Bytes.sequence write items ≠ [] := by
  simp [Bytes.sequence, Bytes.count, Bytes.littleEndian]

private theorem TypeRef.encode_ne_nil (type : TypeRef) : type.encode ≠ [] := by
  simp [encode, string_ne_nil]

theorem TypeSig.encode_ne_nil (sig : TypeSig) : sig.encode ≠ [] := by
  cases sig <;> simp [encode]

theorem Instruction.encode_ne_nil (instruction : Instruction) : instruction.encode ≠ [] := by
  simp [encode]

theorem Constant.encode_ne_nil (constant : Constant) : constant.encode ≠ [] := by
  simp [encode]

theorem Attribute.encode_ne_nil (attr : Attribute) : attr.encode ≠ [] := by
  simp [encode, sequence_ne_nil]

theorem FieldDef.encode_ne_nil (field : FieldDef) : field.encode ≠ [] := by
  simp [encode, string_ne_nil]

theorem ParameterDef.encode_ne_nil (parameter : ParameterDef) : parameter.encode ≠ [] := by
  simp [encode, string_ne_nil]

theorem MethodDef.encode_ne_nil (method : MethodDef) : method.encode ≠ [] := by
  simp [encode, string_ne_nil]

theorem PropertyDef.encode_ne_nil (property : PropertyDef) : property.encode ≠ [] := by
  simp [encode, string_ne_nil]

theorem TypeDef.encode_ne_nil (type : TypeDef) : type.encode ≠ [] := by
  simp [encode, string_ne_nil]

/-- Every node takes a byte. -/
theorem NodeKind.encode_ne_nil (kind : NodeKind) (value : kind.Value) : kind.encode value ≠ [] := by
  cases kind with
  | string => exact string_ne_nil value
  | typeRef => exact TypeRef.encode_ne_nil value
  | typeSig => exact TypeSig.encode_ne_nil value
  | fieldRef => simp [encode, FieldRef.encode, string_ne_nil]
  | methodRef => simp [encode, MethodRef.encode, string_ne_nil]
  | instruction => exact Instruction.encode_ne_nil value
  | body => simp [encode, MethodBody.encode, sequence_ne_nil]
  | constant => exact Constant.encode_ne_nil value
  | attr => exact Attribute.encode_ne_nil value
  | field => exact FieldDef.encode_ne_nil value
  | parameter => exact ParameterDef.encode_ne_nil value
  | method => exact MethodDef.encode_ne_nil value
  | property => exact PropertyDef.encode_ne_nil value
  | type => exact TypeDef.encode_ne_nil value
  | tables => simp [encode, string_ne_nil]

private theorem count_sequence {kind : NodeKind} {values : List kind.Value}
    (fits : EncodableList kind.Spellable values) (position : Nat) (rest : Bytes) :
    count ⟨position, Bytes.sequence kind.encode values ++ rest⟩ =
      .ok values.length ⟨position + 4, values.flatMap kind.encode ++ rest⟩ := by
  have counted := items_le_bytes fun value (_ : value ∈ values) => kind.encode_ne_nil value
  have enough : values.length ≤ (values.flatMap kind.encode ++ rest).length := by
    rw [List.length_append]
    omega
  rw [Bytes.sequence, List.append_assoc]
  exact count_append fits.count enough position

private theorem Decoder.Spells.times {α : Type} {kind : NodeKind} {values : List kind.Value}
    {next : List kind.Value → Decoder α} {rest : Bytes} {result : α}
    (tail : (next values).Spells rest result) (each : ∀ value ∈ values, kind.Spellable value) :
    (Decoder.times kind values.length next).Spells (values.flatMap kind.encode ++ rest) result := by
  induction values generalizing next with
  | nil => exact tail
  | cons first others hypothesis =>
      obtain ⟨here, behind⟩ := List.forall_mem_cons.mp each
      rw [List.flatMap_cons, List.append_assoc]
      exact ⟨first, _, here, rfl, hypothesis tail behind⟩

/-- A run on bytes that spell a value gives it and leaves what follows. -/
theorem Decoder.Runs.of_spells {α : Type} {decoder : Decoder α} {cursor : Cursor} {nodes position : Nat}
    {outcome : Outcome α} (run : decoder.Runs cursor nodes outcome) {image rest : Bytes} {value : α}
    (placed : cursor = ⟨position, image ++ rest⟩) (spells : decoder.Spells image value) :
    outcome = .ok value ⟨position + image.length, rest⟩ := by
  induction run generalizing position image rest with
  | done =>
      obtain ⟨rfl, rfl⟩ := spells
      rw [placed]
      rfl
  | @token _ form _ _ _ _ _ _ read _ hypothesis =>
      obtain ⟨here, back, fits, rfl, spells⟩ := spells
      rw [placed, List.append_assoc, Token.reads fits position (back ++ rest)] at read
      cases read
      rw [List.length_append, ← Nat.add_assoc]
      exact hypothesis rfl spells
  | @refused _ form _ _ _ _ read =>
      obtain ⟨here, back, fits, rfl, -⟩ := spells
      rw [placed, List.append_assoc, Token.reads fits position (back ++ rest)] at read
      cases read
  | @node _ kind _ _ _ _ _ _ _ _ _ first second =>
      obtain ⟨here, back, fits, rfl, spells⟩ := spells
      rw [List.append_assoc] at placed
      cases first placed (kind.spells_iff.mpr ⟨rfl, fits⟩)
      rw [List.length_append, ← Nat.add_assoc]
      exact second rfl spells
  | @stuck _ kind _ _ _ _ _ _ first =>
      obtain ⟨here, back, fits, rfl, -⟩ := spells
      rw [List.append_assoc] at placed
      cases first placed (kind.spells_iff.mpr ⟨rfl, fits⟩)
  | @sequence _ kind _ _ _ _ _ _ read _ hypothesis =>
      obtain ⟨values, back, fits, rfl, spells⟩ := spells
      rw [placed, List.append_assoc, count_sequence fits] at read
      cases read
      have same := hypothesis (congrArg _ (List.append_assoc ..).symm) (spells.times fits.each)
      have size : (Bytes.count values.length).length = 4 := Bytes.length_littleEndian 4 _
      have length : (Bytes.sequence kind.encode values ++ back).length =
          4 + (values.flatMap kind.encode ++ back).length := by
        rw [Bytes.sequence, List.append_assoc, List.length_append, size]
      rw [same, length, Nat.add_assoc]
  | @uncounted _ kind _ _ _ _ read =>
      obtain ⟨values, back, fits, rfl, -⟩ := spells
      rw [placed, List.append_assoc, count_sequence fits] at read
      cases read

theorem NodeKind.reads {kind : NodeKind} {value : kind.Value} (fits : kind.Spellable value) :
    Reads kind.read (kind.encode value) value := by
  intro position rest
  obtain ⟨nodes, run⟩ := kind.exists_runs ⟨position, kind.encode value ++ rest⟩
  exact run.of_spells rfl (kind.spells_iff.mpr ⟨rfl, fits⟩)

/-! ## Modules -/

namespace Module

/-- The parts of a payload are read back, and nothing behind them is touched. -/
theorem Encodable.readsPayload {module : Module} (encodable : module.Encodable) :
    Reads readPayload module.payload (module.name, module.references, module.types) := by
  have types : EncodableList TypeDef.Spellable module.types :=
    ⟨encodable.types.count, fun type listed =>
      (TypeDef.encodable_iff.mp (encodable.types.each type listed)).1⟩
  have fits : NodeKind.Spellable .tables (module.name, module.references, module.types) :=
    ⟨encodable.name, encodable.references, types⟩
  have read := NodeKind.reads fits
  exact read

@[simp] theorem length_sha256 (bytes : Bytes) : (Digest.sha256 bytes).length = 32 := by
  simp [Digest.sha256, Digest.bigEndian, Bytes.uint32]

private theorem header_eq_encode {module : Module} (magic : module.magic = expectedMagic)
    (version : module.version = expectedVersion) (payload : Bytes) :
    module.header payload =
      Header.encode ⟨module.flags, Checksum.crc32 payload, Digest.sha256 payload⟩ := by
  rw [header, Header.encode, magic, version]

/-- The header that the image of a module has. -/
def imageHeader (module : Module) : Header where
  flags := module.flags
  storedChecksum := Checksum.crc32 module.payload
  digest := Digest.sha256 module.payload

theorem length_digest_imageHeader (module : Module) : module.imageHeader.digest.length = 32 :=
  length_sha256 module.payload

theorem length_imageHeader (module : Module) : module.imageHeader.encode.length = headerSize :=
  Header.length_encode module.length_digest_imageHeader

theorem Encodable.encode_eq {module : Module} (encodable : module.Encodable) :
    module.encode = module.imageHeader.encode ++ module.payload := by
  rw [encode, header_eq_encode encodable.magic encodable.version, imageHeader]

/-- A header is read back and leaves the payload, which is not looked at. -/
theorem readHeader_header {module : Module} (magic : module.magic = expectedMagic)
    (version : module.version = expectedVersion) (payload : Bytes) :
    readHeader (Cursor.start (module.header payload ++ payload)) =
      .ok (⟨module.flags, Checksum.crc32 payload, Digest.sha256 payload⟩,
        ⟨headerSize, payload⟩) := by
  rw [header_eq_encode magic version]
  exact readHeader_eq_ok.mpr ⟨length_sha256 payload, rfl, rfl⟩

private theorem missingAccessor?_eq_none {type : TypeDef} (encodable : type.Encodable) :
    type.missingAccessor? = none := by
  simp only [TypeDef.missingAccessor?, List.findSome?_eq_none_iff, Option.map_eq_none_iff,
    List.find?_eq_none, decide_eq_true_eq, Nat.not_le]
  exact encodable.accessors

/-- The structure of an encodable module is in order. -/
theorem Encodable.validate {module : Module} (encodable : module.Encodable) :
    module.validate = .ok () := by
  rw [Module.validate, if_neg (by simpa using encodable.magic),
    if_neg (by simpa using encodable.version), List.findSome?_eq_none_iff.mpr]
  intro type member
  rw [missingAccessor?_eq_none (encodable.types.each type member)]
  rfl

private theorem Encodable.withHeader {module : Module} (encodable : module.Encodable)
    (flags : UInt32) (checksum : Bytes) :
    ({ module with flags := flags, checksum := checksum } : Module).Encodable :=
  ⟨encodable.magic, encodable.version, encodable.name, encodable.references, encodable.types⟩

/-- An image is decoded to the parts of its payload and the flags of its header, provided the header
vouches for the payload. -/
theorem Encodable.decode_of_readHeader {module : Module} (encodable : module.Encodable)
    {image : Bytes} {header : Header}
    (read : readHeader (Cursor.start image) = .ok (header, ⟨headerSize, module.payload⟩))
    (checksum : header.storedChecksum = Checksum.crc32 module.payload)
    (digest : Digest.sha256 module.payload = header.digest) :
    decode image = .ok { module with flags := header.flags, checksum := header.digest } := by
  have payloadRead := runReader_of_reads encodable.readsPayload headerSize []
  have valid := (encodable.withHeader header.flags header.digest).validate
  simp only [List.append_nil] at payloadRead
  simp only [encodable.magic, encodable.version] at valid ⊢
  simp only [decode, read, checksum, digest, payloadRead, bind, Except.bind, ne_eq,
    not_true_eq_false, ↓reduceIte, List.isEmpty_nil, Bool.not_true, Bool.false_eq_true, valid]
  rfl

/-- Decoding the image of an encodable module gives the module back, float words included, with the
digest of the payload in its checksum field. -/
theorem decode_encode {module : Module} (encodable : module.Encodable) :
    decode module.encode =
      .ok { module with checksum := Digest.sha256 module.payload } :=
  encodable.decode_of_readHeader
    (readHeader_header encodable.magic encodable.version module.payload) rfl rfl

/-! A module to decode: its getter branches and pushes both forms of an integer, and the argument of
an attribute nests a float word that is no number and a generic signature. -/

/-- The getter of a counter. -/
def counterGetter : MethodDef where
  name := "get_Count"
  flags := MethodFlag.publicAccess
  returnType := .builtin .int32
  parameters := []
  genericParameters := []
  attributes := []
  body := some (.ofCode 2
    [⟨.br, .branch 2⟩, Opcode.nop.plain, ⟨.ldcI4S, .int32 (-70000)⟩, ⟨.ldcI4, .int32 (-70000)⟩,
     Opcode.pop.plain, Opcode.ret.plain])

/-- Tags on a counter. -/
def counterTags : Attribute where
  type := ⟨none, "Demo", "Tags"⟩
  arguments :=
    [.array [.float64 ⟨0x7FF0000000000001⟩,
      .type (.instantiated ⟨none, "Demo", "Box"⟩ false [.builtin .string])]]

/-- A module that declares a counter. -/
def counterModule : Module where
  magic := expectedMagic
  version := expectedVersion
  flags := 0
  name := "Zähler"
  references := ["Core"]
  types :=
    [{ qualifier := "Demo"
       name := "Counter"
       flags := 0
       base := some (.classType ⟨some "Core", "System", "Object"⟩)
       genericParameters := ["T"]
       fields := [⟨"count", FieldFlag.privateAccess, .array (.typeParameter "T"), []⟩]
       methods := [counterGetter]
       properties := [⟨"Count", .builtin .int32, some 0, none, []⟩]
       attributes := [counterTags] }]
  checksum := []

private theorem counterGetter_encodable : counterGetter.Encodable where
  name := by decide
  returnType := .builtin
  parameters := .nil
  genericParameters := .nil
  attributes := .nil
  body := by
    rintro _ ⟨⟩
    refine ⟨.nil, by decide, ?_⟩
    simp only [List.forall_mem_cons, MethodBody.ofCode]
    have target : (2 : UInt64).toNat < 2 ^ 32 := by decide
    refine ⟨⟨rfl, target⟩, ⟨rfl, trivial⟩, ⟨rfl, trivial⟩, ⟨rfl, trivial⟩, ⟨rfl, trivial⟩,
      ⟨rfl, trivial⟩, by simp⟩

private theorem counterTags_encodable : counterTags.Encodable where
  type := ⟨by rintro _ ⟨⟩, by decide, by decide⟩
  arguments := by
    refine .singleton (.array (by decide) ?_)
    simp only [List.forall_mem_cons, List.not_mem_nil, false_implies, implies_true, and_true]
    refine ⟨.scalar (by decide), .type (.instantiated ?_ (by decide) ?_)⟩
    · exact ⟨by rintro _ ⟨⟩, by decide, by decide⟩
    · exact List.forall_mem_singleton.mpr .builtin

theorem counterModule_encodable : counterModule.Encodable where
  magic := rfl
  version := rfl
  name := by decide
  references := .singleton (by decide)
  types := .singleton {
    qualifier := by decide
    name := by decide
    base := by
      rintro _ ⟨⟩
      exact .classType ⟨by rintro _ ⟨⟩; decide, by decide, by decide⟩
    genericParameters := .singleton (by decide)
    fields := .singleton ⟨by decide, .array (.typeParameter (by decide)), .nil⟩
    methods := .singleton counterGetter_encodable
    properties := .singleton ⟨by decide, .builtin, .nil⟩
    attributes := .singleton counterTags_encodable
    accessors := by simp [PropertyDef.accessors] }

theorem decode_encode_counterModule :
    counterModule.Encodable ∧
      decode counterModule.encode =
        .ok { counterModule with checksum := Digest.sha256 counterModule.payload } :=
  ⟨counterModule_encodable, decode_encode counterModule_encodable⟩

end Module

end PropertyWeaver
