import PropertyWeaver.Proofs.Code.Insertion
import PropertyWeaver.Proofs.Image.Decoded
import PropertyWeaver.Proofs.Image.RoundTrip

/-!
# Modules that are read back up to their targets

An image cuts lengths, accessors and branch targets to 32 bits. A counted module has short texts and
lists; its targets may be of any size. Cutting its targets leaves its image as it is, and what is left is
encodable if operands fit and accessors exist.
-/

set_option autoImplicit false

namespace PropertyWeaver

/-! ## Short texts and lists -/

/-- An operand whose texts and lists can be counted. A branch target is no length. -/
def Operand.Counted : Operand → Prop
  | .branch _ => True
  | operand => operand.Encodable

structure MethodBody.Counted (body : MethodBody) : Prop where
  locals : EncodableList TypeSig.Encodable body.locals
  instructions : EncodableList (fun instruction => instruction.operand.Counted) body.instructions

structure MethodDef.Counted (method : MethodDef) : Prop where
  name : EncodableText method.name
  returnType : method.returnType.Encodable
  parameters : EncodableList ParameterDef.Encodable method.parameters
  genericParameters : EncodableList EncodableText method.genericParameters
  attributes : EncodableList Attribute.Encodable method.attributes
  body : ∀ body ∈ method.body, body.Counted

structure TypeDef.Counted (type : TypeDef) : Prop where
  qualifier : EncodableText type.qualifier
  name : EncodableText type.name
  base : ∀ base ∈ type.base, base.Encodable
  genericParameters : EncodableList EncodableText type.genericParameters
  fields : EncodableList FieldDef.Encodable type.fields
  methods : EncodableList MethodDef.Counted type.methods
  properties : EncodableList PropertyDef.Encodable type.properties
  attributes : EncodableList Attribute.Encodable type.attributes

/-- Every text and every list of the module can be counted by a 32-bit word. -/
structure Module.Counted (module : Module) : Prop where
  name : EncodableText module.name
  references : EncodableList EncodableText module.references
  types : EncodableList TypeDef.Counted module.types

/-! ## Cutting targets -/

/-- What a branch target is when it has been written and read. -/
def cutTarget (target : UInt64) : UInt64 :=
  target.toUInt32.toUInt64

private theorem toNat_cutTarget (target : UInt64) :
    (cutTarget target).toNat = target.toNat % 2 ^ 32 := by
  rw [cutTarget, UInt32.toNat_toUInt64, UInt64.toNat_toUInt32]

private theorem toUInt32_cutTarget (target : UInt64) :
    (cutTarget target).toUInt32 = target.toUInt32 := by
  apply UInt32.toNat_inj.mp
  rw [UInt64.toNat_toUInt32, toNat_cutTarget, UInt64.toNat_toUInt32, Nat.mod_mod]

def MethodBody.cutTargets (body : MethodBody) : MethodBody :=
  { body with instructions := body.instructions.map (Instruction.mapTarget cutTarget) }

def MethodDef.cutTargets (method : MethodDef) : MethodDef :=
  { method with body := method.body.map MethodBody.cutTargets }

def TypeDef.cutTargets (type : TypeDef) : TypeDef :=
  { type with methods := type.methods.map MethodDef.cutTargets }

/-- The module with every branch target cut to 32 bits. -/
def Module.cutTargets (module : Module) : Module :=
  { module with types := module.types.map TypeDef.cutTargets }

private theorem Bytes.sequence_map {α : Type} {write : α → Bytes} {change : α → α}
    (same : ∀ item, write (change item) = write item) (items : List α) :
    Bytes.sequence write (items.map change) = Bytes.sequence write items := by
  rw [Bytes.sequence, Bytes.sequence, List.length_map, List.flatMap_map]
  congr 1
  induction items with
  | nil => rfl
  | cons item items hypothesis => rw [List.flatMap_cons, List.flatMap_cons, same, hypothesis]

private theorem Instruction.encode_cutTarget (instruction : Instruction) :
    (instruction.mapTarget cutTarget).encode = instruction.encode := by
  obtain ⟨opcode, operand⟩ := instruction
  cases operand with
  | branch target =>
      simp only [encode, mapTarget, Operand.encode, toUInt32_cutTarget]
  | _ => rfl

theorem MethodBody.encode_cutTargets (body : MethodBody) : body.cutTargets.encode = body.encode := by
  simp only [encode, cutTargets, Bytes.sequence_map Instruction.encode_cutTarget]

theorem MethodDef.encode_cutTargets (method : MethodDef) :
    method.cutTargets.encode = method.encode := by
  have same : Bytes.optional MethodBody.encode (method.body.map MethodBody.cutTargets) =
      Bytes.optional MethodBody.encode method.body := by
    cases method.body with
    | none => rfl
    | some body => simp only [Option.map_some, Bytes.optional, body.encode_cutTargets]
  simp only [encode, cutTargets, same]

theorem TypeDef.encode_cutTargets (type : TypeDef) : type.cutTargets.encode = type.encode := by
  simp only [encode, cutTargets, Bytes.sequence_map MethodDef.encode_cutTargets]

private theorem Module.payload_cutTargets (module : Module) :
    module.cutTargets.payload = module.payload := by
  simp only [payload, cutTargets, Bytes.sequence_map TypeDef.encode_cutTargets]

theorem Module.encode_cutTargets (module : Module) : module.cutTargets.encode = module.encode := by
  simp only [encode, payload_cutTargets]
  rfl

private theorem Instruction.mapTarget_cutTarget {instruction : Instruction}
    (small : ∀ target ∈ instruction.target?, target < 2 ^ 32) :
    instruction.mapTarget cutTarget = instruction := by
  obtain ⟨opcode, operand⟩ := instruction
  cases operand with
  | branch target =>
      have kept : cutTarget target = target := by
        apply UInt64.toNat_inj.mp
        rw [toNat_cutTarget, Nat.mod_eq_of_lt (small target.toNat rfl)]
      simp only [mapTarget, kept]
  | _ => rfl

private theorem map_eq_self {α : Type} {items : List α} {change : α → α}
    (same : ∀ item ∈ items, change item = item) : items.map change = items := by
  rw [List.map_congr_left same, List.map_id']

theorem Module.cutTargets_eq_self {module : Module}
    (small : module.AllCode fun instruction => ∀ target ∈ instruction.target?, target < 2 ^ 32) :
    module.cutTargets = module := by
  have types : module.types.map TypeDef.cutTargets = module.types := by
    refine map_eq_self fun type listed => ?_
    have methods : type.methods.map MethodDef.cutTargets = type.methods := by
      refine map_eq_self fun method declared => ?_
      cases code : method.body with
      | none =>
          rw [MethodDef.cutTargets, code]
          exact congrArg _ code.symm
      | some body =>
          have kept : body.cutTargets = body := by
            rw [MethodBody.cutTargets, map_eq_self fun instruction member =>
              Instruction.mapTarget_cutTarget (small type listed method declared body code instruction
                member)]
          rw [MethodDef.cutTargets, code, Option.map_some, kept]
          exact congrArg _ code.symm
    rw [TypeDef.cutTargets, methods]
  rw [cutTargets, types]

/-! ## Reading back -/

private theorem EncodableList.map {α : Type} {counted encodable : α → Prop} {items : List α}
    {change : α → α} (list : EncodableList counted items)
    (each : ∀ item ∈ items, counted item → encodable (change item)) :
    EncodableList encodable (items.map change) := by
  refine ⟨by rw [List.length_map]; exact list.count, fun item member => ?_⟩
  obtain ⟨before, listed, rfl⟩ := List.mem_map.mp member
  exact each before listed (list.each before listed)

theorem Operand.Counted.encodable {opcode : Opcode} {operand : Operand} (counted : operand.Counted)
    (fits : Instruction.wellFormed ⟨opcode, operand⟩ = true) :
    (Instruction.mapTarget cutTarget ⟨opcode, operand⟩).Encodable := by
  cases operand with
  | branch target =>
      refine ⟨by rw [Instruction.wellFormed_mapTarget]; exact fits, ?_⟩
      change (cutTarget target).toNat < 2 ^ 32
      rw [toNat_cutTarget]
      exact Nat.mod_lt _ (by decide)
  | _ => exact ⟨fits, counted⟩

theorem TypeDef.Counted.encodable {type : TypeDef} (counted : type.Counted)
    (fits : type.AllCode fun instruction => instruction.wellFormed = true)
    (accessors : type.HasAccessors) : type.cutTargets.Encodable where
  qualifier := counted.qualifier
  name := counted.name
  base := counted.base
  genericParameters := counted.genericParameters
  fields := counted.fields
  properties := counted.properties
  attributes := counted.attributes
  accessors := by
    simpa only [cutTargets, List.length_map, TypeDef.HasAccessors] using accessors
  methods := counted.methods.map fun method declared counted =>
    { name := counted.name
      returnType := counted.returnType
      parameters := counted.parameters
      genericParameters := counted.genericParameters
      attributes := counted.attributes
      body := by
        intro body code
        obtain ⟨before, stored, rfl⟩ := Option.map_eq_some_iff.mp code
        have short := counted.body before stored
        exact ⟨short.locals, short.instructions.map fun instruction member counted =>
          counted.encodable (fits method declared before stored instruction member)⟩ }

theorem Module.Counted.encodable {module : Module} (counted : module.Counted)
    (decoded : module.Decoded) : module.cutTargets.Encodable where
  magic := decoded.magic
  version := decoded.version
  name := counted.name
  references := counted.references
  types := counted.types.map fun type listed counted =>
    counted.encodable (decoded.fits type listed) (decoded.accessors type listed)

/-- A counted module is read back from its image up to the checksum and with its targets cut. -/
theorem Module.decode_encode_of_counted {module : Module} (counted : module.Counted)
    (decoded : module.Decoded) :
    decode module.encode =
      .ok { module.cutTargets with checksum := Digest.sha256 module.payload } := by
  have encodable := counted.encodable decoded
  have header := readHeader_header encodable.magic encodable.version module.cutTargets.payload
  have read := encodable.decode_of_readHeader header rfl rfl
  rw [← payload_cutTargets, ← encode_cutTargets]
  exact read

/-! ## Short images

Every text and every item of a list takes part in the image, so an image of less than 4 GiB is that of a
counted module. -/

private theorem encodableText_of_length {text : String}
    (short : (Bytes.string text).length < 2 ^ 32) :
    EncodableText text := by
  simp only [Bytes.string, List.length_append] at short
  unfold EncodableText
  omega

private theorem EncodableList.of_length {α : Type} {encodable : α → Prop} {write : α → Bytes}
    {items : List α} (nonempty : ∀ item, write item ≠ [])
    (each : ∀ item, (write item).length < 2 ^ 32 → encodable item)
    (short : (Bytes.sequence write items).length < 2 ^ 32) : EncodableList encodable items := by
  simp only [Bytes.sequence, List.length_append] at short
  have many := Reader.items_le_bytes fun item (_ : item ∈ items) => nonempty item
  refine ⟨by omega, fun item member => each item ?_⟩
  have part := Bytes.length_le_length_flatMap write member
  omega

private theorem length_of_optional {α : Type} {write : α → Bytes} {value : Option α} {item : α}
    (present : item ∈ value) (short : (Bytes.optional write value).length < 2 ^ 32) :
    (write item).length < 2 ^ 32 := by
  obtain rfl := Option.mem_def.mp present
  simp only [Bytes.optional, List.length_append] at short
  omega

theorem TypeRef.encodable_of_length {type : TypeRef} (short : type.encode.length < 2 ^ 32) :
    type.Encodable := by
  simp only [encode, List.length_append] at short
  exact ⟨fun scope present => encodableText_of_length (length_of_optional present (by omega)),
    encodableText_of_length (by omega), encodableText_of_length (by omega)⟩

mutual

theorem TypeSig.encodable_of_length :
    (sig : TypeSig) → sig.encode.length < 2 ^ 32 → sig.Encodable
  | .builtin type, _ => .builtin
  | .classType type, short => by
      simp only [encode, List.length_cons] at short
      exact .classType (TypeRef.encodable_of_length (by omega))
  | .valueType type, short => by
      simp only [encode, List.length_cons] at short
      exact .valueType (TypeRef.encodable_of_length (by omega))
  | .instantiated definition isValue arguments, short => by
      simp only [encode, List.length_cons, List.length_append] at short
      obtain ⟨count, each⟩ := allEncodable_of_length arguments (by omega)
      exact .instantiated (TypeRef.encodable_of_length (by omega)) (by omega) each
  | .typeParameter name, short => by
      simp only [encode, List.length_cons] at short
      exact .typeParameter (encodableText_of_length (by omega))
  | .methodParameter name, short => by
      simp only [encode, List.length_cons] at short
      exact .methodParameter (encodableText_of_length (by omega))
  | .array element, short => by
      simp only [encode, List.length_cons] at short
      exact .array (encodable_of_length element (by omega))

theorem TypeSig.allEncodable_of_length :
    (sigs : List TypeSig) → (encodeAll sigs).length < 2 ^ 32 →
      sigs.length ≤ (encodeAll sigs).length ∧ ∀ sig ∈ sigs, sig.Encodable
  | [], _ => ⟨Nat.zero_le _, by simp⟩
  | sig :: sigs, short => by
      simp only [encodeAll, List.length_append] at short ⊢
      obtain ⟨count, each⟩ := allEncodable_of_length sigs (by omega)
      have tag := List.length_pos_iff.mpr sig.encode_ne_nil
      refine ⟨by rw [List.length_cons]; omega, List.forall_mem_cons.mpr ⟨?_, each⟩⟩
      exact encodable_of_length sig (by omega)

end

theorem TypeSig.encodableList_of_length {sigs : List TypeSig}
    (short : (Bytes.sequence TypeSig.encode sigs).length < 2 ^ 32) :
    EncodableList TypeSig.Encodable sigs :=
  .of_length encode_ne_nil (fun sig short => sig.encodable_of_length short) short

theorem Operand.counted_of_length {operand : Operand} {kind : OperandKind}
    (short : (operand.encode kind).length < 2 ^ 32) : operand.Counted := by
  cases operand with
  | string value => exact encodableText_of_length short
  | field member =>
      simp only [encode, FieldRef.encode, List.length_append] at short
      exact ⟨TypeSig.encodable_of_length _ (by omega), encodableText_of_length (by omega),
        TypeSig.encodable_of_length _ (by omega)⟩
  | method member =>
      simp only [encode, MethodRef.encode, List.length_append] at short
      exact ⟨TypeSig.encodable_of_length _ (by omega), encodableText_of_length (by omega),
        TypeSig.encodable_of_length _ (by omega), TypeSig.encodableList_of_length (by omega),
        TypeSig.encodableList_of_length (by omega)⟩
  | type sig => exact sig.encodable_of_length short
  | _ => trivial

theorem MethodBody.counted_of_length {body : MethodBody} (short : body.encode.length < 2 ^ 32) :
    body.Counted := by
  simp only [encode, List.length_append] at short
  refine ⟨TypeSig.encodableList_of_length (by omega),
    .of_length Instruction.encode_ne_nil (fun instruction short => ?_) (by omega)⟩
  simp only [Instruction.encode, List.length_cons] at short
  exact @Operand.counted_of_length _ instruction.opcode.operandKind (by omega)

mutual

theorem Constant.encodable_of_length :
    (constant : Constant) → constant.encode.length < 2 ^ 32 → constant.Encodable
  | .string value, short => by
      simp only [encode, payload, List.length_cons] at short
      exact .string (encodableText_of_length (by omega))
  | .type sig, short => by
      simp only [encode, payload, List.length_cons] at short
      exact .type (sig.encodable_of_length (by omega))
  | .array items, short => by
      simp only [encode, payload, List.length_cons, List.length_append] at short
      obtain ⟨count, each⟩ := allEncodable_of_length items (by omega)
      exact .array (by omega) each
  | .null, _ | .bool _, _ | .char _, _ | .int8 _, _ | .uint8 _, _ | .int16 _, _ | .uint16 _, _
  | .int32 _, _ | .uint32 _, _ | .int64 _, _ | .uint64 _, _ | .float32 _, _ | .float64 _, _ =>
      .scalar (by simp [kind])

theorem Constant.allEncodable_of_length :
    (items : List Constant) → (encodeAll items).length < 2 ^ 32 →
      items.length ≤ (encodeAll items).length ∧ ∀ item ∈ items, item.Encodable
  | [], _ => ⟨Nat.zero_le _, by simp⟩
  | item :: items, short => by
      simp only [encodeAll, List.length_append, List.length_cons] at short ⊢
      obtain ⟨count, each⟩ := allEncodable_of_length items (by omega)
      refine ⟨by omega, List.forall_mem_cons.mpr ⟨?_, each⟩⟩
      exact encodable_of_length item (by rw [encode, List.length_cons]; omega)

end

theorem Attribute.encodableList_of_length {attributes : List Attribute}
    (short : (Bytes.sequence Attribute.encode attributes).length < 2 ^ 32) :
    EncodableList Attribute.Encodable attributes := by
  refine .of_length encode_ne_nil (fun attr short => ?_) short
  simp only [encode, List.length_append] at short
  exact ⟨TypeRef.encodable_of_length (by omega),
    .of_length Constant.encode_ne_nil (fun item short => item.encodable_of_length short) (by omega)⟩

private theorem encodableTexts_of_length {texts : List String}
    (short : (Bytes.sequence Bytes.string texts).length < 2 ^ 32) : EncodableList EncodableText texts :=
  .of_length string_ne_nil (fun _ short => encodableText_of_length short) short

theorem FieldDef.encodable_of_length {field : FieldDef} (short : field.encode.length < 2 ^ 32) :
    field.Encodable := by
  simp only [encode, List.length_append] at short
  exact ⟨encodableText_of_length (by omega), TypeSig.encodable_of_length _ (by omega),
    Attribute.encodableList_of_length (by omega)⟩

theorem ParameterDef.encodable_of_length {parameter : ParameterDef}
    (short : parameter.encode.length < 2 ^ 32) : parameter.Encodable := by
  simp only [encode, List.length_append] at short
  exact ⟨encodableText_of_length (by omega), TypeSig.encodable_of_length _ (by omega)⟩

theorem MethodDef.counted_of_length {method : MethodDef} (short : method.encode.length < 2 ^ 32) :
    method.Counted := by
  simp only [encode, List.length_append] at short
  exact ⟨encodableText_of_length (by omega), TypeSig.encodable_of_length _ (by omega),
    .of_length ParameterDef.encode_ne_nil (fun _ short => ParameterDef.encodable_of_length short)
      (by omega),
    encodableTexts_of_length (by omega), Attribute.encodableList_of_length (by omega),
    fun body present => MethodBody.counted_of_length (length_of_optional present (by omega))⟩

theorem PropertyDef.encodable_of_length {property : PropertyDef}
    (short : property.encode.length < 2 ^ 32) : property.Encodable := by
  simp only [encode, List.length_append] at short
  exact ⟨encodableText_of_length (by omega), TypeSig.encodable_of_length _ (by omega),
    Attribute.encodableList_of_length (by omega)⟩

theorem TypeDef.counted_of_length {type : TypeDef} (short : type.encode.length < 2 ^ 32) :
    type.Counted := by
  simp only [encode, List.length_append] at short
  exact ⟨encodableText_of_length (by omega), encodableText_of_length (by omega),
    fun base present => TypeSig.encodable_of_length base (length_of_optional present (by omega)),
    encodableTexts_of_length (by omega),
    .of_length FieldDef.encode_ne_nil (fun _ short => FieldDef.encodable_of_length short) (by omega),
    .of_length MethodDef.encode_ne_nil (fun _ short => MethodDef.counted_of_length short) (by omega),
    .of_length PropertyDef.encode_ne_nil (fun _ short => PropertyDef.encodable_of_length short)
      (by omega),
    Attribute.encodableList_of_length (by omega)⟩

theorem Module.counted_of_length {module : Module} (short : module.payload.length < 2 ^ 32) :
    module.Counted := by
  simp only [payload, List.length_append] at short
  exact ⟨encodableText_of_length (by omega), encodableTexts_of_length (by omega),
    .of_length TypeDef.encode_ne_nil (fun _ short => TypeDef.counted_of_length short) (by omega)⟩

/-- A module with a short image and short targets is read back up to the checksum. -/
theorem Module.decode_encode_of_length {module : Module} (short : module.payload.length < 2 ^ 32)
    (decoded : module.Decoded)
    (small : module.AllCode fun instruction => ∀ target ∈ instruction.target?, target < 2 ^ 32) :
    decode module.encode = .ok { module with checksum := Digest.sha256 module.payload } := by
  rw [decode_encode_of_counted (counted_of_length short) decoded, cutTargets_eq_self small]

end PropertyWeaver
