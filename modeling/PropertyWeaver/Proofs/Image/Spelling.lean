import PropertyWeaver.Proofs.Image.Decoded
import PropertyWeaver.Proofs.Image.Tokens

/-!
# What bytes spell

Bytes spell a value by a decoder if they are what is written for the tokens and the nodes that the
decoder asks for, and the value is what it makes of them. By the decoder of a kind, exactly the bytes
that are written for a value spell it, provided that nothing of it is cut. This is all that ties the
writers to the decoders.
-/

set_option autoImplicit false

namespace PropertyWeaver

variable {α : Type}

/-! ## Values that are written without loss -/

/-- An accessor is not cut to 32 bits, nor mistaken for a missing one. -/
structure PropertyDef.Spellable (property : PropertyDef) : Prop where
  encodable : property.Encodable
  accessors : ∀ accessor ∈ property.accessors, accessor < noAccessor.toNat

/-- The accessors need not exist. -/
structure TypeDef.Spellable (type : TypeDef) : Prop where
  qualifier : EncodableText type.qualifier
  name : EncodableText type.name
  base : ∀ base ∈ type.base, base.Encodable
  genericParameters : EncodableList EncodableText type.genericParameters
  fields : EncodableList FieldDef.Encodable type.fields
  methods : EncodableList MethodDef.Encodable type.methods
  properties : EncodableList PropertyDef.Spellable type.properties
  attributes : EncodableList Attribute.Encodable type.attributes

theorem TypeDef.encodable_iff {type : TypeDef} :
    type.Encodable ↔ type.Spellable ∧ type.HasAccessors := by
  constructor
  · intro encodable
    have counted : type.methods.length < 2 ^ 32 := encodable.methods.count
    refine ⟨{ encodable with
      properties := ⟨encodable.properties.count, fun property declared =>
        ⟨encodable.properties.each property declared, fun accessor named => ?_⟩⟩ },
      encodable.accessors⟩
    have exist := encodable.accessors property declared accessor named
    have largest : PropertyDef.noAccessor.toNat = 4294967295 := rfl
    omega
  · rintro ⟨spellable, accessors⟩
    exact { spellable with
      properties := ⟨spellable.properties.count, fun property declared =>
        (spellable.properties.each property declared).encodable⟩
      accessors := accessors }

namespace NodeKind

def encode : (kind : NodeKind) → kind.Value → Bytes
  | .string => Bytes.string
  | .typeRef => TypeRef.encode
  | .typeSig => TypeSig.encode
  | .fieldRef => FieldRef.encode
  | .methodRef => MethodRef.encode
  | .instruction => Instruction.encode
  | .body => MethodBody.encode
  | .constant => Constant.encode
  | .attr => Attribute.encode
  | .field => FieldDef.encode
  | .parameter => ParameterDef.encode
  | .method => MethodDef.encode
  | .property => PropertyDef.encode
  | .type => TypeDef.encode
  | .tables => fun (name, references, types) =>
      Bytes.string name ++ Bytes.sequence Bytes.string references ++
        Bytes.sequence TypeDef.encode types

/-- The value is written without loss. -/
def Spellable : (kind : NodeKind) → kind.Value → Prop
  | .string => EncodableText
  | .typeRef => TypeRef.Encodable
  | .typeSig => TypeSig.Encodable
  | .fieldRef => FieldRef.Encodable
  | .methodRef => MethodRef.Encodable
  | .instruction => Instruction.Encodable
  | .body => MethodBody.Encodable
  | .constant => Constant.Encodable
  | .attr => Attribute.Encodable
  | .field => FieldDef.Encodable
  | .parameter => ParameterDef.Encodable
  | .method => MethodDef.Encodable
  | .property => PropertyDef.Spellable
  | .type => TypeDef.Spellable
  | .tables => fun (name, references, types) =>
      EncodableText name ∧ EncodableList EncodableText references ∧
        EncodableList TypeDef.Spellable types

end NodeKind

/-! ## Spellings -/

/-- The bytes are written for the tokens and the nodes of which the decoder makes the value. -/
def Decoder.Spells : Decoder α → Bytes → α → Prop
  | .done value, image, result => image = [] ∧ result = value
  | .token form next, image, result =>
      ∃ value rest, form.Spellable value ∧ image = form.encode value ++ rest ∧
        (next value).Spells rest result
  | .node kind next, image, result =>
      ∃ value rest, kind.Spellable value ∧ image = kind.encode value ++ rest ∧
        (next value).Spells rest result
  | .sequence kind next, image, result =>
      ∃ values rest, EncodableList kind.Spellable values ∧
        image = Bytes.sequence kind.encode values ++ rest ∧ (next values).Spells rest result

namespace Decoder.Spells

variable {form : Token} {kind : NodeKind} {image rest : Bytes} {result : α}

theorem last (value : α) : (pure value : Decoder α).Spells [] value := ⟨rfl, rfl⟩

/-- Nothing stands behind the last part. -/
theorem finish {decoder : Decoder α} (spells : decoder.Spells (image ++ []) result) :
    decoder.Spells image result := by
  rwa [List.append_nil] at spells

theorem take {value : form.Value} {next : form.Value → Decoder α}
    (fits : form.Spellable value) (tail : (next value).Spells rest result) :
    (Decoder.take form >>= next).Spells (form.encode value ++ rest) result :=
  ⟨value, rest, fits, rfl, tail⟩

theorem part {value : kind.Value} {next : kind.Value → Decoder α}
    (fits : kind.Spellable value) (tail : (next value).Spells rest result) :
    (Decoder.part kind >>= next).Spells (kind.encode value ++ rest) result :=
  ⟨value, rest, fits, rfl, tail⟩

theorem parts {values : List kind.Value} {next : List kind.Value → Decoder α}
    (fits : EncodableList kind.Spellable values) (tail : (next values).Spells rest result) :
    (Decoder.parts kind >>= next).Spells (Bytes.sequence kind.encode values ++ rest) result :=
  ⟨values, rest, fits, rfl, tail⟩

theorem part?_iff {next : Option kind.Value → Decoder α} :
    (Decoder.part? kind >>= next).Spells image result ↔
      ∃ option rest, (∀ value ∈ option, kind.Spellable value) ∧
        image = Bytes.optional kind.encode option ++ rest ∧ (next option).Spells rest result := by
  constructor
  · rintro ⟨present, rest, -, rfl, tail⟩
    cases present with
    | false => exact ⟨none, rest, by simp, rfl, tail⟩
    | true =>
        obtain ⟨value, rest, fits, rfl, tail⟩ := tail
        exact ⟨some value, rest, by simpa using fits, by simp [Bytes.optional, Token.encode], tail⟩
  · rintro ⟨option, rest, fits, rfl, tail⟩
    cases option with
    | none => exact ⟨false, rest, trivial, rfl, tail⟩
    | some value =>
        refine ⟨true, kind.encode value ++ rest, trivial, ?_, value, rest, fits value rfl, rfl, tail⟩
        simp [Bytes.optional, Token.encode]

theorem part? {option : Option kind.Value} {next : Option kind.Value → Decoder α}
    (fits : ∀ value ∈ option, kind.Spellable value) (tail : (next option).Spells rest result) :
    (Decoder.part? kind >>= next).Spells (Bytes.optional kind.encode option ++ rest) result :=
  part?_iff.mpr ⟨option, rest, fits, rfl, tail⟩

theorem bind_iff {β : Type} {decoder : Decoder α} {next : α → Decoder β} {result : β} :
    (decoder >>= next).Spells image result ↔
      ∃ value front back, decoder.Spells front value ∧ (next value).Spells back result ∧
        image = front ++ back := by
  constructor
  · intro spells
    induction decoder generalizing image with
    | done value => exact ⟨value, [], image, ⟨rfl, rfl⟩, spells, rfl⟩
    | token form further hypothesis =>
        obtain ⟨here, rest, fits, rfl, spells⟩ := spells
        obtain ⟨value, front, back, first, second, rfl⟩ := hypothesis here spells
        exact ⟨value, _, back, ⟨here, front, fits, rfl, first⟩, second, (List.append_assoc ..).symm⟩
    | node kind further hypothesis =>
        obtain ⟨here, rest, fits, rfl, spells⟩ := spells
        obtain ⟨value, front, back, first, second, rfl⟩ := hypothesis here spells
        exact ⟨value, _, back, ⟨here, front, fits, rfl, first⟩, second, (List.append_assoc ..).symm⟩
    | sequence kind further hypothesis =>
        obtain ⟨here, rest, fits, rfl, spells⟩ := spells
        obtain ⟨value, front, back, first, second, rfl⟩ := hypothesis here spells
        exact ⟨value, _, back, ⟨here, front, fits, rfl, first⟩, second, (List.append_assoc ..).symm⟩
  · rintro ⟨value, front, back, first, second, rfl⟩
    induction decoder generalizing front with
    | done =>
        obtain ⟨rfl, rfl⟩ := first
        exact second
    | token form further hypothesis =>
        obtain ⟨here, rest, fits, rfl, first⟩ := first
        exact ⟨here, rest ++ back, fits, List.append_assoc .., hypothesis here rest first⟩
    | node kind further hypothesis =>
        obtain ⟨here, rest, fits, rfl, first⟩ := first
        exact ⟨here, rest ++ back, fits, List.append_assoc .., hypothesis here rest first⟩
    | sequence kind further hypothesis =>
        obtain ⟨here, rest, fits, rfl, first⟩ := first
        exact ⟨here, rest ++ back, fits, List.append_assoc .., hypothesis here rest first⟩

end Decoder.Spells

open Decoder (Spells)

/-! ## Signatures -/

theorem TypeRef.spells_iff {image : Bytes} {type : TypeRef} :
    TypeRef.decoder.Spells image type ↔ image = type.encode ∧ type.Encodable := by
  constructor
  · intro spells
    obtain ⟨scope, _, scopeFits, rfl, qualifier, _, qualifierFits, rfl, name, _, nameFits, rfl, rfl,
      rfl⟩ := Spells.part?_iff.mp spells
    exact ⟨by simp [encode, NodeKind.encode], scopeFits, qualifierFits, nameFits⟩
  · rintro ⟨rfl, fits⟩
    rw [encode, List.append_assoc]
    exact .part? fits.scope (.part fits.qualifier (.finish (.part fits.name (.last _))))

theorem TypeSig.spells_iff {image : Bytes} {sig : TypeSig} :
    TypeSig.decoder.Spells image sig ↔ image = sig.encode ∧ sig.Encodable := by
  constructor
  · rintro ⟨form, _, -, rfl, spells⟩
    cases form with
    | builtin type =>
        obtain ⟨rfl, rfl⟩ := spells
        exact ⟨rfl, .builtin⟩
    | classType =>
        obtain ⟨type, _, fits, rfl, rfl, rfl⟩ := spells
        exact ⟨by simp [encode, NodeKind.encode, Token.encode], .classType fits⟩
    | valueType =>
        obtain ⟨type, _, fits, rfl, rfl, rfl⟩ := spells
        exact ⟨by simp [encode, NodeKind.encode, Token.encode], .valueType fits⟩
    | instantiated =>
        obtain ⟨definition, _, fits, rfl, isValue, _, -, rfl, arguments, _, each, rfl, rfl, rfl⟩ :=
          spells
        refine ⟨?_, .instantiated fits each.count each.each⟩
        simp [encode, NodeKind.encode, Token.encode, Bytes.sequence]
    | typeParameter =>
        obtain ⟨name, _, fits, rfl, rfl, rfl⟩ := spells
        exact ⟨by simp [encode, NodeKind.encode, Token.encode], .typeParameter fits⟩
    | methodParameter =>
        obtain ⟨name, _, fits, rfl, rfl, rfl⟩ := spells
        exact ⟨by simp [encode, NodeKind.encode, Token.encode], .methodParameter fits⟩
    | array =>
        obtain ⟨element, _, fits, rfl, rfl, rfl⟩ := spells
        exact ⟨by simp [encode, NodeKind.encode, Token.encode], .array fits⟩
  · rintro ⟨rfl, fits⟩
    cases fits with
    | builtin => exact .take trivial (.last _)
    | classType fits | valueType fits | typeParameter fits | methodParameter fits | array fits =>
        exact .take trivial (.finish (.part fits (.last _)))
    | @instantiated definition isValue arguments fits count each =>
        have spelled : (TypeSig.instantiated definition isValue arguments).encode =
            TypeForm.instantiated.tag :: (definition.encode ++ (Bytes.bool isValue ++
              Bytes.sequence TypeSig.encode arguments)) := by
          simp [encode, Bytes.sequence]
        rw [spelled]
        exact .take trivial (.part fits (.take trivial (.finish (.parts ⟨count, each⟩ (.last _)))))

theorem FieldRef.spells_iff {image : Bytes} {field : FieldRef} :
    FieldRef.decoder.Spells image field ↔ image = field.encode ∧ field.Encodable := by
  constructor
  · rintro ⟨declaringType, _, declaringFits, rfl, name, _, nameFits, rfl, fieldType, _, typeFits, rfl,
      rfl, rfl⟩
    exact ⟨by simp [encode, NodeKind.encode], declaringFits, nameFits, typeFits⟩
  · rintro ⟨rfl, fits⟩
    rw [encode, List.append_assoc]
    exact .part fits.declaringType (.part fits.name (.finish (.part fits.fieldType (.last _))))

theorem MethodRef.spells_iff {image : Bytes} {method : MethodRef} :
    MethodRef.decoder.Spells image method ↔ image = method.encode ∧ method.Encodable := by
  constructor
  · rintro ⟨declaringType, _, declaringFits, rfl, name, _, nameFits, rfl, hasThis, _, -, rfl,
      returnType, _, returnFits, rfl, parameters, _, parametersFit, rfl, arguments, _, argumentsFit,
      rfl, rfl, rfl⟩
    exact ⟨by simp [encode, NodeKind.encode, Token.encode], declaringFits, nameFits, returnFits,
      parametersFit, argumentsFit⟩
  · rintro ⟨rfl, fits⟩
    simp only [encode, List.append_assoc]
    exact .part fits.declaringType (.part fits.name (.take trivial (.part fits.returnType
      (.parts fits.parameters (.finish (.parts fits.genericArguments (.last _)))))))

/-! ## Code -/

/-- An operand is read by the kind of its opcode, and written so if it fits. -/
theorem Operand.spells_iff {kind : OperandKind} {image : Bytes} {operand : Operand} :
    (Operand.decoder kind).Spells image operand ↔
      image = operand.encode kind ∧ operand.fits kind = true ∧ operand.Encodable := by
  constructor
  · intro spells
    cases kind with
    | none =>
        obtain ⟨rfl, rfl⟩ := spells
        exact ⟨rfl, rfl, trivial⟩
    | string | field | method | type =>
        obtain ⟨value, _, fits, rfl, rfl, rfl⟩ := spells
        exact ⟨List.append_nil _, rfl, fits⟩
    | branch =>
        obtain ⟨target, _, -, rfl, rfl, rfl⟩ := spells
        refine ⟨by simp [encode, Token.encode], rfl, ?_⟩
        rw [Operand.Encodable, UInt32.toNat_toUInt64]
        exact target.toNat_lt
    | _ =>
        obtain ⟨value, _, -, rfl, rfl, rfl⟩ := spells
        exact ⟨List.append_nil _, rfl, trivial⟩
  · rintro ⟨rfl, fits, encodable⟩
    cases operand with
    | none =>
        cases kind <;> cases fits
        exact .last _
    | int32 =>
        cases kind <;> cases fits
        · exact .finish (.take trivial (.last _))
        · exact .finish (.take trivial (.last _))
    | int64 | float32 | float64 | slot =>
        cases kind <;> cases fits
        exact .finish (.take trivial (.last _))
    | string | field | method | type =>
        cases kind <;> cases fits
        exact .finish (.part encodable (.last _))
    | branch target =>
        cases kind <;> cases fits
        have word : target.toUInt32.toUInt64 = target := by
          apply UInt64.toNat_inj.mp
          rw [UInt32.toNat_toUInt64, UInt64.toNat_toUInt32]
          exact Nat.mod_eq_of_lt encodable
        have spells : (Operand.decoder .branch).Spells (Bytes.uint32 target.toUInt32)
            (.branch target.toUInt32.toUInt64) := .finish (.take trivial (.last _))
        rwa [word] at spells

theorem Instruction.spells_iff {image : Bytes} {instruction : Instruction} :
    Instruction.decoder.Spells image instruction ↔
      image = instruction.encode ∧ instruction.Encodable := by
  constructor
  · rintro ⟨opcode, _, -, rfl, spells⟩
    change (Operand.decoder opcode.operandKind >>= _).Spells _ _ at spells
    obtain ⟨operand, _, _, first, ⟨rfl, rfl⟩, rfl⟩ := Spells.bind_iff.mp spells
    obtain ⟨rfl, fits, encodable⟩ := Operand.spells_iff.mp first
    exact ⟨by simp [encode, Token.encode], fits, encodable⟩
  · rintro ⟨rfl, fits⟩
    have operand := Operand.spells_iff.mpr ⟨rfl, fits.wellFormed, fits.operand⟩
    exact .take trivial (.finish (Spells.bind_iff.mpr ⟨_, _, [], operand, .last _, rfl⟩))

theorem MethodBody.spells_iff {image : Bytes} {body : MethodBody} :
    MethodBody.decoder.Spells image body ↔ image = body.encode ∧ body.Encodable := by
  constructor
  · rintro ⟨maxStack, _, -, rfl, initLocals, _, -, rfl, locals, _, localsFit, rfl, instructions, _,
      codeFits, rfl, rfl, rfl⟩
    exact ⟨by simp [encode, NodeKind.encode, Token.encode], localsFit, codeFits⟩
  · rintro ⟨rfl, fits⟩
    simp only [encode, List.append_assoc]
    exact .take trivial (.take trivial (.parts fits.locals (.finish (.parts fits.instructions
      (.last _)))))

/-! ## Constants -/

theorem Constant.spells_iff {image : Bytes} {constant : Constant} :
    Constant.decoder.Spells image constant ↔ image = constant.encode ∧ constant.Encodable := by
  constructor
  · rintro ⟨tag, _, -, rfl, spells⟩
    cases tag with
    | null =>
        obtain ⟨rfl, rfl⟩ := spells
        exact ⟨rfl, .scalar (by decide)⟩
    | string =>
        obtain ⟨value, _, fits, rfl, rfl, rfl⟩ := spells
        exact ⟨by simp [encode, payload, kind, NodeKind.encode, Token.encode], .string fits⟩
    | type =>
        obtain ⟨sig, _, fits, rfl, rfl, rfl⟩ := spells
        exact ⟨by simp [encode, payload, kind, NodeKind.encode, Token.encode], .type fits⟩
    | array =>
        obtain ⟨items, _, fits, rfl, rfl, rfl⟩ := spells
        refine ⟨?_, .array fits.count fits.each⟩
        simp [encode, payload, kind, NodeKind.encode, Token.encode, Bytes.sequence]
    | _ =>
        obtain ⟨value, _, -, rfl, rfl, rfl⟩ := spells
        exact ⟨by simp [encode, payload, kind, Token.encode], .scalar (by simp [kind])⟩
  · rintro ⟨rfl, fits⟩
    cases fits with
    | @scalar constant scalar =>
        cases constant with
        | null => exact .take trivial (.last _)
        | string | type | array => simp [kind] at scalar
        | int8 value =>
            have spells : Constant.decoder.Spells (Constant.int8 value).encode
                (.int8 value.toUInt8.toInt8) := .take trivial (.finish (.take trivial (.last _)))
            rwa [Int8.toInt8_toUInt8] at spells
        | int16 value =>
            have spells : Constant.decoder.Spells (Constant.int16 value).encode
                (.int16 value.toUInt16.toInt16) := .take trivial (.finish (.take trivial (.last _)))
            rwa [Int16.toInt16_toUInt16] at spells
        | _ => exact .take trivial (.finish (.take trivial (.last _)))
    | string fits => exact .take trivial (.finish (.part fits (.last _)))
    | type fits => exact .take trivial (.finish (.part fits (.last _)))
    | @array items count each =>
        have spelled : (Constant.array items).encode =
            ConstantKind.array.tag :: Bytes.sequence Constant.encode items := by
          simp [encode, payload, kind, Bytes.sequence]
        rw [spelled]
        exact .take trivial (.finish (.parts ⟨count, each⟩ (.last _)))

theorem Attribute.spells_iff {image : Bytes} {attr : Attribute} :
    Attribute.decoder.Spells image attr ↔ image = attr.encode ∧ attr.Encodable := by
  constructor
  · rintro ⟨type, _, typeFits, rfl, arguments, _, argumentsFit, rfl, rfl, rfl⟩
    exact ⟨by simp [encode, NodeKind.encode], typeFits, argumentsFit⟩
  · rintro ⟨rfl, fits⟩
    exact .part fits.type (.finish (.parts fits.arguments (.last _)))

/-! ## Declarations -/

theorem FieldDef.spells_iff {image : Bytes} {field : FieldDef} :
    FieldDef.decoder.Spells image field ↔ image = field.encode ∧ field.Encodable := by
  constructor
  · rintro ⟨name, _, nameFits, rfl, flags, _, -, rfl, fieldType, _, typeFits, rfl, attributes, _,
      attributesFit, rfl, rfl, rfl⟩
    exact ⟨by simp [encode, NodeKind.encode, Token.encode], nameFits, typeFits, attributesFit⟩
  · rintro ⟨rfl, fits⟩
    simp only [encode, List.append_assoc]
    exact .part fits.name (.take trivial (.part fits.fieldType (.finish (.parts fits.attributes
      (.last _)))))

theorem ParameterDef.spells_iff {image : Bytes} {parameter : ParameterDef} :
    ParameterDef.decoder.Spells image parameter ↔
      image = parameter.encode ∧ parameter.Encodable := by
  constructor
  · rintro ⟨name, _, nameFits, rfl, parameterType, _, typeFits, rfl, rfl, rfl⟩
    exact ⟨by simp [encode, NodeKind.encode], nameFits, typeFits⟩
  · rintro ⟨rfl, fits⟩
    exact .part fits.name (.finish (.part fits.parameterType (.last _)))

theorem MethodDef.spells_iff {image : Bytes} {method : MethodDef} :
    MethodDef.decoder.Spells image method ↔ image = method.encode ∧ method.Encodable := by
  constructor
  · rintro ⟨name, _, nameFits, rfl, flags, _, -, rfl, returnType, _, returnFits, rfl, parameters, _,
      parametersFit, rfl, genericParameters, _, genericFit, rfl, attributes, _, attributesFit, rfl,
      spells⟩
    obtain ⟨body, _, bodyFits, rfl, rfl, rfl⟩ := Spells.part?_iff.mp spells
    exact ⟨by simp [encode, NodeKind.encode, Token.encode], nameFits, returnFits, parametersFit,
      genericFit, attributesFit, bodyFits⟩
  · rintro ⟨rfl, fits⟩
    simp only [encode, List.append_assoc]
    exact .part fits.name (.take trivial (.part fits.returnType (.parts fits.parameters
      (.parts fits.genericParameters (.parts fits.attributes (.finish (.part? fits.body
        (.last _))))))))

namespace PropertyDef

private theorem encodeAccessor_accessorOfWord? (word : UInt32) :
    encodeAccessor (accessorOfWord? word) = Bytes.uint32 word := by
  unfold accessorOfWord?
  split
  · next missing => rw [missing, encodeAccessor]
  · rw [encodeAccessor, Bytes.count, Bytes.uint32]

private theorem lt_noAccessor_of_mem {word : UInt32} {index : Nat}
    (named : index ∈ accessorOfWord? word) :
    index < noAccessor.toNat := by
  have largest : noAccessor.toNat = 4294967295 := rfl
  have small := word.toNat_lt
  unfold accessorOfWord? at named
  split at named
  · cases named
  · next present =>
      cases named
      have differs : word.toNat ≠ noAccessor.toNat := fun same => present (UInt32.toNat_inj.mp same)
      omega

private theorem exists_word {accessor : Option Nat}
    (fits : ∀ index ∈ accessor, index < noAccessor.toNat) :
    ∃ word, accessorOfWord? word = accessor := by
  cases accessor with
  | none => exact ⟨noAccessor, if_pos rfl⟩
  | some index =>
      have below := fits index rfl
      have largest : noAccessor.toNat = 4294967295 := rfl
      have small : index < 2 ^ 32 := by omega
      have word : (UInt32.ofNat index).toNat = index := UInt32.toNat_ofNat_of_lt' small
      refine ⟨UInt32.ofNat index, ?_⟩
      rw [accessorOfWord?, if_neg, word]
      intro same
      rw [same] at word
      omega

theorem spells_iff {image : Bytes} {property : PropertyDef} :
    PropertyDef.decoder.Spells image property ↔ image = property.encode ∧ property.Spellable := by
  constructor
  · rintro ⟨name, _, nameFits, rfl, propertyType, _, typeFits, rfl, getter, _, -, rfl, setter, _, -, rfl,
      attributes, _, attributesFit, rfl, rfl, rfl⟩
    refine ⟨?_, ⟨nameFits, typeFits, attributesFit⟩, fun accessor named => ?_⟩
    · simp [encode, NodeKind.encode, Token.encode, encodeAccessor_accessorOfWord?]
    · rcases List.mem_append.mp named with named | named
      · exact lt_noAccessor_of_mem (Option.mem_toList.mp named)
      · exact lt_noAccessor_of_mem (Option.mem_toList.mp named)
  · obtain ⟨name, propertyType, getter, setter, attributes⟩ := property
    rintro ⟨rfl, fits, small⟩
    obtain ⟨getter, rfl⟩ := exists_word fun index named =>
      small index (List.mem_append_left _ (Option.mem_toList.mpr named))
    obtain ⟨setter, rfl⟩ := exists_word fun index named =>
      small index (List.mem_append_right _ (Option.mem_toList.mpr named))
    simp only [encode, List.append_assoc, encodeAccessor_accessorOfWord?]
    exact .part fits.name (.part fits.propertyType (.take trivial (.take trivial
      (.finish (.parts fits.attributes (.last _))))))

end PropertyDef

theorem TypeDef.spells_iff {image : Bytes} {type : TypeDef} :
    TypeDef.decoder.Spells image type ↔ image = type.encode ∧ type.Spellable := by
  constructor
  · rintro ⟨qualifier, _, qualifierFits, rfl, name, _, nameFits, rfl, flags, _, -, rfl, spells⟩
    obtain ⟨base, _, baseFits, rfl, genericParameters, _, genericFit, rfl, fields, _, fieldsFit, rfl,
      methods, _, methodsFit, rfl, properties, _, propertiesFit, rfl, attributes, _, attributesFit,
      rfl, rfl, rfl⟩ := Spells.part?_iff.mp spells
    exact ⟨by simp [encode, NodeKind.encode, Token.encode], qualifierFits, nameFits, baseFits,
      genericFit, fieldsFit, methodsFit, propertiesFit, attributesFit⟩
  · rintro ⟨rfl, fits⟩
    simp only [encode, List.append_assoc]
    exact .part fits.qualifier (.part fits.name (.take trivial (.part? fits.base
      (.parts fits.genericParameters (.parts fits.fields (.parts fits.methods
        (.parts fits.properties (.finish (.parts fits.attributes (.last _))))))))))

private theorem Module.tables_spells_iff {image : Bytes} {tables : NodeKind.Value .tables} :
    Module.tablesDecoder.Spells image tables ↔
      image = NodeKind.encode .tables tables ∧ NodeKind.Spellable .tables tables := by
  constructor
  · rintro ⟨name, _, nameFits, rfl, references, _, referencesFit, rfl, types, _, typesFit, rfl, rfl,
      rfl⟩
    exact ⟨by simp [NodeKind.encode], nameFits, referencesFit, typesFit⟩
  · obtain ⟨name, references, types⟩ := tables
    rintro ⟨rfl, nameFits, referencesFit, typesFit⟩
    simp only [NodeKind.encode, List.append_assoc]
    exact .part nameFits (.parts referencesFit (.finish (.parts typesFit (.last _))))

/-- Exactly the bytes that are written for a value spell it, if it is written without loss. -/
theorem NodeKind.spells_iff {kind : NodeKind} {image : Bytes} {value : kind.Value} :
    kind.decoder.Spells image value ↔ image = kind.encode value ∧ kind.Spellable value := by
  cases kind with
  | string =>
      constructor
      · rintro ⟨text, _, fits, rfl, rfl, rfl⟩
        exact ⟨List.append_nil _, fits⟩
      · rintro ⟨rfl, fits⟩
        exact ⟨value, [], fits, (List.append_nil _).symm, rfl, rfl⟩
  | typeRef => exact TypeRef.spells_iff
  | typeSig => exact TypeSig.spells_iff
  | fieldRef => exact FieldRef.spells_iff
  | methodRef => exact MethodRef.spells_iff
  | instruction => exact Instruction.spells_iff
  | body => exact MethodBody.spells_iff
  | constant => exact Constant.spells_iff
  | attr => exact Attribute.spells_iff
  | field => exact FieldDef.spells_iff
  | parameter => exact ParameterDef.spells_iff
  | method => exact MethodDef.spells_iff
  | property => exact PropertyDef.spells_iff
  | type => exact TypeDef.spells_iff
  | tables => exact Module.tables_spells_iff

end PropertyWeaver
