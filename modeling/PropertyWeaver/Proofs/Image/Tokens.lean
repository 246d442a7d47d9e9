import PropertyWeaver.Image.Node
import PropertyWeaver.Proofs.Image.Taken

/-!
# Tokens

How each token is written, and that it is read back. Whatever is read of a token takes a byte at
least, and the bytes taken are those that are written for it, but for a Boolean and a grouped
integer.
-/

set_option autoImplicit false

namespace PropertyWeaver

private theorem TypeForm.tag_of_ofTag? {tag : UInt8} {form : TypeForm}
    (found : ofTag? tag = some form) : form.tag = tag := by
  simpa using List.find?_some found

private theorem ConstantKind.tag_of_ofTag? {tag : UInt8} {kind : ConstantKind}
    (found : ofTag? tag = some kind) : kind.tag = tag := by
  simpa using List.find?_some found

namespace Token

def encode : (token : Token) → token.Value → Bytes
  | .uint8 => Bytes.uint8
  | .uint16 => Bytes.uint16
  | .uint32 => Bytes.uint32
  | .uint64 => Bytes.uint64
  | .int32 => Bytes.int32
  | .int64 => Bytes.int64
  | .float32 => fun value => Bytes.uint32 value.bits
  | .float64 => fun value => Bytes.uint64 value.bits
  | .bool => Bytes.bool
  | .varint => Bytes.varint
  | .string => Bytes.string
  | .opcode => fun opcode => [opcode.byte]
  | .typeForm => fun form => [form.tag]
  | .constantKind => fun kind => [kind.tag]

/-- The value is written without loss. Only a text can be too long for that. -/
def Spellable : (token : Token) → token.Value → Prop
  | .string => EncodableText
  | _ => fun _ => True

theorem reads {token : Token} {value : token.Value} (spellable : token.Spellable value) :
    Reads token.read (token.encode value) value := by
  cases token with
  | uint8 => exact Reader.reads_uint8 value
  | uint16 => exact Reader.reads_uint16 value
  | uint32 => exact Reader.reads_uint32 value
  | uint64 => exact Reader.reads_uint64 value
  | int32 => exact Reader.reads_int32 value
  | int64 => exact Reader.reads_int64 value
  | float32 => exact Reader.reads_float32 value
  | float64 => exact Reader.reads_float64 value
  | bool => exact Reader.reads_bool value
  | varint => exact Reader.reads_varint value
  | string => exact Reader.reads_string spellable
  | opcode => exact Reader.reads_coded (Opcode.ofByte?_byte value)
  | typeForm => exact Reader.reads_coded (TypeForm.ofTag?_tag value)
  | constantKind => exact Reader.reads_coded (ConstantKind.ofTag?_tag value)

theorem takes {token : Token} (flag : token ≠ .bool) (groups : token ≠ .varint) :
    token.read.Takes fun value taken => taken = token.encode value ∧ token.Spellable value := by
  cases token with
  | uint8 => exact Reader.Takes.uint8.weaken fun _ _ spelled => ⟨spelled, trivial⟩
  | uint16 => exact Reader.Takes.uint16.weaken fun _ _ spelled => ⟨spelled, trivial⟩
  | uint32 => exact Reader.Takes.uint32.weaken fun _ _ spelled => ⟨spelled, trivial⟩
  | uint64 => exact Reader.Takes.uint64.weaken fun _ _ spelled => ⟨spelled, trivial⟩
  | int32 => exact Reader.Takes.int32.weaken fun _ _ spelled => ⟨spelled, trivial⟩
  | int64 => exact Reader.Takes.int64.weaken fun _ _ spelled => ⟨spelled, trivial⟩
  | float32 => exact Reader.Takes.float32.weaken fun _ _ spelled => ⟨spelled, trivial⟩
  | float64 => exact Reader.Takes.float64.weaken fun _ _ spelled => ⟨spelled, trivial⟩
  | bool => exact absurd rfl flag
  | varint => exact absurd rfl groups
  | string => exact Reader.Takes.string
  | opcode =>
      refine Reader.Takes.coded.weaken ?_
      rintro opcode _ ⟨byte, rfl, stands⟩
      exact ⟨congrArg (fun byte => [byte]) (Opcode.byte_of_ofByte? stands).symm, trivial⟩
  | typeForm =>
      refine Reader.Takes.coded.weaken ?_
      rintro form _ ⟨tag, rfl, stands⟩
      exact ⟨congrArg (fun tag => [tag]) (TypeForm.tag_of_ofTag? stands).symm, trivial⟩
  | constantKind =>
      refine Reader.Takes.coded.weaken ?_
      rintro kind _ ⟨tag, rfl, stands⟩
      exact ⟨congrArg (fun tag => [tag]) (ConstantKind.tag_of_ofTag? stands).symm, trivial⟩

/-- The number of bytes that the token has at least. -/
def size : Token → Nat
  | .uint8 | .bool | .varint | .opcode | .typeForm | .constantKind => 1
  | .uint16 => 2
  | .uint32 | .int32 | .float32 | .string => 4
  | .uint64 | .int64 | .float64 => 8

theorem size_pos (token : Token) : 0 < token.size := by
  cases token <;> decide

private theorem size_le_length_encode (token : Token) (value : token.Value) :
    token.size ≤ (token.encode value).length := by
  cases token with
  | varint => exact (Reader.leb128_varint value).length_pos
  | string =>
      change 4 ≤ (Bytes.count _ ++ Bytes.utf8 value).length
      rw [List.length_append]
      exact Nat.le_add_right 4 _
  | _ => exact Nat.le_refl _

theorem takes_size (token : Token) : token.read.Takes fun _ taken => token.size ≤ taken.length := by
  by_cases flag : token = .bool
  · subst flag
    refine Reader.Takes.uint8.map ?_
    rintro byte _ rfl
    exact Nat.le_refl 1
  by_cases groups : token = .varint
  · subst groups
    refine Reader.Takes.varint.weaken ?_
    rintro value _ ⟨code, form, -⟩
    exact form.length_pos
  refine (takes flag groups).weaken ?_
  rintro value _ ⟨rfl, -⟩
  exact token.size_le_length_encode value

end Token

end PropertyWeaver
