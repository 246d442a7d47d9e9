import Mathlib.Logic.Function.Iterate
import PropertyWeaver.Proofs.Image.RoundTrip

/-!
# Corrupted bytes

A step of the cyclic redundancy check loses neither the remainder nor the byte: the bit divided out
is the highest bit of the result. Two strings of bytes that differ in one place therefore have
different checksums, whatever their length. So a single corrupted byte of an image is always
noticed, except in the flags, which nothing covers.
-/

set_option autoImplicit false

namespace PropertyWeaver

/-! ## Cyclic redundancy check -/

namespace Checksum

/-- Every bit moves down by one, and the polynomial is added to a remainder whose lowest bit is set.
-/
theorem getLsbD_shift (remainder : UInt32) (index : Nat) :
    (shift remainder).toBitVec.getLsbD index =
      (remainder.toBitVec.getLsbD (index + 1) ^^
        (remainder.toBitVec.getLsbD 0 && polynomial.toBitVec.getLsbD index)) := by
  have low : remainder &&& 1 = 1 ↔ remainder.toBitVec.getLsbD 0 = true := by
    rw [← UInt32.toBitVec_inj, UInt32.toBitVec_and]
    constructor
    · intro same
      simpa using congrArg (BitVec.getLsbD · 0) same
    · intro set
      apply BitVec.eq_of_getLsbD_eq
      intro place _
      cases place with
      | zero => simpa using set
      | succ place => simp [BitVec.getLsbD_one]
  unfold shift
  split
  · next set => simp [low.mp set, Nat.add_comm]
  · next clear =>
      have clear : remainder.toBitVec[0] = false := by simpa using mt low.mpr clear
      simp [clear, Nat.add_comm]

/-- The highest bit of the polynomial is set and nothing else reaches the highest bit of a shifted
remainder, so that bit tells whether the polynomial was added. -/
theorem injective_shift : Function.Injective shift := by
  intro first second same
  have bits (index : Nat) :
      (first.toBitVec.getLsbD (index + 1) ^^
          (first.toBitVec.getLsbD 0 && polynomial.toBitVec.getLsbD index)) =
        (second.toBitVec.getLsbD (index + 1) ^^
          (second.toBitVec.getLsbD 0 && polynomial.toBitVec.getLsbD index)) := by
    rw [← getLsbD_shift, ← getLsbD_shift, same]
  have top : polynomial.toBitVec.getLsbD 31 = true := by decide
  have low : first.toBitVec.getLsbD 0 = second.toBitVec.getLsbD 0 := by
    have highest := bits 31
    have beyond (bits : BitVec 32) : bits.getLsbD 32 = false :=
      BitVec.getLsbD_of_ge bits 32 (Nat.le_refl 32)
    rwa [beyond, beyond, top, Bool.false_xor, Bool.false_xor, Bool.and_true, Bool.and_true]
      at highest
  apply UInt32.toBitVec_inj.mp
  apply BitVec.eq_of_getLsbD_eq
  intro index _
  cases index with
  | zero => exact low
  | succ index =>
      have next := bits index
      rwa [low, Bool.xor_left_inj] at next

private theorem injective_repeat_shift (number : Nat) : Function.Injective
    (Nat.repeat shift number) := by
  induction number with
  | zero => exact Function.injective_id
  | succ number ih => exact injective_shift.comp ih

private theorem step_eq_iff_remainder {first second : UInt32} {byte : UInt8} :
    step first byte = step second byte ↔ first = second := by
  rw [step, step, (injective_repeat_shift 8).eq_iff, UInt32.xor_left_inj]

private theorem step_eq_iff_byte {remainder : UInt32} {first second : UInt8} :
    step remainder first = step remainder second ↔ first = second := by
  rw [step, step, (injective_repeat_shift 8).eq_iff, UInt32.xor_right_inj, UInt8.toUInt32_inj]

/-- Later bytes do not reconcile different remainders. -/
theorem foldl_step_eq_iff {first second : UInt32} (bytes : Bytes) :
    bytes.foldl step first = bytes.foldl step second ↔ first = second := by
  induction bytes generalizing first second with
  | nil => rfl
  | cons byte rest ih => rw [List.foldl_cons, List.foldl_cons, ih, step_eq_iff_remainder]

private theorem crc32_eq_iff_byte {front back : Bytes} {first second : UInt8} :
    crc32 (front ++ first :: back) = crc32 (front ++ second :: back) ↔ first = second := by
  rw [crc32, crc32, UInt32.xor_left_inj, List.foldl_append, List.foldl_append, List.foldl_cons,
    List.foldl_cons, foldl_step_eq_iff, step_eq_iff_byte]

/-- The checksum notices every change of a single byte. -/
theorem crc32_set_ne {bytes : Bytes} {index : Nat} {byte : UInt8}
    (changed : bytes.set index byte ≠ bytes) : crc32 (bytes.set index byte) ≠ crc32 bytes := by
  have inside : index < bytes.length :=
    Nat.lt_of_not_le fun outside => changed (List.set_eq_of_length_le outside)
  have parts : bytes.take index ++ bytes[index] :: bytes.drop (index + 1) = bytes := by
    rw [List.getElem_cons_drop, List.take_append_drop]
  rw [List.set_eq_take_append_cons_drop, if_pos inside] at changed ⊢
  intro same
  apply changed
  have replaced : byte = bytes[index] :=
    crc32_eq_iff_byte.mp (same.trans (congrArg crc32 parts.symm))
  rw [replaced, parts]

end Checksum

/-! ## Images -/

private theorem set_ne_self {α : Type} {items : List α} {index : Nat}
    (inside : index < items.length)
    {item : α} (other : item ≠ items[index]) : items.set index item ≠ items := by
  intro same
  apply other
  have kept : (items.set index item)[index]? = items[index]? := by rw [same]
  rw [List.getElem?_set_self inside, List.getElem?_eq_getElem inside] at kept
  exact Option.some.inj kept

/-- If an item is replaced, the part of the list that holds it changes and the parts around it stay.
-/
theorem exists_part_of_set {α : Type} {items front part back : List α} {index : Nat} {item : α}
    (parts : items = front ++ (part ++ back)) (changed : items.set index item ≠ items)
    (behind : front.length ≤ index) (before : index < front.length + part.length) :
    ∃ other, other ≠ part ∧ other.length = part.length ∧
      items.set index item = front ++ (other ++ back) := by
  have replaced : items.set index item =
      front ++ (part.set (index - front.length) item ++ back) := by
    rw [parts, List.set_append, if_neg (by omega), List.set_append, if_pos (by omega)]
  refine ⟨_, fun same => changed ?_, List.length_set, replaced⟩
  rw [replaced, same, parts]

/-- Four other bytes are another word. -/
theorem Bytes.exists_uint32_of_ne {value : UInt32} {image : Bytes}
    (size : image.length = (Bytes.uint32 value).length) (differs : image ≠ Bytes.uint32 value) :
    ∃ other, other ≠ value ∧ image = Bytes.uint32 other := by
  have spelled := Bytes.uint32_ofNat_toNat (size.trans (length_uint32 value))
  refine ⟨_, ?_, spelled.symm⟩
  intro same
  rw [same] at spelled
  exact differs spelled.symm

namespace Module

private theorem decode_of_readHeader_error {image : Bytes} {error : ImageError}
    (refused : readHeader (.start image) = .error error) : decode image = .error error := by
  simp only [decode, refused, bind, Except.bind]

private theorem decode_of_checksum {header : Header} (size : header.digest.length = 32)
    {payload : Bytes} (differs : header.storedChecksum ≠ Checksum.crc32 payload) :
    decode (header.encode ++ payload) =
      .error (.checksumMismatch header.storedChecksum (Checksum.crc32 payload)) := by
  have position : (Cursor.mk headerSize payload).position = headerSize := rfl
  have read := readHeader_eq_ok.mpr ⟨size, rfl, position⟩
  simp only [decode, read, bind, Except.bind]
  rw [if_pos differs]
  rfl

/-- The digest is only compared if the checksum agrees. -/
theorem decode_of_digest {header : Header} (size : header.digest.length = 32) {payload : Bytes}
    (agrees : header.storedChecksum = Checksum.crc32 payload)
    (differs : Digest.sha256 payload ≠ header.digest) :
    decode (header.encode ++ payload) = .error .digestMismatch := by
  have position : (Cursor.mk headerSize payload).position = headerSize := rfl
  have read := readHeader_eq_ok.mpr ⟨size, rfl, position⟩
  simp only [decode, read, bind, Except.bind]
  rw [if_neg (not_not.mpr agrees), if_pos differs]
  rfl

private theorem Header.encode_append (header : Header) (payload : Bytes) :
    header.encode ++ payload =
      expectedMagic ++ (Bytes.uint32 expectedVersion ++ (Bytes.uint32 header.flags ++
        (Bytes.uint32 header.storedChecksum ++ (header.digest ++ payload)))) := by
  simp only [Header.encode, List.append_assoc]

section OneByte

variable {module : Module} {index : Nat} {byte : UInt8}

private theorem Encodable.decode_set_magic (encodable : module.Encodable)
    (changed : module.encode.set index byte ≠ module.encode) (before : index < 4) :
    ∃ magic, magic ≠ expectedMagic ∧
      decode (module.encode.set index byte) = .error (.invalidMagic magic) := by
  have parts : module.encode = [] ++ (expectedMagic ++ _) :=
    encodable.encode_eq.trans (module.imageHeader.encode_append module.payload)
  obtain ⟨magic, differs, size, replaced⟩ :=
    exists_part_of_set parts changed (Nat.zero_le index) (by simpa [expectedMagic] using before)
  rw [replaced]
  exact ⟨magic, differs, decode_of_readHeader_error (readHeader_of_magic size differs _)⟩

private theorem Encodable.decode_set_version (encodable : module.Encodable)
    (changed : module.encode.set index byte ≠ module.encode) (behind : 4 ≤ index)
    (before : index < 8) :
    ∃ version, version ≠ expectedVersion ∧
      decode (module.encode.set index byte) = .error (.unsupportedVersion version) := by
  have parts := encodable.encode_eq.trans (module.imageHeader.encode_append module.payload)
  obtain ⟨word, differs, size, replaced⟩ :=
    exists_part_of_set parts changed behind (by simpa [expectedMagic] using before)
  obtain ⟨version, other, rfl⟩ := Bytes.exists_uint32_of_ne size differs
  rw [replaced]
  exact ⟨version, other, decode_of_readHeader_error (readHeader_of_version other _)⟩

/-- Neither the checksum nor the digest covers the flags. -/
theorem Encodable.decode_set_flags (encodable : module.Encodable)
    (changed : module.encode.set index byte ≠ module.encode) (behind : 8 ≤ index)
    (before : index < 12) :
    ∃ original flags, decode module.encode = .ok original ∧ flags ≠ original.flags ∧
      decode (module.encode.set index byte) = .ok { original with flags := flags } := by
  have parts := encodable.encode_eq.trans (module.imageHeader.encode_append module.payload)
  rw [← List.append_assoc] at parts
  obtain ⟨word, differs, size, replaced⟩ := exists_part_of_set parts changed
    (by simpa [expectedMagic] using behind) (by simpa [expectedMagic] using before)
  obtain ⟨flags, other, rfl⟩ := Bytes.exists_uint32_of_ne size differs
  have altered : module.encode.set index byte =
      Header.encode { module.imageHeader with flags := flags } ++ module.payload := by
    rw [replaced, Header.encode_append, List.append_assoc]
  have position : (Cursor.mk headerSize module.payload).position = headerSize := rfl
  have read := readHeader_eq_ok.mpr ⟨length_sha256 module.payload, altered, position⟩
  exact ⟨_, flags, decode_encode encodable, other, encodable.decode_of_readHeader read rfl rfl⟩

private theorem Encodable.decode_set_checksum (encodable : module.Encodable)
    (changed : module.encode.set index byte ≠ module.encode) (behind : 12 ≤ index)
    (before : index < 16) :
    ∃ stored, stored ≠ Checksum.crc32 module.payload ∧
      decode (module.encode.set index byte) =
        .error (.checksumMismatch stored (Checksum.crc32 module.payload)) := by
  have parts := encodable.encode_eq.trans (module.imageHeader.encode_append module.payload)
  rw [← List.append_assoc, ← List.append_assoc] at parts
  obtain ⟨word, differs, size, replaced⟩ := exists_part_of_set parts changed
    (by simpa [expectedMagic] using behind) (by simpa [expectedMagic] using before)
  obtain ⟨stored, other, rfl⟩ := Bytes.exists_uint32_of_ne size differs
  have altered : module.encode.set index byte =
      Header.encode { module.imageHeader with storedChecksum := stored } ++ module.payload := by
    rw [replaced, Header.encode_append, List.append_assoc, List.append_assoc]
  rw [altered]
  exact ⟨stored, other, decode_of_checksum (length_sha256 module.payload) other⟩

private theorem Encodable.decode_set_digest (encodable : module.Encodable)
    (changed : module.encode.set index byte ≠ module.encode) (behind : 16 ≤ index)
    (before : index < 48) : decode (module.encode.set index byte) = .error .digestMismatch := by
  have parts := encodable.encode_eq.trans (module.imageHeader.encode_append module.payload)
  rw [← List.append_assoc, ← List.append_assoc, ← List.append_assoc] at parts
  have digestSize := module.length_digest_imageHeader
  obtain ⟨digest, differs, size, replaced⟩ := exists_part_of_set parts changed
    (by simpa [expectedMagic] using behind) (by simpa [expectedMagic, digestSize] using before)
  have altered : module.encode.set index byte =
      Header.encode { module.imageHeader with digest := digest } ++ module.payload := by
    rw [replaced, Header.encode_append, List.append_assoc, List.append_assoc, List.append_assoc]
  rw [altered]
  exact decode_of_digest (size.trans digestSize) rfl differs.symm

/-- The payload is compared through its checksum before it is read. -/
theorem Encodable.decode_set_payload (encodable : module.Encodable)
    (changed : module.encode.set index byte ≠ module.encode) (behind : 48 ≤ index) :
    ∃ computed, computed ≠ Checksum.crc32 module.payload ∧
      decode (module.encode.set index byte) =
        .error (.checksumMismatch (Checksum.crc32 module.payload) computed) := by
  have size : module.imageHeader.encode.length = 48 := module.length_imageHeader
  rw [encodable.encode_eq, List.set_append, if_neg (by omega)] at changed ⊢
  have differs := Checksum.crc32_set_ne fun same => changed (by rw [same])
  exact ⟨_, differs, decode_of_checksum module.length_digest_imageHeader differs.symm⟩

/-- What decoding makes of an image in which one byte is replaced: only other flags are accepted. -/
theorem Encodable.decode_set (encodable : module.Encodable) (inside : index < module.encode.length)
    (other : byte ≠ module.encode[index]) :
    let altered := module.encode.set index byte
    let checksum := Checksum.crc32 module.payload
    (index < 4 →
      ∃ magic, magic ≠ expectedMagic ∧ decode altered = .error (.invalidMagic magic)) ∧
    (4 ≤ index → index < 8 →
      ∃ version, version ≠ expectedVersion ∧
        decode altered = .error (.unsupportedVersion version)) ∧
    (8 ≤ index → index < 12 →
      ∃ original flags, decode module.encode = .ok original ∧ flags ≠ original.flags ∧
        decode altered = .ok { original with flags := flags }) ∧
    (12 ≤ index → index < 16 →
      ∃ stored, stored ≠ checksum ∧ decode altered = .error (.checksumMismatch stored checksum)) ∧
    (16 ≤ index → index < 48 → decode altered = .error .digestMismatch) ∧
    (48 ≤ index →
      ∃ computed, computed ≠ checksum ∧
        decode altered = .error (.checksumMismatch checksum computed)) := by
  have changed := set_ne_self inside other
  exact ⟨encodable.decode_set_magic changed, encodable.decode_set_version changed,
    encodable.decode_set_flags changed, encodable.decode_set_checksum changed,
    encodable.decode_set_digest changed, encodable.decode_set_payload changed⟩

end OneByte

/-- The first byte of a payload counts those of the name. -/
theorem decode_set_counterModule :
    counterModule.Encodable ∧ ∃ inside : 48 < counterModule.encode.length,
      (5 : UInt8) ≠ counterModule.encode[48] ∧
        ∃ computed, computed ≠ Checksum.crc32 counterModule.payload ∧
          decode (counterModule.encode.set 48 5) =
            .error (.checksumMismatch (Checksum.crc32 counterModule.payload) computed) := by
  have differs : ∃ inside : 48 < counterModule.encode.length,
      (5 : UInt8) ≠ counterModule.encode[48] := by
    decide +kernel
  obtain ⟨inside, other⟩ := differs
  obtain ⟨-, -, -, -, -, payload⟩ := counterModule_encodable.decode_set inside other
  exact ⟨counterModule_encodable, inside, other, payload (Nat.le_refl 48)⟩

end Module

end PropertyWeaver
