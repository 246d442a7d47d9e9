import PropertyWeaver.Image.Basic
import PropertyWeaver.Proofs.Image.Reading
import PropertyWeaver.Proofs.Outcome

/-!
# Headers

A read of fixed size succeeds exactly on inputs that are long enough, and the number it gives spells
the bytes that it took. A header is therefore read from an image exactly if the image begins with
its 48 bytes, and what an image says differently in its header can be told from the bytes alone.
-/

set_option autoImplicit false

namespace PropertyWeaver

/-! ## Fixed sizes -/

private theorem splitExactly?_eq_some {α : Type} {size : Nat} {items front rest : List α} :
    splitExactly? size items = some (front, rest) ↔
      items = front ++ rest ∧ front.length = size := by
  constructor
  · intro split
    induction size generalizing items front with
    | zero =>
        obtain ⟨rfl, rfl⟩ := Prod.mk.inj (Option.some.inj split)
        exact ⟨rfl, rfl⟩
    | succ size ih =>
        cases items with
        | nil => cases split
        | cons item items =>
            cases further : splitExactly? size items with
            | none => simp [splitExactly?, further] at split
            | some parts =>
                simp only [splitExactly?, further, Option.some.injEq, Prod.mk.injEq] at split
                obtain ⟨rfl, rfl⟩ := split
                obtain ⟨rfl, rfl⟩ := ih further
                exact ⟨rfl, rfl⟩
  · rintro ⟨rfl, rfl⟩
    exact splitExactly?_length_append front rest

namespace Bytes

private theorem toNat_lt (image : Bytes) : toNat image < 256 ^ image.length := by
  induction image with
  | nil => simp [toNat]
  | cons byte rest ih =>
      have small := byte.toNat_lt
      simp only [toNat, List.length_cons, Nat.pow_succ]
      omega

/-- Bytes are spelled by the number that they spell. -/
theorem littleEndian_toNat (image : Bytes) : littleEndian image.length (toNat image) = image := by
  induction image with
  | nil => rfl
  | cons byte rest ih =>
      have small := byte.toNat_lt
      have quotient : (byte.toNat + 256 * toNat rest) / 256 = toNat rest := by omega
      have low : UInt8.ofNat (byte.toNat + 256 * toNat rest) = byte := by
        apply UInt8.toNat_inj.mp
        rw [UInt8.toNat_ofNat']
        omega
      simp only [List.length_cons, littleEndian, toNat, low, quotient, ih]

@[simp] theorem length_uint32 (value : UInt32) : (uint32 value).length = 4 :=
  length_littleEndian 4 _

theorem uint16_ofNat_toNat {image : Bytes} (size : image.length = 2) :
    uint16 (UInt16.ofNat image.toNat) = image := by
  have small : image.toNat < 256 ^ 2 := by
    rw [← size]
    exact image.toNat_lt
  rw [uint16, UInt16.toNat_ofNat_of_lt' small, ← size, littleEndian_toNat]

theorem uint32_ofNat_toNat {image : Bytes} (size : image.length = 4) :
    uint32 (UInt32.ofNat image.toNat) = image := by
  have small : image.toNat < 256 ^ 4 := by
    rw [← size]
    exact image.toNat_lt
  rw [uint32, UInt32.toNat_ofNat_of_lt' small, ← size, littleEndian_toNat]

theorem uint64_ofNat_toNat {image : Bytes} (size : image.length = 8) :
    uint64 (UInt64.ofNat image.toNat) = image := by
  have small : image.toNat < 256 ^ 8 := by
    rw [← size]
    exact image.toNat_lt
  rw [uint64, UInt64.toNat_ofNat_of_lt' small, ← size, littleEndian_toNat]

end Bytes

namespace Reader

theorem bytes_eq_ok {size : Nat} {cursor rest : Cursor} {image : Bytes} :
    bytes size cursor = .ok image rest ↔
      image.length = size ∧ cursor.unread = image ++ rest.unread ∧
        rest.position = cursor.position + size := by
  obtain ⟨position, unread⟩ := rest
  unfold bytes
  split
  · next front back split =>
      obtain ⟨spelled, size⟩ := splitExactly?_eq_some.mp split
      simp only [EStateM.Result.ok.injEq, Cursor.mk.injEq]
      constructor
      · rintro ⟨rfl, rfl, rfl⟩
        exact ⟨size, spelled, rfl⟩
      · rintro ⟨size', spelled', rfl⟩
        obtain ⟨rfl, rfl⟩ := List.append_inj (spelled.symm.trans spelled') (size.trans size'.symm)
        exact ⟨rfl, rfl, rfl⟩
  · next short =>
      simp only [reduceCtorEq, false_iff]
      rintro ⟨size, spelled, -⟩
      rw [splitExactly?_eq_some.mpr ⟨spelled, size⟩] at short
      cases short

/-- A word is what the four bytes taken spell, whatever they are. -/
theorem uint32_eq_ok {cursor rest : Cursor} {value : UInt32} :
    uint32 cursor = .ok value rest ↔
      cursor.unread = Bytes.uint32 value ++ rest.unread ∧ rest.position = cursor.position + 4 := by
  constructor
  · intro read
    obtain ⟨image, middle, taken, finished⟩ := bind_eq_ok.mp read
    obtain ⟨size, spelled, moved⟩ := bytes_eq_ok.mp taken
    cases finished
    rw [Bytes.uint32_ofNat_toNat size]
    exact ⟨spelled, moved⟩
  · rintro ⟨spelled, moved⟩
    obtain ⟨position, unread⟩ := cursor
    obtain ⟨position', unread'⟩ := rest
    simp only at spelled moved
    subst spelled moved
    exact reads_uint32 value position unread'

theorem count_eq_ok {cursor rest : Cursor} {number : Nat} :
    count cursor = .ok number rest ↔
      number < 2 ^ 32 ∧ cursor.unread = Bytes.count number ++ rest.unread ∧
        rest.position = cursor.position + 4 ∧ number ≤ rest.unread.length := by
  constructor
  · intro read
    obtain ⟨word, middle, taken, read⟩ := bind_eq_ok.mp read
    obtain ⟨spelled, moved⟩ := uint32_eq_ok.mp taken
    obtain ⟨available, _, looked, read⟩ := bind_eq_ok.mp read
    cases looked
    split at read
    · obtain ⟨_, _, _, failed⟩ := bind_eq_ok.mp read
      cases failed
    next enough =>
    cases read
    exact ⟨word.toNat_lt, spelled, moved, Nat.not_lt.mp enough⟩
  · rintro ⟨fits, spelled, moved, enough⟩
    obtain ⟨position, unread⟩ := cursor
    obtain ⟨position', unread'⟩ := rest
    simp only at spelled moved
    subst spelled moved
    exact count_append fits enough position

end Reader

namespace Module

open Reader

theorem runReader_eq_ok {α : Type} {reader : Reader α} {cursor rest : Cursor} {value : α} :
    runReader reader cursor = .ok (value, rest) ↔ reader cursor = .ok value rest := by
  unfold runReader
  cases reader cursor with
  | error error failed => simp
  | ok value middle => simp

theorem runReader_of_reads {α : Type} {reader : Reader α} {image : Bytes} {value : α}
    (reads : Reads reader image value) (position : Nat) (rest : Bytes) :
    runReader reader ⟨position, image ++ rest⟩ = .ok (value, ⟨position + image.length, rest⟩) := by
  rw [runReader, reads]

/-! ## Headers -/

/-- The bytes of a header, behind the magic bytes and the version that every image has. -/
def Header.encode (header : Header) : Bytes :=
  expectedMagic ++ Bytes.uint32 expectedVersion ++ Bytes.uint32 header.flags ++
    Bytes.uint32 header.storedChecksum ++ header.digest

theorem Header.length_encode {header : Header} (size : header.digest.length = 32) :
    header.encode.length = headerSize := by
  simp [encode, size, expectedMagic, headerSize]

/-- A header is read from the images that begin with its bytes, and from no others. -/
theorem readHeader_eq_ok {image : Bytes} {header : Header} {cursor : Cursor} :
    readHeader (.start image) = .ok (header, cursor) ↔
      header.digest.length = 32 ∧ image = header.encode ++ cursor.unread ∧
        cursor.position = headerSize := by
  constructor
  · intro read
    obtain ⟨⟨magic, first⟩, taken, read⟩ := Outcome.bind_eq_ok.mp read
    obtain ⟨-, magicSpelled, magicMoved⟩ := bytes_eq_ok.mp (runReader_eq_ok.mp taken)
    simp only at read
    split at read
    · cases read
    next known =>
    obtain ⟨⟨version, second⟩, taken, read⟩ := Outcome.bind_eq_ok.mp read
    obtain ⟨versionSpelled, versionMoved⟩ := uint32_eq_ok.mp (runReader_eq_ok.mp taken)
    simp only at read
    split at read
    · cases read
    next current =>
    obtain ⟨⟨flags, third⟩, taken, read⟩ := Outcome.bind_eq_ok.mp read
    obtain ⟨flagsSpelled, flagsMoved⟩ := uint32_eq_ok.mp (runReader_eq_ok.mp taken)
    obtain ⟨⟨checksum, fourth⟩, taken, read⟩ := Outcome.bind_eq_ok.mp read
    obtain ⟨checksumSpelled, checksumMoved⟩ := uint32_eq_ok.mp (runReader_eq_ok.mp taken)
    obtain ⟨⟨digest, fifth⟩, taken, read⟩ := Outcome.bind_eq_ok.mp read
    obtain ⟨size, digestSpelled, digestMoved⟩ := bytes_eq_ok.mp (runReader_eq_ok.mp taken)
    obtain ⟨rfl, rfl⟩ := Prod.mk.inj (Except.ok.inj read)
    obtain rfl := not_not.mp known
    obtain rfl := not_not.mp current
    simp only [Cursor.start]
      at magicSpelled versionSpelled flagsSpelled checksumSpelled digestSpelled
    have position : fifth.position = headerSize := by
      simp only [digestMoved, checksumMoved, flagsMoved, versionMoved, magicMoved, Cursor.start,
        headerSize]
    refine ⟨size, ?_, position⟩
    simp only [Header.encode, List.append_assoc, magicSpelled, versionSpelled, flagsSpelled,
      checksumSpelled, digestSpelled]
  · rintro ⟨size, rfl, moved⟩
    obtain ⟨position, payload⟩ := cursor
    obtain ⟨flags, checksum, digest⟩ := header
    simp only at size moved
    subst moved
    have magicRead := runReader_of_reads (reads_bytes expectedMagic)
    have versionRead := runReader_of_reads (reads_uint32 expectedVersion)
    have flagsRead := runReader_of_reads (reads_uint32 flags)
    have checksumRead := runReader_of_reads (reads_uint32 checksum)
    have digestRead := runReader_of_reads (reads_bytes digest)
    have magicSize : expectedMagic.length = 4 := rfl
    simp only [size, magicSize, Bytes.length_uint32]
      at magicRead versionRead flagsRead checksumRead digestRead
    simp only [readHeader, Header.encode, Cursor.start, List.append_assoc, bind, Except.bind,
      magicRead, versionRead, flagsRead, checksumRead, digestRead, ne_eq, not_true_eq_false,
      ↓reduceIte]
    rfl

/-- Four other bytes in front are reported, whatever follows. -/
theorem readHeader_of_magic {magic : Bytes} (size : magic.length = 4)
    (other : magic ≠ expectedMagic) (rest : Bytes) :
    readHeader (.start (magic ++ rest)) = .error (.invalidMagic magic) := by
  have magicRead := runReader_of_reads (reads_bytes magic) 0 rest
  simp only [size] at magicRead
  simp only [readHeader, Cursor.start, magicRead, bind, Except.bind]
  rw [if_pos other]
  rfl

/-- Another version is reported behind the magic bytes. -/
theorem readHeader_of_version {version : UInt32} (other : version ≠ expectedVersion)
    (rest : Bytes) :
    readHeader (.start (expectedMagic ++ (Bytes.uint32 version ++ rest))) =
      .error (.unsupportedVersion version) := by
  have magicRead := runReader_of_reads (reads_bytes expectedMagic) 0 (Bytes.uint32 version ++ rest)
  have versionRead := runReader_of_reads (reads_uint32 version)
  have magicSize : expectedMagic.length = 4 := rfl
  simp only [magicSize] at magicRead
  simp only [readHeader, Cursor.start, magicRead, versionRead, bind, Except.bind, ne_eq,
    not_true_eq_false, ↓reduceIte, other]
  rfl

end Module

end PropertyWeaver
