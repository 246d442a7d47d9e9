import Mathlib.Algebra.Ring.Nat
import Mathlib.Data.Nat.Bitwise
import PropertyWeaver.Image.Reader

/-!
# Reading back what was written

`Reads reader image value` says that a reader takes exactly the bytes `image` and gives `value`,
whatever follows. Positions and later bytes are arbitrary, so the statement composes along the parts
of a record. Every primitive reader reads back what its writer wrote.
-/

set_option autoImplicit false

namespace PropertyWeaver

theorem Reader.bind_eq_ok {α β : Type} {reader : Reader α} {next : α → Reader β}
    {cursor rest : Cursor} {result : β} :
    (reader >>= next) cursor = .ok result rest ↔
      ∃ value middle, reader cursor = .ok value middle ∧ next value middle = .ok result rest := by
  change EStateM.bind reader next cursor = _ ↔ _
  unfold EStateM.bind
  cases reader cursor with
  | error error failed => simp
  | ok value middle =>
      constructor
      · exact fun read => ⟨value, middle, rfl, read⟩
      · rintro ⟨_, _, taken, read⟩
        cases taken
        exact read

theorem Reader.map_eq_ok {α β : Type} {rename : α → β} {reader : Reader α} {cursor rest : Cursor}
    {result : β} :
    (rename <$> reader) cursor = .ok result rest ↔
      ∃ value, reader cursor = .ok value rest ∧ result = rename value := by
  change EStateM.map rename reader cursor = _ ↔ _
  unfold EStateM.map
  cases reader cursor with
  | error error failed => simp
  | ok value middle =>
      constructor
      · rintro ⟨⟩
        exact ⟨value, rfl, rfl⟩
      · rintro ⟨_, ⟨⟩, rfl⟩
        rfl

/-- The reader takes exactly these bytes from any longer input and gives the value. Nothing is said
about inputs that begin otherwise. -/
def Reads {α : Type} (reader : Reader α) (image : Bytes) (value : α) : Prop :=
  ∀ (position : Nat) (rest : Bytes),
    reader ⟨position, image ++ rest⟩ = .ok value ⟨position + image.length, rest⟩

namespace Reads

variable {α β : Type}

private theorem pure (value : α) : Reads (Pure.pure value) [] value := by
  intro position rest
  rfl

/-- Readers in sequence take the bytes of the one and then those of the other. -/
theorem bind {reader : Reader α} {next : α → Reader β} {front back : Bytes} {first : α} {value : β}
    (head : Reads reader front first) (tail : Reads (next first) back value) :
    Reads (reader >>= next) (front ++ back) value := by
  intro position rest
  have taken := head position (back ++ rest)
  have continued := tail (position + front.length) rest
  simp only [Bind.bind, EStateM.bind, List.append_assoc, taken, continued, List.length_append,
    Nat.add_assoc]

/-- What follows the last byte taken may still check or rename the value. -/
theorem finish {reader : Reader α} {next : α → Reader β} {image : Bytes} {first : α} {value : β}
    (head : Reads reader image first) (tail : Reads (next first) [] value) :
    Reads (reader >>= next) image value := by
  simpa only [List.append_nil] using head.bind tail

private theorem map {reader : Reader α} {image : Bytes} {first : α}
    (head : Reads reader image first)
    (rename : α → β) : Reads (do return rename (← reader)) image (rename first) :=
  head.finish (.pure (rename first))

/-- A reader that first asks for the position may depend on it as long as it reads alike at all. -/
theorem position_bind {next : Nat → Reader α} {image : Bytes} {value : α}
    (everywhere : ∀ position, Reads (next position) image value) :
    Reads (Reader.position >>= next) image value := by
  intro position rest
  exact everywhere position position rest

end Reads

/-! ## Fixed sizes -/

theorem splitExactly?_length_append {α : Type} (front rest : List α) :
    splitExactly? front.length (front ++ rest) = some (front, rest) := by
  induction front with
  | nil => rfl
  | cons item front ih => simp [splitExactly?, ih]

namespace Bytes

@[simp] theorem length_littleEndian (width n : Nat) : (littleEndian width n).length = width := by
  induction width generalizing n with
  | zero => rfl
  | succ width ih => simp [littleEndian, ih]

/-- Bytes spell the number that they were made from, cut to their width. -/
theorem toNat_littleEndian (width n : Nat) :
    toNat (littleEndian width n) = n % 256 ^ width := by
  induction width generalizing n with
  | zero => simp [littleEndian, toNat, Nat.mod_one]
  | succ width ih =>
      have cut : n % 256 ^ (width + 1) = n % 256 + 256 * (n / 256 % 256 ^ width) := by
        rw [Nat.pow_succ', Nat.mod_mul]
      simp only [littleEndian, toNat, ih, cut, UInt8.toNat_ofNat']

/-- What is written for one item is no longer than what is written for all of them. -/
theorem length_le_length_flatMap {α : Type} (write : α → Bytes) {items : List α} {item : α}
    (member : item ∈ items) : (write item).length ≤ (items.flatMap write).length := by
  rw [List.flatMap_def]
  exact (List.sublist_flatten_of_mem (List.mem_map_of_mem member)).length_le

/-! ## Groups of seven bits -/

/-- The high bit of a byte says that another group follows. -/
def Continues (byte : UInt8) : Prop :=
  byte &&& 0x80 ≠ 0

instance (byte : UInt8) : Decidable (Continues byte) :=
  inferInstanceAs (Decidable (_ ≠ _))

/-- A number in groups of seven bits, the least significant first. Groups without bits may follow the
most significant one. -/
inductive Leb128 : (groups : Bytes) → (n : Nat) → Prop where
  | last {byte : UInt8} : ¬ Continues byte → Leb128 [byte] byte.toNat
  | further {byte : UInt8} {groups : Bytes} {n : Nat} :
      Continues byte → Leb128 groups n → Leb128 (byte :: groups) (byte.toNat % 128 + 128 * n)

theorem continues_iff {byte : UInt8} : Continues byte ↔ 128 ≤ byte.toNat := by
  have small := byte.toNat_lt
  have bit : byte &&& 0x80 = 0 ↔ byte.toNat.testBit 7 = false := by
    rw [← UInt8.toNat_inj, UInt8.toNat_and]
    change byte.toNat &&& 2 ^ 7 = 0 ↔ _
    rw [Nat.and_two_pow]
    cases byte.toNat.testBit 7 <;> simp
  rw [Continues, ne_eq, bit, Nat.testBit_eq_decide_div_mod_eq, decide_eq_false_iff_not]
  omega

theorem not_continues_iff {byte : UInt8} : ¬ Continues byte ↔ byte < 128 := by
  rw [continues_iff, Nat.not_le, UInt8.lt_iff_toNat_lt]
  rfl

private theorem length_sevenBitGroups_le_limit (limit n : Nat) :
    (sevenBitGroups limit n).length ≤ limit := by
  induction limit generalizing n with
  | zero => exact Nat.le_refl 0
  | succ limit hypothesis =>
      rw [sevenBitGroups]
      split
      · exact Nat.succ_le_succ (Nat.zero_le limit)
      · exact Nat.succ_le_succ (hypothesis (n / 128))

private theorem leb128_of_small {n : Nat} (small : n < 128) : Leb128 [UInt8.ofNat n] n := by
  have byte : (UInt8.ofNat n).toNat = n := UInt8.toNat_ofNat_of_lt' (by simp [UInt8.size]; omega)
  have ends : ¬ Continues (UInt8.ofNat n) := by
    rw [continues_iff, byte]
    omega
  have form := Leb128.last ends
  rwa [byte] at form

/-- A number is written in groups if there are enough of them. -/
theorem leb128_sevenBitGroups {limit n : Nat} (fits : n < 128 ^ (limit + 1)) :
    Leb128 (sevenBitGroups (limit + 1) n) n := by
  induction limit generalizing n with
  | zero =>
      have small : n < 128 := by simpa using fits
      rw [sevenBitGroups, if_pos small]
      exact leb128_of_small small
  | succ limit hypothesis =>
      rw [sevenBitGroups]
      split
      · next small => exact leb128_of_small small
      · have quotient : n / 128 < 128 ^ (limit + 1) := by
          rw [Nat.pow_succ] at fits
          omega
        have byte : (UInt8.ofNat (n % 128 + 128)).toNat = n % 128 + 128 :=
          UInt8.toNat_ofNat_of_lt' (by simp [UInt8.size]; omega)
        have continues : Continues (UInt8.ofNat (n % 128 + 128)) := by
          rw [continues_iff, byte]
          omega
        have form := Leb128.further continues (hypothesis quotient)
        rw [byte] at form
        have whole : (n % 128 + 128) % 128 + 128 * (n / 128) = n := by omega
        rwa [whole] at form

end Bytes

namespace Reader

theorem reads_bytes (image : Bytes) : Reads (bytes image.length) image image := by
  intro position rest
  simp [bytes, splitExactly?_length_append]

private theorem reads_littleEndian (width n : Nat) :
    Reads (bytes width) (Bytes.littleEndian width n) (Bytes.littleEndian width n) := by
  simpa only [Bytes.length_littleEndian] using reads_bytes (Bytes.littleEndian width n)

theorem reads_uint8 (value : UInt8) : Reads uint8 (Bytes.uint8 value) value := by
  intro position rest
  rfl

theorem reads_bool (value : Bool) : Reads bool (Bytes.bool value) value := by
  have read := (reads_uint8 (if value then 1 else 0)).map (· != 0)
  cases value <;> exact read

theorem reads_uint16 (value : UInt16) : Reads uint16 (Bytes.uint16 value) value := by
  have read := (reads_littleEndian 2 value.toNat).map fun image => UInt16.ofNat image.toNat
  have small : value.toNat < 256 ^ 2 := value.toNat_lt
  have spelled : UInt16.ofNat (Bytes.littleEndian 2 value.toNat).toNat = value := by
    rw [Bytes.toNat_littleEndian, Nat.mod_eq_of_lt small, UInt16.ofNat_toNat]
  rwa [spelled] at read

/-- A count is read back modulo `2 ^ 32`. -/
theorem reads_count (n : Nat) : Reads uint32 (Bytes.count n) (UInt32.ofNat n) := by
  have read := (reads_littleEndian 4 n).map fun image => UInt32.ofNat image.toNat
  have spelled : UInt32.ofNat (Bytes.littleEndian 4 n).toNat = UInt32.ofNat n := by
    rw [Bytes.toNat_littleEndian]
    apply UInt32.toNat_inj.mp
    simp
  rwa [spelled] at read

theorem reads_uint32 (value : UInt32) : Reads uint32 (Bytes.uint32 value) value := by
  have read := reads_count value.toNat
  rwa [UInt32.ofNat_toNat] at read

theorem reads_uint64 (value : UInt64) : Reads uint64 (Bytes.uint64 value) value := by
  have read := (reads_littleEndian 8 value.toNat).map fun image => UInt64.ofNat image.toNat
  have small : value.toNat < 256 ^ 8 := value.toNat_lt
  have spelled : UInt64.ofNat (Bytes.littleEndian 8 value.toNat).toNat = value := by
    rw [Bytes.toNat_littleEndian, Nat.mod_eq_of_lt small, UInt64.ofNat_toNat]
  rwa [spelled] at read

theorem reads_int32 (value : Int32) : Reads int32 (Bytes.int32 value) value := by
  have read := (reads_uint32 value.toUInt32).map UInt32.toInt32
  rwa [Int32.toInt32_toUInt32] at read

theorem reads_int64 (value : Int64) : Reads int64 (Bytes.int64 value) value := by
  have read := (reads_uint64 value.toUInt64).map UInt64.toInt64
  rwa [Int64.toInt64_toUInt64] at read

theorem reads_float32 (value : Binary32) : Reads float32 (Bytes.uint32 value.bits) value :=
  (reads_uint32 value.bits).map Binary32.mk

theorem reads_float64 (value : Binary64) : Reads float64 (Bytes.uint64 value.bits) value :=
  (reads_uint64 value.bits).map Binary64.mk

theorem reads_coded {α : Type} {ofByte? : UInt8 → Option α} {error : UInt8 → Nat → ReadError}
    {byte : UInt8} {value : α} (stands : ofByte? byte = some value) :
    Reads (coded ofByte? error) [byte] value := by
  apply Reads.position_bind
  intro offset
  apply (reads_uint8 byte).finish
  rw [stands]
  exact .pure value

/-! ## Varints -/

/-- Every group but the last continues, and the last one does not. -/
theorem reads_leb128 (start : Nat) {groups : Bytes} {n limit : Nat} (form : Bytes.Leb128 groups n)
    (short : groups.length ≤ limit) : Reads (sevenBitGroups start limit) groups n := by
  induction form generalizing limit with
  | @last byte ends =>
      obtain ⟨limit, rfl⟩ := Nat.exists_eq_add_of_le' short
      have below : byte < 128 := Bytes.not_continues_iff.mp ends
      apply (reads_uint8 byte).finish
      rw [if_pos below]
      exact .pure byte.toNat
  | @further byte groups n continues _ hypothesis =>
      obtain ⟨limit, rfl⟩ := Nat.exists_eq_add_of_le' (Nat.le_trans (Nat.le_add_left 1 _) short)
      have above : ¬ byte < 128 := fun below => Bytes.not_continues_iff.mpr below continues
      have group : byte.toNat - 128 = byte.toNat % 128 := by
        have high := Bytes.continues_iff.mp continues
        have small := byte.toNat_lt
        omega
      apply (reads_uint8 byte).bind
      rw [if_neg above, group]
      exact (hypothesis (Nat.le_of_succ_le_succ short)).map fun rest => byte.toNat % 128 + 128 * rest

private theorem unzigzag_zigzag (value : Int32) : unzigzag (Bytes.zigzag value) = value.toInt := by
  simp only [unzigzag, Bytes.zigzag]
  split <;> split <;> omega

theorem zigzag_lt (value : Int32) : Bytes.zigzag value < 2 ^ 32 := by
  have lower := value.le_toInt
  have upper := value.toInt_lt
  simp only [Bytes.zigzag]
  split <;> omega

/-- Bits above the 32nd do not count. -/
theorem reads_varint_of_leb128 {groups : Bytes} {code : Nat} {value : Int32}
    (form : Bytes.Leb128 groups code) (short : groups.length ≤ 5)
    (codes : Bytes.zigzag value = code % 2 ^ 32) : Reads varint groups value := by
  have decoded : Int32.ofInt (unzigzag (code % 0x100000000)) = value := by
    change Int32.ofInt (unzigzag (code % 2 ^ 32)) = value
    rw [← codes, unzigzag_zigzag, Int32.ofInt_toInt]
  apply Reads.position_bind
  intro start
  apply (reads_leb128 start form short).finish
  rw [decoded]
  exact .pure value

theorem leb128_varint (value : Int32) : Bytes.Leb128 (Bytes.varint value) (Bytes.zigzag value) :=
  Bytes.leb128_sevenBitGroups (Nat.lt_trans (zigzag_lt value) (by decide))

theorem length_varint_le_five (value : Int32) : (Bytes.varint value).length ≤ 5 :=
  Bytes.length_sevenBitGroups_le_limit 5 _

theorem reads_varint (value : Int32) : Reads varint (Bytes.varint value) value :=
  reads_varint_of_leb128 (leb128_varint value) (length_varint_le_five value)
    (Nat.mod_eq_of_lt (zigzag_lt value)).symm

/-! ## Counted data -/

private theorem fromUTF8?_utf8 (text : String) :
    String.fromUTF8? ⟨(Bytes.utf8 text).toArray⟩ = some text := by
  have valid : text.toByteArray.IsValidUTF8 := text.isValidUTF8
  simp only [Bytes.utf8, String.toUTF8, Array.toArray_toList]
  rw [String.fromUTF8?, dif_pos valid]
  rfl

theorem reads_string {text : String} (fits : (Bytes.utf8 text).length < 2 ^ 32) :
    Reads string (Bytes.string text) text := by
  apply (reads_count _).bind
  apply Reads.position_bind
  intro start
  have size : (UInt32.ofNat (Bytes.utf8 text).length).toNat = (Bytes.utf8 text).length :=
    UInt32.toNat_ofNat_of_lt' fits
  rw [size]
  apply (reads_bytes _).finish
  simp only [fromUTF8?_utf8]
  exact .pure text

/-! ## Sequences -/

variable {α : Type} {item : Reader α} {write : α → Bytes}

private theorem reads_times {items : List α}
    (each : ∀ value ∈ items, Reads item (write value) value) :
    Reads (times item items.length) (items.flatMap write) items := by
  induction items with
  | nil => exact .pure []
  | cons first rest ih =>
      have others := ih fun value member => each value (List.mem_cons_of_mem first member)
      exact (each first List.mem_cons_self).bind (others.map (first :: ·))

theorem items_le_bytes {items : List α} (nonempty : ∀ value ∈ items, write value ≠ []) :
    items.length ≤ (items.flatMap write).length := by
  induction items with
  | nil => simp
  | cons first rest ih =>
      have others := ih fun value member => nonempty value (List.mem_cons_of_mem first member)
      have some_byte := List.length_pos_iff.mpr (nonempty first List.mem_cons_self)
      simp only [List.length_cons, List.flatMap_cons, List.length_append]
      omega

/-- A number that was written is read if there is a byte for each of the items. -/
theorem count_append {number : Nat} (fits : number < 2 ^ 32) {rest : Bytes}
    (enough : number ≤ rest.length) (position : Nat) :
    count ⟨position, Bytes.count number ++ rest⟩ = .ok number ⟨position + 4, rest⟩ := by
  have word : (UInt32.ofNat number).toNat = number := UInt32.toNat_ofNat_of_lt' fits
  have size : (Bytes.count number).length = 4 := Bytes.length_littleEndian 4 number
  have taken := reads_count number position rest
  rw [size] at taken
  refine bind_eq_ok.mpr ⟨_, _, taken, bind_eq_ok.mpr ⟨rest.length, _, rfl, ?_⟩⟩
  rw [word, if_neg (Nat.not_lt.mpr enough)]
  rfl

/-- A sequence is read back item by item. Every item takes a byte, so the number of items never
exceeds that of the unread bytes. -/
theorem reads_sequence {items : List α} (fits : items.length < 2 ^ 32)
    (nonempty : ∀ value ∈ items, write value ≠ [])
    (each : ∀ value ∈ items, Reads item (write value) value) :
    Reads (sequence item) (Bytes.sequence write items) items := by
  intro position rest
  have counted := items_le_bytes nonempty
  have enough : items.length ≤ (items.flatMap write ++ rest).length := by
    rw [List.length_append]
    omega
  have size : (Bytes.count items.length).length = 4 := Bytes.length_littleEndian 4 items.length
  rw [Bytes.sequence, List.append_assoc, List.length_append, size, ← Nat.add_assoc]
  exact bind_eq_ok.mpr ⟨_, _, count_append fits enough position, reads_times each (position + 4) rest⟩

end Reader

end PropertyWeaver
