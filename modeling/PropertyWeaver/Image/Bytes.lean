/-!
# Writing bytes

The primitive forms of a module image. Every number is little-endian, a string follows the number of
its UTF-8 bytes, and a sequence follows the number of its items. Counts are 32-bit words; a longer
string or sequence is written after its length modulo `2 ^ 32`.
-/

set_option autoImplicit false

namespace PropertyWeaver

abbrev Bytes := List UInt8

namespace Bytes

/-- The low `width` bytes of a number, the least significant first. -/
def littleEndian : (width : Nat) → (n : Nat) → Bytes
  | 0, _ => []
  | width + 1, n => UInt8.ofNat n :: littleEndian width (n / 256)

def toNat : Bytes → Nat
  | [] => 0
  | byte :: rest => byte.toNat + 256 * toNat rest

def uint8 (value : UInt8) : Bytes := [value]

def bool (value : Bool) : Bytes := [if value then 1 else 0]

def uint16 (value : UInt16) : Bytes := littleEndian 2 value.toNat

def uint32 (value : UInt32) : Bytes := littleEndian 4 value.toNat

def uint64 (value : UInt64) : Bytes := littleEndian 8 value.toNat

def int32 (value : Int32) : Bytes := uint32 value.toUInt32

def int64 (value : Int64) : Bytes := uint64 value.toUInt64

/-- Interleaves the integers with the naturals, so that small magnitudes have small codes:
0, -1, 1, -2, 2, and so on. -/
def zigzag (value : Int32) : Nat :=
  let n := value.toInt
  (if 0 ≤ n then 2 * n else -2 * n - 1).toNat

/-- Groups of seven bits, the least significant first. Every byte but the last has its high bit set.
`limit` bounds the number of bytes; five hold every 32-bit number. -/
def sevenBitGroups : (limit : Nat) → (n : Nat) → Bytes
  | 0, _ => []
  | limit + 1, n =>
      if n < 128 then [UInt8.ofNat n]
      else UInt8.ofNat (n % 128 + 128) :: sevenBitGroups limit (n / 128)

def varint (value : Int32) : Bytes := sevenBitGroups 5 (zigzag value)

def utf8 (text : String) : Bytes := text.toUTF8.data.toList

def count (n : Nat) : Bytes := littleEndian 4 n

/-- A string after the number of its bytes. -/
def string (text : String) : Bytes :=
  count (utf8 text).length ++ utf8 text

def sequence {α : Type} (item : α → Bytes) (items : List α) : Bytes :=
  count items.length ++ items.flatMap item

def optional {α : Type} (item : α → Bytes) : Option α → Bytes
  | some value => bool true ++ item value
  | none => bool false

/-! ## Filling in later -/

def reserve (bytes : Bytes) (size : Nat) : Bytes :=
  bytes ++ List.replicate size 0

/-- Replaces the bytes at an offset. The replacement is expected to lie inside the bytes. -/
def patch (bytes : Bytes) (offset : Nat) (replacement : Bytes) : Bytes :=
  bytes.take offset ++ replacement ++ bytes.drop (offset + replacement.length)

end Bytes

end PropertyWeaver
