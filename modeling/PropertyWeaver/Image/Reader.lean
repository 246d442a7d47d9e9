import PropertyWeaver.Code.Opcode
import PropertyWeaver.Image.Bytes
import PropertyWeaver.Number.Binary
import PropertyWeaver.Text.Quoted

/-!
# Reading bytes

A `Reader` takes values off the unread part of an image and knows its position in the whole. A
failed read leaves the cursor where it had got to, so its error and its position are both
meaningful.
-/

set_option autoImplicit false

namespace PropertyWeaver

/-- The structures that begin with a tag byte. -/
inductive Tagged where
  | typeSignature
  | constant
  deriving DecidableEq, Repr

/-- Why bytes could not be read. Offsets count from the start of the image. -/
inductive ReadError where
  | unexpectedEnd (offset : Nat)
  | invalidUtf8 (offset : Nat)
  | invalidOpcode (byte : UInt8) (offset : Nat)
  | invalidTag (what : Tagged) (tag : UInt8) (offset : Nat)
  | varintOverflow (offset : Nat)
  deriving DecidableEq, Repr

def Tagged.name : Tagged → String
  | .typeSignature => "type signature"
  | .constant => "constant"

def ReadError.message : ReadError → String
  | .unexpectedEnd offset => "Unexpected end of module image at offset " ++ toString offset
  | .invalidUtf8 offset => "Invalid UTF-8 string at offset " ++ toString offset
  | .invalidOpcode byte offset =>
      "Invalid opcode " ++ Text.markedHex 2 byte.toNat ++ " at offset " ++ toString offset
  | .invalidTag what tag offset =>
      "Invalid " ++ what.name ++ " tag " ++ Text.markedHex 2 tag.toNat ++ " at offset " ++
        toString offset
  | .varintOverflow offset => "Varint overflow at offset " ++ toString offset

/-- A place in an image: the number of bytes read and the bytes that follow. -/
structure Cursor where
  position : Nat
  unread : Bytes
  deriving DecidableEq, Repr

def Cursor.start (bytes : Bytes) : Cursor := ⟨0, bytes⟩

/-- A computation that reads from a cursor. It moves the cursor also when it fails. -/
abbrev Reader := EStateM ReadError Cursor

/-- The first `size` items and the rest, if there are that many. -/
def splitExactly? {α : Type} : (size : Nat) → List α → Option (List α × List α)
  | 0, items => some ([], items)
  | _ + 1, [] => none
  | size + 1, item :: items =>
      match splitExactly? size items with
      | some (front, rest) => some (item :: front, rest)
      | none => none

/-- The given number of items, one after the other. -/
def times {m : Type → Type} [Monad m] {α : Type} (item : m α) : (number : Nat) → m (List α)
  | 0 => return []
  | number + 1 => do
      let first ← item
      return first :: (← times item number)

namespace Reader

/-- Takes exactly `size` bytes. If there are fewer, it fails and the cursor stays. -/
def bytes (size : Nat) : Reader Bytes := fun cursor =>
  match splitExactly? size cursor.unread with
  | some (front, rest) => .ok front ⟨cursor.position + size, rest⟩
  | none => .error (.unexpectedEnd cursor.position) cursor

def position : Reader Nat := fun cursor => .ok cursor.position cursor

def remaining : Reader Nat := fun cursor => .ok cursor.unread.length cursor

def hasMore : Reader Bool := fun cursor => .ok (!cursor.unread.isEmpty) cursor

def fail {α : Type} (error : ReadError) : Reader α := fun cursor => .error error cursor

def uint8 : Reader UInt8 := fun cursor =>
  match cursor.unread with
  | byte :: rest => .ok byte ⟨cursor.position + 1, rest⟩
  | [] => .error (.unexpectedEnd cursor.position) cursor

/-- One byte; every byte but zero is `true`. -/
def bool : Reader Bool := do
  return (← uint8) != 0

def uint16 : Reader UInt16 := do
  return UInt16.ofNat (← bytes 2).toNat

def uint32 : Reader UInt32 := do
  return UInt32.ofNat (← bytes 4).toNat

def uint64 : Reader UInt64 := do
  return UInt64.ofNat (← bytes 8).toNat

def int32 : Reader Int32 := do
  return (← uint32).toInt32

def int64 : Reader Int64 := do
  return (← uint64).toInt64

/-- A float. Its word is kept as it is. -/
def float32 : Reader Binary32 := do
  return ⟨← uint32⟩

def float64 : Reader Binary64 := do
  return ⟨← uint64⟩

/-- The integer with the given zig-zag code. -/
def unzigzag (code : Nat) : Int :=
  if code % 2 = 0 then (code / 2 : Nat) else -((code / 2 : Nat) : Int) - 1

/-- Seven-bit groups up to the first byte without the high bit. If none of the next `limit` bytes is
one, the number overflows, which is reported at `start`. -/
def sevenBitGroups (start : Nat) : (limit : Nat) → Reader Nat
  | 0 => fail (.varintOverflow start)
  | limit + 1 => do
      let byte ← uint8
      if byte < 128 then
        return byte.toNat
      else
        return byte.toNat - 128 + 128 * (← sevenBitGroups start limit)

/-- A signed 32-bit integer in one to five bytes. Bits above the 32nd are dropped, and a longer form
than needed is accepted. -/
def varint : Reader Int32 := do
  let code ← sevenBitGroups (← position) 5
  return Int32.ofInt (unzigzag (code % 0x100000000))

/-- A string after the number of its bytes. The bytes are taken even if they are not UTF-8. -/
def string : Reader String := do
  let size ← uint32
  let start ← position
  let encoded ← bytes size.toNat
  match String.fromUTF8? ⟨encoded.toArray⟩ with
  | some text => return text
  | none => fail (.invalidUtf8 start)

/-- A byte that stands for something. The error names the byte and where it is. -/
def coded {α : Type} (ofByte? : UInt8 → Option α) (error : UInt8 → Nat → ReadError) :
    Reader α := do
  let offset ← position
  let byte ← uint8
  match ofByte? byte with
  | some value => return value
  | none => fail (error byte offset)

def opcode : Reader Opcode :=
  coded Opcode.ofByte? .invalidOpcode

/-- A number of items. Each item takes at least one byte, so a number above that of the unread bytes
is refused before any item is read. -/
def count : Reader Nat := do
  let number ← uint32
  if (← remaining) < number.toNat then
    fail (.unexpectedEnd (← position))
  else
    return number.toNat

/-- Items after their number. -/
def sequence {α : Type} (item : Reader α) : Reader (List α) := do
  times item (← count)

end Reader

end PropertyWeaver
