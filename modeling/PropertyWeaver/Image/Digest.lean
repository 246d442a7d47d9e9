import PropertyWeaver.Image.Bytes

/-!
# SHA-256

The digest of a byte string: 32 bytes from eight words, folded over blocks of 64 bytes.
-/

set_option autoImplicit false

namespace PropertyWeaver.Digest

structure State where
  a : UInt32
  b : UInt32
  c : UInt32
  d : UInt32
  e : UInt32
  f : UInt32
  g : UInt32
  h : UInt32
  deriving DecidableEq, Repr

def State.initial : State :=
  ⟨0x6A09E667, 0xBB67AE85, 0x3C6EF372, 0xA54FF53A, 0x510E527F, 0x9B05688C, 0x1F83D9AB, 0x5BE0CD19⟩

def State.add (left right : State) : State :=
  ⟨left.a + right.a, left.b + right.b, left.c + right.c, left.d + right.d,
   left.e + right.e, left.f + right.f, left.g + right.g, left.h + right.h⟩

def roundConstants : List UInt32 :=
  [0x428A2F98, 0x71374491, 0xB5C0FBCF, 0xE9B5DBA5, 0x3956C25B, 0x59F111F1, 0x923F82A4, 0xAB1C5ED5,
   0xD807AA98, 0x12835B01, 0x243185BE, 0x550C7DC3, 0x72BE5D74, 0x80DEB1FE, 0x9BDC06A7, 0xC19BF174,
   0xE49B69C1, 0xEFBE4786, 0x0FC19DC6, 0x240CA1CC, 0x2DE92C6F, 0x4A7484AA, 0x5CB0A9DC, 0x76F988DA,
   0x983E5152, 0xA831C66D, 0xB00327C8, 0xBF597FC7, 0xC6E00BF3, 0xD5A79147, 0x06CA6351, 0x14292967,
   0x27B70A85, 0x2E1B2138, 0x4D2C6DFC, 0x53380D13, 0x650A7354, 0x766A0ABB, 0x81C2C92E, 0x92722C85,
   0xA2BFE8A1, 0xA81A664B, 0xC24B8B70, 0xC76C51A3, 0xD192E819, 0xD6990624, 0xF40E3585, 0x106AA070,
   0x19A4C116, 0x1E376C08, 0x2748774C, 0x34B0BCB5, 0x391C0CB3, 0x4ED8AA4A, 0x5B9CCA4F, 0x682E6FF3,
   0x748F82EE, 0x78A5636F, 0x84C87814, 0x8CC70208, 0x90BEFFFA, 0xA4506CEB, 0xBEF9A3F7, 0xC67178F2]

def rotateRight (word amount : UInt32) : UInt32 :=
  (word >>> amount) ||| (word <<< (32 - amount))

/-- The word that follows a window of sixteen words of the message schedule. -/
def nextWord (window : List UInt32) : UInt32 :=
  let at_ (index : Nat) := window[index]?.getD 0
  let early := rotateRight (at_ 1) 7 ^^^ rotateRight (at_ 1) 18 ^^^ (at_ 1 >>> 3)
  let late := rotateRight (at_ 14) 17 ^^^ rotateRight (at_ 14) 19 ^^^ (at_ 14 >>> 10)
  at_ 0 + early + at_ 9 + late

/-- One round: mixes the first word of the window and a constant into the state. -/
def round (state : State) (word constant : UInt32) : State :=
  let high := rotateRight state.e 6 ^^^ rotateRight state.e 11 ^^^ rotateRight state.e 25
  let choice := (state.e &&& state.f) ^^^ ((state.e ^^^ 0xFFFFFFFF) &&& state.g)
  let first := state.h + high + choice + constant + word
  let low := rotateRight state.a 2 ^^^ rotateRight state.a 13 ^^^ rotateRight state.a 22
  let majority := (state.a &&& state.b) ^^^ (state.a &&& state.c) ^^^ (state.b &&& state.c)
  ⟨first + (low + majority), state.a, state.b, state.c, state.d + first, state.e, state.f, state.g⟩

/-- All rounds, with the window moving one word along the schedule after each. -/
def rounds (state : State) (window : List UInt32) : State :=
  (roundConstants.foldl
    (fun (state, window) constant =>
      (round state (window.headD 0) constant, window.drop 1 ++ [nextWord window]))
    (state, window)).1

def bigEndian (word : UInt32) : Bytes :=
  (Bytes.uint32 word).reverse

/-- The words that a number of groups of four bytes spell, the most significant byte first. -/
def words : (number : Nat) → Bytes → List UInt32
  | 0, _ => []
  | number + 1, bytes =>
      UInt32.ofNat (Bytes.toNat (bytes.take 4).reverse) :: words number (bytes.drop 4)

/-- Takes a number of blocks into the state. -/
def blocks : (number : Nat) → Bytes → State → State
  | 0, _, state => state
  | number + 1, bytes, state =>
      blocks number (bytes.drop 64) (state.add (rounds state (words 16 bytes)))

/-- The message with its padding: a one bit, zeros up to the last eight bytes of a block, and the
number of bits. -/
def padded (bytes : Bytes) : Bytes :=
  let size := bytes.length
  let zeros := (119 - size % 64) % 64
  bytes ++ 0x80 :: List.replicate zeros 0 ++ (Bytes.littleEndian 8 (8 * size)).reverse

def sha256 (bytes : Bytes) : Bytes :=
  let message := padded bytes
  let state := blocks (message.length / 64) message State.initial
  bigEndian state.a ++ bigEndian state.b ++ bigEndian state.c ++ bigEndian state.d ++
    bigEndian state.e ++ bigEndian state.f ++ bigEndian state.g ++ bigEndian state.h

end PropertyWeaver.Digest
