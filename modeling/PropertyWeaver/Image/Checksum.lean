import PropertyWeaver.Image.Bytes

/-!
# Cyclic redundancy check

The 32-bit checksum over the reflected polynomial `0xEDB88320`, with initial value and final mask of
all ones.
-/

set_option autoImplicit false

namespace PropertyWeaver.Checksum

/-- The polynomial, its lowest power in the highest bit. -/
def polynomial : UInt32 := 0xEDB88320

def shift (remainder : UInt32) : UInt32 :=
  if remainder &&& 1 = 1 then (remainder >>> 1) ^^^ polynomial else remainder >>> 1

def step (remainder : UInt32) (byte : UInt8) : UInt32 :=
  Nat.repeat shift 8 (remainder ^^^ byte.toUInt32)

def crc32 (bytes : Bytes) : UInt32 :=
  bytes.foldl step 0xFFFFFFFF ^^^ 0xFFFFFFFF

end PropertyWeaver.Checksum
