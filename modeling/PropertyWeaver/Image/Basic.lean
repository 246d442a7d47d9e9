import PropertyWeaver.Image.Checksum
import PropertyWeaver.Image.Digest
import PropertyWeaver.Image.Node

/-!
# Module images

An image is a header of 48 bytes and a payload. The header holds the magic bytes, the version, the
flags, and the checksum and the digest of the payload; neither covers the header itself. The payload
holds the name, the reference table and the types, and nothing may follow it.
-/

set_option autoImplicit false

namespace PropertyWeaver

/-- Why an image or a module was refused. -/
inductive ImageError where
  | read (error : ReadError)
  | invalidMagic (magic : Bytes)
  | unsupportedVersion (version : UInt32)
  | checksumMismatch (stored computed : UInt32)
  | digestMismatch
  | trailingBytes (number : Nat)
  | missingAccessor (type property : String) (method : Nat)
  deriving DecidableEq, Repr

def ImageError.message : ImageError → String
  | .read error => "Decode error: " ++ error.message
  | .invalidMagic magic =>
      "Invalid magic number: expected SWMD, got " ++
        Text.bracketed (magic.map fun byte => toString byte.toNat)
  | .unsupportedVersion version =>
      "Unsupported version: " ++ toString version.toNat ++ " (current: " ++
        toString Module.expectedVersion.toNat ++ ")"
  | .checksumMismatch stored computed =>
      "Checksum mismatch: expected " ++ Text.markedHex 0 stored.toNat ++ ", got " ++
        Text.markedHex 0 computed.toNat
  | .digestMismatch => "Content hash mismatch"
  | .trailingBytes number => toString number ++ " trailing bytes after module payload"
  | .missingAccessor type property method =>
      "Malformed module: property " ++ type ++ "." ++ property ++ " refers to missing method " ++
        toString method

namespace TypeDef

/-- The first property, in declaration order, with an accessor beyond the type's methods. -/
def missingAccessor? (type : TypeDef) : Option (PropertyDef × Nat) :=
  type.properties.findSome? fun property =>
    (property.accessors.find? fun method => type.methods.length ≤ method).map (property, ·)

end TypeDef

namespace Module

/-- Checks the magic bytes, the version and the accessors. Nothing else is required of the parts. -/
def validate (module : Module) : Except ImageError Unit :=
  if module.magic ≠ expectedMagic then
    .error (.invalidMagic module.magic)
  else if module.version ≠ expectedVersion then
    .error (.unsupportedVersion module.version)
  else
    let missing := module.types.findSome? fun type =>
      type.missingAccessor?.map fun (property, method) =>
        ImageError.missingAccessor type.fullName property.name method
    match missing with
    | some error => .error error
    | none => .ok ()

def headerSize : Nat := 48

def header (module : Module) (payload : Bytes) : Bytes :=
  module.magic ++ Bytes.uint32 module.version ++ Bytes.uint32 module.flags ++
    Bytes.uint32 (Checksum.crc32 payload) ++ Digest.sha256 payload

/-- The image of a module. The module's own checksum field is not used. -/
def encode (module : Module) : Bytes :=
  module.header module.payload ++ module.payload

/-- What the header of an image says behind the magic bytes and the version. -/
structure Header where
  flags : UInt32
  storedChecksum : UInt32
  digest : Bytes
  deriving DecidableEq, Repr

def runReader {α : Type} (reader : Reader α) (cursor : Cursor) : Except ImageError (α × Cursor) :=
  match reader cursor with
  | .ok value rest => .ok (value, rest)
  | .error error _ => .error (.read error)

/-- Reads the header up to the payload. The magic bytes and the version are checked as soon as they
are read. -/
def readHeader (cursor : Cursor) : Except ImageError (Header × Cursor) := do
  let (magic, cursor) ← runReader (Reader.bytes 4) cursor
  if magic ≠ expectedMagic then
    throw (.invalidMagic magic)
  let (version, cursor) ← runReader Reader.uint32 cursor
  if version ≠ expectedVersion then
    throw (.unsupportedVersion version)
  let (flags, cursor) ← runReader Reader.uint32 cursor
  let (storedChecksum, cursor) ← runReader Reader.uint32 cursor
  let (digest, cursor) ← runReader (Reader.bytes 32) cursor
  return (⟨flags, storedChecksum, digest⟩, cursor)

/-- Reads a whole image. The checksum and the digest are compared before the payload is read, the
end of the payload after it, and the structure last. -/
def decode (image : Bytes) : Except ImageError Module := do
  let (header, cursor) ← readHeader (Cursor.start image)
  let computed := Checksum.crc32 cursor.unread
  if header.storedChecksum ≠ computed then
    throw (.checksumMismatch header.storedChecksum computed)
  if Digest.sha256 cursor.unread ≠ header.digest then
    throw .digestMismatch
  let ((name, references, types), cursor) ← runReader readPayload cursor
  if !cursor.unread.isEmpty then
    throw (.trailingBytes cursor.unread.length)
  let module : Module :=
    { magic := expectedMagic
      version := expectedVersion
      flags := header.flags
      name := name
      references := references
      types := types
      checksum := header.digest }
  module.validate
  return module

end Module

end PropertyWeaver
