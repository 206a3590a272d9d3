import LiveUpdate.Digest.Crc32
import LiveUpdate.Digest.Sha256
import LiveUpdate.Instruction.Codec
import LiveUpdate.Unit.Basic

/-!
# Units in binary

A unit is a header of 48 bytes and a payload.  The header holds the magic number, the
version, the flags, the checksum of the payload and its digest; the payload holds the
type, its fields and its methods.  Reading checks the header against the payload before
it looks at the payload, and accepts nothing after the last method.
-/

set_option autoImplicit false

namespace LiveUpdate

/-- Why bytes are not a unit. -/
inductive UnitError
  | decode (error : DecodeError)
  | invalidMagic (found : UInt32)
  | unsupportedVersion (found : UInt32)
  | checksumMismatch (stored computed : UInt32)
  | digestMismatch (stored computed : List UInt8)
  /-- Bytes are left after the last method. -/
  | trailingData (count : Nat)
deriving DecidableEq, Inhabited

/-- The report of a unit error. -/
def UnitError.message : UnitError → String
  | .decode e => "Decode error: " ++ e.message
  | .invalidMagic found =>
    let bytes := (Encode.u32 found).map fun b => toString b.toNat
    "Invalid magic number: expected RVIV, got [" ++ ", ".intercalate bytes ++ "]"
  | .unsupportedVersion found =>
    s!"Unsupported version: {found.toNat} (current: {TypeUnit.currentVersion.toNat})"
  | .checksumMismatch stored computed =>
    s!"Checksum mismatch: expected 0x{hexNumber stored.toNat}, got 0x{hexNumber computed.toNat}"
  | .digestMismatch stored computed =>
    s!"SHA-256 mismatch: stored {hexBytes stored}, computed {hexBytes computed}"
  | .trailingData count => s!"Trailing data: {count} bytes after end of unit"

namespace FieldDef

/-- A field in binary. -/
def encode (f : FieldDef) : List UInt8 :=
  Encode.string f.name ++ Encode.string f.sig.text ++ Encode.u32 f.modifiers.bits ++
    Encode.optString f.generic ++ Annotation.encodeList f.annotations

/-- Read a field. -/
def decode : Decoder FieldDef := do
  let name ← Decode.string
  let sig ← Decode.parsed TypeSig.parse
  let bits ← Decode.u32
  let generic ← Decode.optString
  let annotations ← Annotation.decodeList
  return { name, sig, modifiers := ⟨bits⟩, generic, annotations }

end FieldDef

namespace MethodDef

/-- A method in binary. -/
def encode (m : MethodDef) : List UInt8 :=
  Encode.string m.name ++ Encode.string m.sig.text ++ Encode.u32 m.modifiers.bits ++
    Annotation.encodeList m.annotations ++ Encode.strings m.throws ++
    Encode.u16 m.maxLocals ++ Encode.list Instr.encode m.code

/-- Read a method. -/
def decode : Decoder MethodDef := do
  let name ← Decode.string
  let sig ← Decode.parsed MethodSig.parse
  let bits ← Decode.u32
  let annotations ← Annotation.decodeList
  let throws ← Decode.strings
  let maxLocals ← Decode.u16
  let code ← Decode.list Instr.decode
  return { name, sig, modifiers := ⟨bits⟩, annotations, throws, maxLocals, code }

/-- The body in binary, without its length: what two versions of a body are compared by. -/
def codeBytes (m : MethodDef) : List UInt8 := Instr.encodeAll m.code

end MethodDef

namespace TypeUnit

/-- The length of the header. -/
def headerLength : Nat := 48

/-- The type, its fields and its methods. -/
def encodePayload (u : TypeUnit) : List UInt8 :=
  Encode.string u.name ++ Encode.optString u.superName ++ Encode.strings u.interfaces ++
    Encode.u32 u.modifiers.bits ++ Annotation.encodeList u.annotations ++
    Encode.optString u.sourceFile ++ Encode.list FieldDef.encode u.fields ++
    Encode.list MethodDef.encode u.methods

/-- The header in front of a payload. -/
def encodeHeader (u : TypeUnit) (payload : List UInt8) : List UInt8 :=
  Encode.u32 u.magic ++ Encode.u32 u.version ++ Encode.u32 u.flags ++
    Encode.u32 (Crc32.checksum payload) ++ Sha256.digest payload

/-- The unit in binary. -/
def encode (u : TypeUnit) : List UInt8 :=
  let payload := u.encodePayload
  u.encodeHeader payload ++ payload

/-- Readers of units. -/
abbrev UnitDecoder := EStateM UnitError Cursor

/-- A reader of plain data as a reader of units. -/
def reading {α : Type} (x : Decoder α) : UnitDecoder α := fun cursor =>
  match x cursor with
  | .ok a cursor => .ok a cursor
  | .error e cursor => .error (.decode e) cursor

/-- Refuse the unit unless a condition holds. -/
def expect (condition : Bool) (error : UnitError) : UnitDecoder Unit := fun cursor =>
  if condition then .ok () cursor else .error error cursor

/-- Read the header and check it against the payload behind it; the flags are the only
part of it that is free. -/
def decodeHeader : UnitDecoder UInt32 := do
  let magic ← reading Decode.u32
  expect (magic = currentMagic) (.invalidMagic magic)
  let version ← reading Decode.u32
  expect (version = currentVersion) (.unsupportedVersion version)
  let flags ← reading Decode.u32
  let storedSum ← reading Decode.u32
  let storedDigest ← reading (Decode.bytes 32)
  let payload := (← get).rest
  let sum := Crc32.checksum payload
  expect (storedSum = sum) (.checksumMismatch storedSum sum)
  let digest := Sha256.digest payload
  expect (storedDigest = digest) (.digestMismatch storedDigest digest)
  return flags

/-- Read the payload of a unit with given flags. -/
def decodePayload (flags : UInt32) : Decoder TypeUnit := do
  let name ← Decode.string
  let superName ← Decode.optString
  let interfaces ← Decode.strings
  let bits ← Decode.u32
  let annotations ← Annotation.decodeList
  let sourceFile ← Decode.optString
  let fields ← Decode.list FieldDef.decode
  let methods ← Decode.list MethodDef.decode
  return { magic := currentMagic, version := currentVersion, flags, name, superName, interfaces,
           modifiers := ⟨bits⟩, annotations, sourceFile, fields, methods }

/-- Read a whole unit: header, payload, and nothing behind it. -/
def decoder : UnitDecoder TypeUnit := do
  let flags ← decodeHeader
  let u ← reading (decodePayload flags)
  let left := (← get).rest.length
  expect (left = 0) (.trailingData left)
  return u

/-- The unit with these bytes. -/
def decode (data : List UInt8) : Except UnitError TypeUnit :=
  match decoder (Cursor.start data) with
  | .ok u _ => .ok u
  | .error e _ => .error e

/-- The digest that the header of an encoded unit stores. -/
def storedDigest? (data : List UInt8) : Option (List UInt8) :=
  if headerLength ≤ data.length then some ((data.drop 16).take 32) else none

end TypeUnit

end LiveUpdate
