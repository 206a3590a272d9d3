import LiveUpdate.Proofs.InstructionCoding
import LiveUpdate.Unit.Codec

/-!
# Units that are read back

The reader of units takes back a unit exactly when it has the current magic number and
version, its strings are short enough and its lists are too, and its signatures are well
formed.  A unit that was read is such a unit, whatever its bytes were, and writing it
again takes no more bytes.
-/

set_option autoImplicit false

namespace LiveUpdate

open Codes

theorem Modifiers.eq_mk (m : Modifiers) (bits : UInt32) : m = ⟨bits⟩ ↔ m.bits = bits :=
  ⟨congrArg Modifiers.bits, fun same => congrArg Modifiers.mk same⟩

namespace Annotation

/-- An element that can be written and read back. -/
def EncodableElement (e : String × String) : Prop := ShortString e.1 ∧ ShortString e.2

/-- An annotation that can be written and read back. -/
structure Encodable (a : Annotation) : Prop where
  typeName : ShortString a.typeName
  elements : ShortList EncodableElement a.elements

theorem codes_element : Codes decodeElement encodeElement Any EncodableElement :=
  string.map₂ Prod.mk string (fun e => iff_of_true trivial ⟨e.1, e.2, trivial, rfl⟩)
    (fun _ _ => rfl) fun _ _ => .rfl

theorem codes : Codes decode encode Any Encodable :=
  string.map₂ Annotation.mk codes_element.list
    (fun a => iff_of_true trivial ⟨a.typeName, a.elements, trivial, rfl⟩) (fun _ _ => rfl)
    fun _ _ => ⟨fun h => ⟨h.typeName, h.elements⟩, fun ⟨typeName, elements⟩ => ⟨typeName, elements⟩⟩

theorem codes_list : Codes decodeList encodeList Any (ShortList Encodable) := codes.list

end Annotation

namespace FieldDef

/-- A field that can be written and read back. -/
structure Encodable (f : FieldDef) : Prop where
  name : ShortString f.name
  sig : f.sig.Encodable
  generic : ShortOption f.generic
  annotations : ShortList Annotation.Encodable f.annotations

theorem codes : Codes decode encode Any Encodable := by
  have record : Codes decode _ Any _ :=
    part FieldDef.name string fun name =>
    part FieldDef.sig TypeSig.codes fun sig =>
    part (fun f => f.modifiers.bits) u32 fun bits =>
    part FieldDef.generic optString fun generic =>
    part FieldDef.annotations Annotation.codes_list fun annotations =>
    finish fun f => by cases f; simp [Any, and_assoc, Modifiers.eq_mk]
  refine record.congr (fun f => by simp [encode]) (fun _ => .rfl) fun f => ?_
  constructor
  · intro h
    exact ⟨h.name, h.sig, trivial, h.generic, h.annotations, trivial⟩
  · rintro ⟨name, sig, -, generic, annotations, -⟩
    exact ⟨name, sig, generic, annotations⟩

end FieldDef

namespace MethodDef

/-- A method that can be written and read back. -/
structure Encodable (m : MethodDef) : Prop where
  name : ShortString m.name
  sig : m.sig.Encodable
  annotations : ShortList Annotation.Encodable m.annotations
  throws : ShortList ShortString m.throws
  code : ShortList Instr.Encodable m.code

theorem codes : Codes decode encode Any Encodable := by
  have record : Codes decode _ Any _ :=
    part MethodDef.name string fun name =>
    part MethodDef.sig MethodSig.codes fun sig =>
    part (fun m => m.modifiers.bits) u32 fun bits =>
    part MethodDef.annotations Annotation.codes_list fun annotations =>
    part MethodDef.throws strings fun throws =>
    part MethodDef.maxLocals u16 fun maxLocals =>
    part MethodDef.code Instr.codes.list fun code =>
    finish fun m => by cases m; simp [Any, and_assoc, Modifiers.eq_mk]
  refine record.congr (fun m => by simp [encode]) (fun _ => .rfl) fun m => ?_
  constructor
  · intro h
    exact ⟨h.name, h.sig, trivial, h.annotations, h.throws, trivial, h.code, trivial⟩
  · rintro ⟨name, sig, -, annotations, throws, -, code, -⟩
    exact ⟨name, sig, annotations, throws, code⟩

end MethodDef

theorem Sha256.length_bigEndian (count n : Nat) : (bigEndian count n).length = count := by
  induction count generalizing n with
  | zero => rfl
  | succ count ih => rw [bigEndian, List.length_append, ih, List.length_singleton]

theorem Sha256.length_digest (bytes : List UInt8) : (digest bytes).length = 32 := by
  unfold digest State.bytes
  simp [length_bigEndian]

namespace TypeUnit

/-- A unit whose strings, lists and signatures can be written and read back. -/
structure Encodable (u : TypeUnit) : Prop where
  name : ShortString u.name
  superName : ShortOption u.superName
  interfaces : ShortList ShortString u.interfaces
  annotations : ShortList Annotation.Encodable u.annotations
  sourceFile : ShortOption u.sourceFile
  fields : ShortList FieldDef.Encodable u.fields
  methods : ShortList MethodDef.Encodable u.methods

/-- What a header says that is not about the payload. -/
def HasHeader (flags : UInt32) (u : TypeUnit) : Prop :=
  u.magic = currentMagic ∧ u.version = currentVersion ∧ u.flags = flags

/-- The part of a unit behind the header. -/
theorem codes_payload (flags : UInt32) :
    Codes (decodePayload flags) encodePayload (HasHeader flags) Encodable := by
  have record : Codes (decodePayload flags) _ (HasHeader flags) _ :=
    part TypeUnit.name string fun name =>
    part TypeUnit.superName optString fun superName =>
    part TypeUnit.interfaces strings fun interfaces =>
    part (fun u => u.modifiers.bits) u32 fun bits =>
    part TypeUnit.annotations Annotation.codes_list fun annotations =>
    part TypeUnit.sourceFile optString fun sourceFile =>
    part TypeUnit.fields FieldDef.codes.list fun fields =>
    part TypeUnit.methods MethodDef.codes.list fun methods =>
    finish fun u => by cases u; simp [HasHeader, and_assoc, Modifiers.eq_mk]
  refine record.congr (fun u => by simp [encodePayload]) (fun _ => .rfl) fun u => ?_
  constructor
  · intro h
    exact ⟨h.name, h.superName, h.interfaces, trivial, h.annotations, h.sourceFile, h.fields,
      h.methods, trivial⟩
  · rintro ⟨name, superName, interfaces, -, annotations, sourceFile, fields, methods, -⟩
    exact ⟨name, superName, interfaces, annotations, sourceFile, fields, methods⟩

theorem reading_of_ok {α : Type} {x : Decoder α} {c c' : Cursor} {a : α} (read : x c = .ok a c') :
    reading x c = .ok a c' := by
  unfold reading
  rw [read]

theorem expect_of_true {condition : Bool} (met : condition = true) (error : UnitError)
    (c : Cursor) : expect condition error c = .ok () c := by
  unfold expect
  rw [met]
  rfl

theorem length_encodeHeader (u : TypeUnit) (payload : List UInt8) :
    (u.encodeHeader payload).length = headerLength := by
  simp [encodeHeader, Encode.u32, Decode.length_littleEndian, Sha256.length_digest, headerLength]

/-- The header that is written for a payload is accepted in front of it. -/
theorem decodeHeader_encodeHeader {u : TypeUnit} (magic : u.magic = currentMagic)
    (version : u.version = currentVersion) (payload : List UInt8) :
    decodeHeader (.start (u.encodeHeader payload ++ payload)) =
      .ok u.flags ⟨headerLength, payload⟩ := by
  have number (n : UInt32) (offset : Nat) (rest : List UInt8) :
      reading Decode.u32 ⟨offset, Encode.u32 n ++ rest⟩ = .ok n ⟨offset + 4, rest⟩ :=
    reading_of_ok (u32.takes n trivial trivial offset rest)
  unfold decodeHeader encodeHeader Cursor.start
  simp only [List.append_assoc]
  rw [decoder_bind_of_ok (number _ _ _),
    decoder_bind_of_ok (expect_of_true (decide_eq_true magic) _ _),
    decoder_bind_of_ok (number _ _ _),
    decoder_bind_of_ok (expect_of_true (decide_eq_true version) _ _),
    decoder_bind_of_ok (number _ _ _), decoder_bind_of_ok (number _ _ _),
    decoder_bind_of_ok (reading_of_ok (Decode.bytes_append (Sha256.length_digest _) _ _))]
  refine (decoder_bind_of_ok (show (get : UnitDecoder Cursor) _ = .ok _ _ from rfl)).trans ?_
  rw [decoder_bind_of_ok (expect_of_true (decide_eq_true rfl) _ _),
    decoder_bind_of_ok (expect_of_true (decide_eq_true rfl) _ _)]
  rfl

/-- A unit comes back from its bytes if the reader of payloads takes its payload. -/
theorem decode_encode_of {u : TypeUnit} (header : HasHeader u.flags u) (fits : u.Encodable) :
    decode u.encode = .ok u := by
  have payload := (codes_payload u.flags).takes u header fits headerLength []
  rw [List.append_nil] at payload
  have whole : decoder (.start u.encode) =
      .ok u ⟨headerLength + u.encodePayload.length, []⟩ := by
    unfold decoder encode
    rw [decoder_bind_of_ok (decodeHeader_encodeHeader header.1 header.2.1 u.encodePayload),
      decoder_bind_of_ok (reading_of_ok payload)]
    rfl
  unfold decode
  rw [whole]

/-- What the bytes of a unit are read as can be written and read back, and is written in no
more bytes. -/
theorem encodable_of_decode {data : List UInt8} {u : TypeUnit} (decoded : decode data = .ok u) :
    HasHeader u.flags u ∧ u.Encodable ∧ u.encode.length ≤ data.length := by
  obtain ⟨⟨flags, c, read⟩, digest⟩ := decode_eq_ok decoded
  obtain ⟨header, fits, taken⟩ := (codes_payload flags).gives read
  have long : headerLength ≤ data.length := by
    unfold storedDigest? at digest
    split at digest
    · assumption
    · cases digest
  refine ⟨⟨header.1, header.2.1, rfl⟩, fits, ?_⟩
  rw [encode, List.length_append, length_encodeHeader]
  unfold payload at taken
  rw [List.length_drop] at taken
  omega

/-- A unit is read back as it was written, instruction for instruction and bit for bit, if
and only if it has the current magic number and version and all in it fits the format. -/
theorem decode_encode_iff (u : TypeUnit) :
    decode u.encode = .ok u ↔
      u.magic = currentMagic ∧ u.version = currentVersion ∧ u.Encodable := by
  constructor
  · intro decoded
    obtain ⟨header, fits, -⟩ := encodable_of_decode decoded
    exact ⟨header.1, header.2.1, fits⟩
  · rintro ⟨magic, version, fits⟩
    exact decode_encode_of ⟨magic, version, rfl⟩ fits

/-- A unit that was read from any bytes is read back from its own, which are no more than
those were. -/
theorem decode_encode_of_decode {data : List UInt8} {u : TypeUnit}
    (decoded : decode data = .ok u) :
    decode u.encode = .ok u ∧ u.encode.length ≤ data.length := by
  obtain ⟨header, fits, short⟩ := encodable_of_decode decoded
  exact ⟨decode_encode_of header fits, short⟩

/-- Bytes that are not written for any unit: they have blanks in a signature and a presence
byte that is two. -/
def spaced : List UInt8 :=
  let payload := Encode.string "a.A" ++ (2 :: Encode.string "a.B") ++ Encode.count 0 ++
    Encode.u32 1 ++ Encode.count 0 ++ [0] ++ Encode.count 0 ++ Encode.count 1 ++
    Encode.string "f" ++ Encode.string " ( i64 , a.B [] )-> void " ++ Encode.u32 1 ++
    Encode.count 0 ++ Encode.count 0 ++ Encode.u16 3 ++ Encode.count 1 ++ Instr.ret.encode
  Encode.u32 currentMagic ++ Encode.u32 currentVersion ++ Encode.u32 7 ++
    Encode.u32 (Crc32.checksum payload) ++ Sha256.digest payload ++ payload

/-- What they are read as. -/
def spacedUnit : TypeUnit :=
  { named "a.A" with
    flags := 7
    superName := some "a.B"
    methods := [⟨"f", ⟨[.int, .array (.ref "a.B")], .void⟩, .publicBit, [], [], 3, [.ret]⟩] }

set_option maxRecDepth 100000 in
theorem decode_encode_spaced :
    decode spaced = .ok spacedUnit ∧ decode spacedUnit.encode = .ok spacedUnit ∧
      spacedUnit.encode.length ≤ spaced.length := by
  have read : (decode spaced).toOption = some spacedUnit := by decide +kernel
  have decoded := Exec.ok_of_toOption read
  exact ⟨decoded, decode_encode_of_decode decoded⟩

end TypeUnit

end LiveUpdate
