import LiveUpdate.Proofs.Truncation

/-!
# A byte that is changed

A step of the division that makes a checksum loses nothing: from the remainder after a byte and
the byte itself, the remainder before it can be found again.  So payloads of which a single byte
differs have different checksums.  A header that is accepted is the one that would be written
for the payload behind it, up to the flags, which nothing vouches for.  Hence a changed byte is
noticed wherever it is, unless it is one of the four bytes of the flags; then the unit is read
with other flags.
-/

set_option autoImplicit false

namespace LiveUpdate

/-! ### The checksum of payloads of which a byte differs -/

namespace Crc32

theorem toNat_shiftRight_one (r : UInt32) : (r >>> 1).toNat = r.toNat / 2 := by
  rw [UInt32.toNat_shiftRight]
  exact Nat.shiftRight_eq_div_pow _ _

theorem and_one_eq_one_iff (r : UInt32) : r &&& 1 = 1 ↔ r.toNat % 2 = 1 := by
  rw [← UInt32.toNat_inj, UInt32.toNat_and]
  exact iff_of_eq (congrArg (· = 1) (Nat.and_one_is_mod _))

/-- A shifted remainder has no highest bit, and the polynomial has one. -/
theorem shifted_xor_ne (r s : UInt32) : (r >>> 1) ^^^ (0xedb88320 : UInt32) ≠ s >>> 1 := by
  intro same
  have small (x : UInt32) : (x >>> 1).toNat < 2 ^ 31 := by
    rw [toNat_shiftRight_one]
    have := x.toNat_lt
    omega
  have poly : (r >>> 1) ^^^ (s >>> 1) = (0xedb88320 : UInt32) := by
    rw [← same, ← UInt32.xor_assoc, UInt32.xor_self, UInt32.zero_xor]
  have less : ((r >>> 1) ^^^ (s >>> 1)).toNat < 2 ^ 31 := by
    rw [UInt32.toNat_xor]
    exact Nat.xor_lt_two_pow (small r) (small s)
  rw [poly] at less
  revert less
  decide

/-- The bit that is shifted out shows in the highest bit afterwards, so nothing is lost. -/
theorem stepBit_injective : Function.Injective stepBit := by
  intro r s same
  have halves (shifted : r >>> 1 = s >>> 1) : r.toNat / 2 = s.toNat / 2 := by
    rw [← toNat_shiftRight_one, ← toNat_shiftRight_one, shifted]
  unfold stepBit at same
  simp only [and_one_eq_one_iff] at same
  rw [← UInt32.toNat_inj]
  by_cases low : r.toNat % 2 = 1 <;> by_cases low' : s.toNat % 2 = 1
  · rw [if_pos low, if_pos low', UInt32.xor_left_inj] at same
    have := halves same
    omega
  · rw [if_pos low, if_neg low'] at same
    exact absurd same (shifted_xor_ne r s)
  · rw [if_neg low, if_pos low'] at same
    exact absurd same.symm (shifted_xor_ne s r)
  · rw [if_neg low, if_neg low'] at same
    have := halves same
    omega

/-- Eight bits later the remainder and the byte are still told, one by the other. -/
theorem stepByte_eq_iff (r s : UInt32) (b c : UInt8) :
    stepByte r b = stepByte s c ↔ r ^^^ b.toUInt32 = s ^^^ c.toUInt32 := by
  have eight : Function.Injective fun x =>
      stepBit (stepBit (stepBit (stepBit (stepBit (stepBit (stepBit (stepBit x))))))) :=
    stepBit_injective.comp <| stepBit_injective.comp <| stepBit_injective.comp <|
      stepBit_injective.comp <| stepBit_injective.comp <| stepBit_injective.comp <|
        stepBit_injective.comp stepBit_injective
  exact eight.eq_iff

theorem run_injective (bytes : List UInt8) : Function.Injective (run · bytes) := by
  induction bytes with
  | nil => exact fun _ _ same => same
  | cons b bytes ih =>
    intro r s same
    have first : stepByte r b = stepByte s b := ih same
    rwa [stepByte_eq_iff, UInt32.xor_left_inj] at first

/-- Byte strings of which a single byte differs have different checksums. -/
theorem checksum_set_ne {bytes : List UInt8} {i : Nat} (lt : i < bytes.length) {b : UInt8}
    (other : b ≠ bytes[i]) : checksum (bytes.set i b) ≠ checksum bytes := by
  intro same
  unfold checksum at same
  rw [UInt32.xor_left_inj] at same
  have split : bytes = bytes.take i ++ bytes[i] :: bytes.drop (i + 1) := by
    rw [List.getElem_cons_drop, List.take_append_drop]
  rw [List.set_eq_take_append_cons_drop, if_pos lt] at same
  conv at same => rhs; rw [split]
  -- before the byte nothing differs, behind it nothing gets lost
  unfold run at same
  rw [List.foldl_append, List.foldl_append, List.foldl_cons, List.foldl_cons] at same
  have there := run_injective (bytes.drop (i + 1)) same
  rw [stepByte_eq_iff, UInt32.xor_right_inj, ← UInt32.toNat_inj, UInt8.toNat_toUInt32,
    UInt8.toNat_toUInt32, UInt8.toNat_inj] at there
  exact other there

end Crc32

/-! ### What an accepted header looks like -/

namespace Decode

/-- The bytes of a number are told by it. -/
theorem littleEndian_littleEndian (bytes : List UInt8) :
    Encode.littleEndian bytes.length (littleEndian bytes) = bytes := by
  induction bytes with
  | nil => rfl
  | cons b bytes ih =>
    have byte := b.toNat_lt
    have low : UInt8.ofNat (b.toNat + 256 * littleEndian bytes) = b := by
      rw [← UInt8.toNat_inj, UInt8.toNat_ofNat']
      omega
    have high : (b.toNat + 256 * littleEndian bytes) / 256 = littleEndian bytes := by omega
    rw [List.length_cons, littleEndian, Encode.littleEndian, low, high, ih]

theorem littleEndian_lt (bytes : List UInt8) : littleEndian bytes < 256 ^ bytes.length := by
  induction bytes with
  | nil => exact Nat.one_pos
  | cons b bytes ih =>
    have byte := b.toNat_lt
    rw [littleEndian, List.length_cons, Nat.pow_succ]
    omega

/-- Any four bytes are those of a number. -/
theorem exists_u32 {bytes : List UInt8} (four : bytes.length = 4) :
    ∃ n : UInt32, Encode.u32 n = bytes := by
  refine ⟨UInt32.ofNat (littleEndian bytes), ?_⟩
  have small := littleEndian_lt bytes
  rw [four] at small
  rw [Encode.u32, toNat_count small, ← four, littleEndian_littleEndian]

/-- A number is read from its own bytes. -/
theorem u32_eq_ok_iff {c c' : Cursor} {n : UInt32} :
    u32 c = .ok n c' ↔ c.rest = Encode.u32 n ++ c'.rest ∧ c'.offset = c.offset + 4 := by
  constructor
  · intro read
    obtain ⟨front, c₁, taken, rest⟩ := decoder_bind_eq_ok.1 read
    cases rest
    obtain ⟨rfl, rfl, enough⟩ := bytes_eq_ok taken
    obtain ⟨n, bytes⟩ := exists_u32 (List.length_take_of_le enough)
    have value := Codes.u32.takes n trivial trivial c.offset (c.rest.drop 4)
    rw [bytes, List.take_append_drop] at value
    obtain rfl : n = _ := by
      have := value.symm.trans read
      injection this
    exact ⟨by rw [bytes, List.take_append_drop], rfl⟩
  · rintro ⟨bytes, at_⟩
    obtain ⟨offset, rest⟩ := c
    obtain ⟨offset', rest'⟩ := c'
    dsimp only at bytes at_
    subst bytes at_
    exact Codes.u32.takes n trivial trivial offset rest'

end Decode

namespace TypeUnit

/-- An accepted header is the one that is written for the payload behind it, with some flags. -/
theorem eq_of_decodeHeader {data : List UInt8} {flags : UInt32} {c : Cursor}
    (read : decodeHeader (.start data) = .ok flags c) {u : TypeUnit} (header : HasHeader flags u) :
    data = u.encodeHeader (payload data) ++ payload data := by
  have whole := decodeHeader_eq_ok read
  obtain ⟨magic, c₁, read₁, read⟩ := decoder_bind_eq_ok.1 read
  obtain ⟨_, c₂, met₁, read⟩ := decoder_bind_eq_ok.1 read
  obtain ⟨version, c₃, read₃, read⟩ := decoder_bind_eq_ok.1 read
  obtain ⟨_, c₄, met₂, read⟩ := decoder_bind_eq_ok.1 read
  obtain ⟨flags', c₅, read₅, read⟩ := decoder_bind_eq_ok.1 read
  obtain ⟨sum, c₆, read₆, read⟩ := decoder_bind_eq_ok.1 read
  obtain ⟨digest, c₇, read₇, read⟩ := decoder_bind_eq_ok.1 read
  obtain ⟨cursor, c₈, read₈, read⟩ := decoder_bind_eq_ok.1 read
  cases read₈
  obtain ⟨_, c₉, met₃, read⟩ := decoder_bind_eq_ok.1 read
  obtain ⟨_, c₁₀, met₄, read⟩ := decoder_bind_eq_ok.1 read
  cases read
  obtain ⟨same₁, rfl⟩ := expect_eq_ok met₁
  obtain ⟨same₂, rfl⟩ := expect_eq_ok met₂
  obtain ⟨same₃, rfl⟩ := expect_eq_ok met₃
  obtain ⟨same₄, rfl⟩ := expect_eq_ok met₄
  -- what was read comes from its own bytes, and the parts stand one behind another
  obtain ⟨bytes₁, -⟩ := Decode.u32_eq_ok_iff.1 (reading_eq_ok read₁)
  obtain ⟨bytes₃, -⟩ := Decode.u32_eq_ok_iff.1 (reading_eq_ok read₃)
  obtain ⟨bytes₅, -⟩ := Decode.u32_eq_ok_iff.1 (reading_eq_ok read₅)
  obtain ⟨bytes₆, -⟩ := Decode.u32_eq_ok_iff.1 (reading_eq_ok read₆)
  obtain ⟨front, rest, -⟩ := Decode.bytes_eq_ok (reading_eq_ok read₇)
  rw [decide_eq_true_eq] at same₁ same₂ same₃ same₄
  have behind : c.rest = payload data := congrArg Cursor.rest whole.1
  have bytes₇ : c₆.rest = digest ++ c.rest := by rw [front, rest, List.take_append_drop]
  obtain ⟨magic', version', rfl⟩ := header
  unfold encodeHeader
  rw [magic', version', ← same₁, ← same₂, ← behind, ← same₃, ← same₄]
  simp only [List.append_assoc]
  rw [← bytes₇, ← bytes₆, ← bytes₅, ← bytes₃, ← bytes₁]
  rfl

/-- Whether a place in the bytes of a unit is one of the four that hold the flags. -/
def IsFlagsPlace (i : Nat) : Prop := 8 ≤ i ∧ i < 12

instance (i : Nat) : Decidable (IsFlagsPlace i) := inferInstanceAs (Decidable (_ ∧ _))

/-- Headers for one payload differ in the flags only. -/
theorem encodeHeader_getElem? {u u' : TypeUnit} {flags flags' : UInt32}
    (header : HasHeader flags u) (header' : HasHeader flags' u') (payload : List UInt8) {i : Nat}
    (outside : ¬ IsFlagsPlace i) :
    (u.encodeHeader payload)[i]? = (u'.encodeHeader payload)[i]? := by
  unfold encodeHeader
  rw [header.1, header.2.1, header'.1, header'.2.1]
  have four (n : UInt32) : (Encode.u32 n).length = 4 := Decode.length_littleEndian _ _
  unfold IsFlagsPlace at outside
  simp only [List.append_assoc, List.getElem?_append, four]
  by_cases early : i - 4 < 4
  · simp only [early, if_true]
  · have late : ¬ i - 4 - 4 < 4 := by omega
    simp only [late, if_false]

/-- Bytes that agree from the checksum on have the same checksum. -/
theorem checksum_eq_of_drop (u u' : TypeUnit) {payload payload' rest rest' : List UInt8}
    (same : (u.encodeHeader payload ++ rest).drop 12 =
      (u'.encodeHeader payload' ++ rest').drop 12) :
    Crc32.checksum payload = Crc32.checksum payload' := by
  have behind (u : TypeUnit) (payload rest : List UInt8) :
      (u.encodeHeader payload ++ rest).drop 12 =
        Encode.u32 (Crc32.checksum payload) ++ (Sha256.digest payload ++ rest) := by
    have three :
        (Encode.u32 u.magic ++ Encode.u32 u.version ++ Encode.u32 u.flags).length = 12 := by
      simp [Encode.u32, Decode.length_littleEndian]
    unfold encodeHeader
    rw [List.append_assoc, List.append_assoc, List.drop_left' three]
  rw [behind, behind] at same
  exact (Codes.u32.eq_of_append_eq trivial trivial same).1

/-- The bytes with one changed that a unit is read from differ from those of the unit that was
written in the flags at most. -/
theorem isFlagsPlace_of_decode {u u' : TypeUnit} (header : HasHeader u.flags u) {i : Nat}
    (lt : i < u.encode.length) {b : UInt8} (other : b ≠ u.encode[i])
    (decoded : decode (u.encode.set i b) = .ok u') : IsFlagsPlace i := by
  obtain ⟨read, -⟩ := decode_eq_ok_iff.1 decoded
  have written := eq_of_decodeHeader read (encodable_of_decode decoded).1
  by_contra outside
  have length := length_encodeHeader u u.encodePayload
  rcases Nat.lt_or_ge i headerLength with inside | behind
  · -- the payload is the same, so the header that belongs to it is too
    have same : payload (u.encode.set i b) = u.encodePayload := by
      rw [← payload_encode]
      exact List.drop_set_of_lt inside
    rw [same] at written
    have changed : (u'.encodeHeader u.encodePayload)[i]? = some b := by
      have there := List.getElem?_set_self (a := b) lt
      rwa [written, List.getElem?_append_left (by rwa [length_encodeHeader])] at there
    rw [← encodeHeader_getElem? header (encodable_of_decode decoded).1 _ outside] at changed
    have before : u.encode[i]? = some b := by
      rw [encode, List.getElem?_append_left (by rwa [length]), changed]
    rw [List.getElem?_eq_getElem lt, Option.some.injEq] at before
    exact other before.symm
  · -- the header is the same, but the payload has another checksum
    obtain ⟨j, rfl⟩ := Nat.exists_eq_add_of_le behind
    have changed : payload (u.encode.set (headerLength + j) b) = u.encodePayload.set j b := by
      rw [← payload_encode, payload, payload, List.drop_set, if_neg behind.not_gt,
        Nat.add_sub_cancel_left]
    have lt' : j < u.encodePayload.length := by
      rw [encode, List.length_append, length] at lt
      exact Nat.lt_of_add_lt_add_left lt
    have other' : b ≠ u.encodePayload[j] := by
      have there : u.encode[headerLength + j] = u.encodePayload[j] := by
        simp only [encode]
        rw [List.getElem_append_right (by rw [length]; exact behind)]
        simp only [length, Nat.add_sub_cancel_left]
      rwa [there] at other
    rw [changed, encode, List.set_append_right _ _ (by rw [length]; exact behind), length,
      Nat.add_sub_cancel_left] at written
    exact Crc32.checksum_set_ne lt' other' (checksum_eq_of_drop u' u (by rw [← written]))

/-- With a flags byte changed, the bytes are those of the unit with other flags. -/
theorem exists_flags_of_set (u : TypeUnit) {i : Nat} (inside : IsFlagsPlace i)
    (lt : i < u.encode.length) {b : UInt8} (other : b ≠ u.encode[i]) :
    ∃ flags, flags ≠ u.flags ∧ u.encode.set i b = { u with flags }.encode := by
  obtain ⟨j, rfl⟩ := Nat.exists_eq_add_of_le inside.1
  have j_lt : j < 4 := Nat.lt_of_add_lt_add_left inside.2
  have four (n : UInt32) : (Encode.u32 n).length = 4 := Decode.length_littleEndian _ _
  have eight : (Encode.u32 u.magic ++ Encode.u32 u.version).length = 8 := by
    rw [List.length_append, four, four]
  obtain ⟨flags, bytes⟩ := Decode.exists_u32
    (show ((Encode.u32 u.flags).set j b).length = 4 by rw [List.length_set, four])
  have split : u.encode = Encode.u32 u.magic ++ Encode.u32 u.version ++ (Encode.u32 u.flags ++
      (Encode.u32 (Crc32.checksum u.encodePayload) ++ Sha256.digest u.encodePayload ++
        u.encodePayload)) := by
    simp only [encode, encodeHeader, List.append_assoc]
  have changed : u.encode.set (8 + j) b = { u with flags }.encode := by
    rw [split, List.set_append_right _ _ (by rw [eight]; exact inside.1), eight,
      Nat.add_sub_cancel_left, List.set_append_left _ _ (by rwa [four]), ← bytes]
    simp only [encode, encodeHeader, List.append_assoc]
    rfl
  refine ⟨flags, ?_, changed⟩
  rintro rfl
  have there := List.getElem?_set_self (a := b) lt
  rw [changed, List.getElem?_eq_getElem lt, Option.some.injEq] at there
  exact other there.symm

/-- A single changed byte of a unit that is read back from its bytes is noticed exactly where it
is none of the four bytes of the flags.  With one of those changed, the unit is read with other
flags, and everything else is as it was. -/
theorem changed_byte_refused_iff {u : TypeUnit} (decoded : decode u.encode = .ok u) {i : Nat}
    (lt : i < u.encode.length) {b : UInt8} (other : b ≠ u.encode[i]) :
    ((∃ error, decode (u.encode.set i b) = .error error) ↔ ¬ IsFlagsPlace i) ∧
      (IsFlagsPlace i → ∃ flags, flags ≠ u.flags ∧
        decode (u.encode.set i b) = .ok { u with flags }) := by
  obtain ⟨header, fits, -⟩ := encodable_of_decode decoded
  have unnoticed (inside : IsFlagsPlace i) : ∃ flags, flags ≠ u.flags ∧
      decode (u.encode.set i b) = .ok { u with flags } := by
    obtain ⟨flags, changed, bytes⟩ := exists_flags_of_set u inside lt other
    refine ⟨flags, changed, ?_⟩
    rw [bytes]
    exact decode_encode_of ⟨header.1, header.2.1, rfl⟩ { fits with }
  refine ⟨⟨?_, ?_⟩, unnoticed⟩
  · rintro ⟨error, refused⟩ inside
    obtain ⟨flags, -, accepted⟩ := unnoticed inside
    rw [refused] at accepted
    cases accepted
  · intro outside
    cases run : decode (u.encode.set i b) with
    | ok u' => exact absurd (isFlagsPlace_of_decode header lt other run) outside
    | error error => exact ⟨error, rfl⟩

set_option maxRecDepth 100000 in
/-- A byte of the payload is changed, and one of the flags. -/
theorem changed_byte_refused_spaced :
    decode spacedUnit.encode = .ok spacedUnit ∧
      (∃ error, decode (spacedUnit.encode.set 60 0) = .error error) ∧
      ∃ flags, flags ≠ spacedUnit.flags ∧
        decode (spacedUnit.encode.set 8 1) = .ok { spacedUnit with flags } := by
  have read : (decode spacedUnit.encode).toOption = some spacedUnit := by decide +kernel
  have decoded := Exec.ok_of_toOption read
  refine ⟨decoded, ?_, ?_⟩
  · exact (changed_byte_refused_iff decoded (by decide +kernel : 60 < spacedUnit.encode.length)
      (by decide +kernel)).1.2 (by decide)
  · exact (changed_byte_refused_iff decoded (by decide +kernel : 8 < spacedUnit.encode.length)
      (by decide +kernel)).2 (by decide)

set_option maxRecDepth 100000 in
/-- Nothing in a header vouches for the flags. -/
theorem changed_flags_unnoticed :
    ¬ ∀ (u : TypeUnit), decode u.encode = .ok u → ∀ (i : Nat) (lt : i < u.encode.length)
      (b : UInt8), b ≠ u.encode[i] → ∃ error, decode (u.encode.set i b) = .error error := by
  intro noticed
  have read : (decode spacedUnit.encode).toOption = some spacedUnit := by decide +kernel
  have changed : (decode (spacedUnit.encode.set 8 1)).toOption =
      some { spacedUnit with flags := 1 } := by
    decide +kernel
  obtain ⟨error, refused⟩ := noticed spacedUnit (Exec.ok_of_toOption read) 8 (by decide +kernel) 1
    (by decide +kernel)
  rw [Exec.ok_of_toOption changed] at refused
  cases refused

end TypeUnit

end LiveUpdate
