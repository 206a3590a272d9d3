import LiveUpdate.Unit.Codec

/-!
# Digests of units

The header of a unit stores the digest of everything behind it, and decoding checks it.
Units with one payload have the same methods; so do units with one digest, unless two
payloads have it.
-/

set_option autoImplicit false

namespace LiveUpdate

/-- A reading that is put together from two has both. -/
theorem decoder_bind_eq_ok {ε α β : Type} {x : EStateM ε Cursor α} {f : α → EStateM ε Cursor β}
    {c c'' : Cursor} {b : β} :
    (x >>= f) c = .ok b c'' ↔ ∃ a c', x c = .ok a c' ∧ f a c' = .ok b c'' := by
  show EStateM.bind x f c = _ ↔ _
  unfold EStateM.bind
  cases x c with
  | ok a c' => exact ⟨fun h => ⟨a, c', rfl, h⟩, fun ⟨_, _, same, h⟩ => by cases same; exact h⟩
  | error error c' => exact ⟨fun h => (nomatch h), fun ⟨_, _, same, _⟩ => nomatch same⟩

namespace Decode

/-- Taking bytes takes the front of the unread ones. -/
theorem splitExactly_eq_some {n : Nat} {bytes front rest : List UInt8}
    (split : splitExactly n bytes = some (front, rest)) :
    front = bytes.take n ∧ rest = bytes.drop n ∧ n ≤ bytes.length := by
  induction n generalizing bytes front with
  | zero =>
    cases split
    exact ⟨rfl, rfl, Nat.zero_le _⟩
  | succ n ih =>
    cases bytes with
    | nil => cases split
    | cons b bytes =>
      unfold splitExactly at split
      cases inner : splitExactly n bytes with
      | none =>
        rw [inner] at split
        cases split
      | some pair =>
        rw [inner] at split
        cases split
        obtain ⟨front', rest', enough⟩ := ih inner
        exact ⟨congrArg (b :: ·) front', rest', Nat.succ_le_succ enough⟩

theorem bytes_eq_ok {n : Nat} {c c' : Cursor} {front : List UInt8}
    (read : bytes n c = .ok front c') :
    front = c.rest.take n ∧ c' = ⟨c.offset + n, c.rest.drop n⟩ ∧ n ≤ c.rest.length := by
  unfold bytes at read
  cases split : splitExactly n c.rest with
  | none =>
    rw [split] at read
    cases read
  | some pair =>
    rw [split] at read
    cases read
    obtain ⟨front', rest', enough⟩ := splitExactly_eq_some split
    rw [front', rest']
    exact ⟨rfl, rfl, enough⟩

theorem u32_eq_ok {c c' : Cursor} {x : UInt32} (read : u32 c = .ok x c') :
    c' = ⟨c.offset + 4, c.rest.drop 4⟩ := by
  obtain ⟨front, c₁, read₁, rest⟩ := decoder_bind_eq_ok.1 read
  cases rest
  exact (bytes_eq_ok read₁).2.1

end Decode

namespace TypeUnit

theorem reading_eq_ok {α : Type} {x : Decoder α} {c c' : Cursor} {a : α}
    (read : reading x c = .ok a c') : x c = .ok a c' := by
  unfold reading at read
  cases run : x c with
  | ok a' c₁ =>
    rw [run] at read
    cases read
    rfl
  | error error c₁ =>
    rw [run] at read
    cases read

theorem expect_eq_ok {condition : Bool} {error : UnitError} {c c' : Cursor} {done : Unit}
    (met : expect condition error c = .ok done c') : condition = true ∧ c' = c := by
  unfold expect at met
  cases condition with
  | true =>
    cases met
    exact ⟨rfl, rfl⟩
  | false => cases met

/-- The bytes behind the header of a unit. -/
def payload (data : List UInt8) : List UInt8 := data.drop headerLength

/-- A header is complete, is followed by the payload and stores the digest of it. -/
theorem decodeHeader_eq_ok {data : List UInt8} {flags : UInt32} {c : Cursor}
    (read : decodeHeader (.start data) = .ok flags c) :
    c = ⟨headerLength, payload data⟩ ∧ storedDigest? data = some (Sha256.digest (payload data)) := by
  obtain ⟨magic, c₁, read₁, read⟩ := decoder_bind_eq_ok.1 read
  have at₁ := Decode.u32_eq_ok (reading_eq_ok read₁)
  obtain ⟨_, c₂, met, read⟩ := decoder_bind_eq_ok.1 read
  have at₂ := (expect_eq_ok met).2
  obtain ⟨version, c₃, read₃, read⟩ := decoder_bind_eq_ok.1 read
  have at₃ := Decode.u32_eq_ok (reading_eq_ok read₃)
  obtain ⟨_, c₄, met, read⟩ := decoder_bind_eq_ok.1 read
  have at₄ := (expect_eq_ok met).2
  obtain ⟨flags', c₅, read₅, read⟩ := decoder_bind_eq_ok.1 read
  have at₅ := Decode.u32_eq_ok (reading_eq_ok read₅)
  obtain ⟨sum, c₆, read₆, read⟩ := decoder_bind_eq_ok.1 read
  have at₆ := Decode.u32_eq_ok (reading_eq_ok read₆)
  obtain ⟨digest, c₇, read₇, read⟩ := decoder_bind_eq_ok.1 read
  obtain ⟨front, at₇, enough⟩ := Decode.bytes_eq_ok (reading_eq_ok read₇)
  obtain ⟨cursor, c₈, read₈, read⟩ := decoder_bind_eq_ok.1 read
  cases read₈
  obtain ⟨_, c₉, met, read⟩ := decoder_bind_eq_ok.1 read
  have at₉ := (expect_eq_ok met).2
  obtain ⟨_, c₁₀, met, read⟩ := decoder_bind_eq_ok.1 read
  obtain ⟨same, at₁₀⟩ := expect_eq_ok met
  cases read
  subst at₁ at₂ at₃ at₄ at₅ at₆ at₇ at₉ at₁₀
  rw [decide_eq_true_eq, front] at same
  simp only [Cursor.start, List.drop_drop, List.length_drop] at same enough ⊢
  have long : headerLength ≤ data.length := by
    unfold headerLength
    omega
  refine ⟨rfl, ?_⟩
  unfold storedDigest?
  rw [if_pos long]
  exact congrArg some same

/-- The flags of a header are the only part of a unit that its payload does not give. -/
theorem decodePayload_flags {flags : UInt32} (flags' : UInt32) {c c' : Cursor} {u : TypeUnit}
    (read : decodePayload flags c = .ok u c') :
    decodePayload flags' c = .ok { u with flags := flags' } c' := by
  obtain ⟨name, c₁, read₁, read⟩ := decoder_bind_eq_ok.1 read
  obtain ⟨superName, c₂, read₂, read⟩ := decoder_bind_eq_ok.1 read
  obtain ⟨interfaces, c₃, read₃, read⟩ := decoder_bind_eq_ok.1 read
  obtain ⟨bits, c₄, read₄, read⟩ := decoder_bind_eq_ok.1 read
  obtain ⟨annotations, c₅, read₅, read⟩ := decoder_bind_eq_ok.1 read
  obtain ⟨sourceFile, c₆, read₆, read⟩ := decoder_bind_eq_ok.1 read
  obtain ⟨fields, c₇, read₇, read⟩ := decoder_bind_eq_ok.1 read
  obtain ⟨methods, c₈, read₈, read⟩ := decoder_bind_eq_ok.1 read
  cases read
  refine decoder_bind_eq_ok.2 ⟨name, c₁, read₁, decoder_bind_eq_ok.2 ⟨superName, c₂, read₂, ?_⟩⟩
  refine decoder_bind_eq_ok.2 ⟨interfaces, c₃, read₃, decoder_bind_eq_ok.2 ⟨bits, c₄, read₄, ?_⟩⟩
  refine decoder_bind_eq_ok.2 ⟨annotations, c₅, read₅, ?_⟩
  refine decoder_bind_eq_ok.2 ⟨sourceFile, c₆, read₆, decoder_bind_eq_ok.2 ⟨fields, c₇, read₇, ?_⟩⟩
  exact decoder_bind_eq_ok.2 ⟨methods, c', read₈, rfl⟩

theorem decode_eq_ok {data : List UInt8} {u : TypeUnit} (decoded : decode data = .ok u) :
    (∃ flags c, decodePayload flags ⟨headerLength, payload data⟩ = .ok u c) ∧
      storedDigest? data = some (Sha256.digest (payload data)) := by
  unfold decode at decoded
  cases run : decoder (.start data) with
  | error error c =>
    rw [run] at decoded
    cases decoded
  | ok u' c =>
    rw [run] at decoded
    cases decoded
    obtain ⟨flags, c₁, header, rest⟩ := decoder_bind_eq_ok.1 run
    obtain ⟨at₁, digest⟩ := decodeHeader_eq_ok header
    obtain ⟨u', c₂, read, rest⟩ := decoder_bind_eq_ok.1 rest
    obtain ⟨cursor, c₃, read₃, rest⟩ := decoder_bind_eq_ok.1 rest
    obtain ⟨_, c₄, met, rest⟩ := decoder_bind_eq_ok.1 rest
    cases rest
    rw [at₁] at read
    exact ⟨⟨flags, c₂, reading_eq_ok read⟩, digest⟩

/-- Two units with one payload have the same methods. -/
theorem methods_eq_of_payload {data data' : List UInt8} {u u' : TypeUnit}
    (decoded : decode data = .ok u) (decoded' : decode data' = .ok u')
    (same : payload data = payload data') : u.methods = u'.methods := by
  obtain ⟨⟨flags, c, read⟩, -⟩ := decode_eq_ok decoded
  obtain ⟨⟨flags', c', read'⟩, -⟩ := decode_eq_ok decoded'
  have again := decodePayload_flags flags' read
  rw [same, read'] at again
  cases again
  rfl

/-- Two payloads have one digest. -/
def DigestsCollide (data data' : List UInt8) : Prop :=
  payload data ≠ payload data' ∧ Sha256.digest (payload data) = Sha256.digest (payload data')

/-- Two units with one stored digest have the same methods, unless their digests collide. -/
theorem collide_or_methods_eq {data data' : List UInt8} {u u' : TypeUnit}
    (decoded : decode data = .ok u) (decoded' : decode data' = .ok u')
    (same : storedDigest? data = storedDigest? data') :
    DigestsCollide data data' ∨ u.methods = u'.methods := by
  rw [(decode_eq_ok decoded).2, (decode_eq_ok decoded').2, Option.some.injEq] at same
  by_cases one : payload data = payload data'
  · exact .inr (methods_eq_of_payload decoded decoded' one)
  · exact .inl ⟨one, same⟩

end TypeUnit

end LiveUpdate
