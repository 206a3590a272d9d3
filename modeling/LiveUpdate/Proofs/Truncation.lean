import LiveUpdate.Proofs.UnitCoding

/-!
# Bytes that are cut off or added

A reader is prompt when it looks at nothing behind what it takes: bytes behind those that it
was given change nothing, unless it stopped because it was given too few.  Every reader of the
format is prompt.  So where bytes are read to their end, a reader of a part of them stops for
want of the others, and one of more bytes leaves what was added.  The sums in a header play no
part in this: whatever they are, a unit is neither read from a part of its bytes nor from more.
-/

set_option autoImplicit false

namespace LiveUpdate

/-- The same place, with more bytes behind. -/
def Cursor.followedBy (c : Cursor) (more : List UInt8) : Cursor := ⟨c.offset, c.rest ++ more⟩

/-- What a reader ends with, with more bytes behind. -/
def readFollowedBy {α : Type} (more : List UInt8) :
    EStateM.Result DecodeError Cursor α → EStateM.Result DecodeError Cursor α
  | .ok a c => .ok a (c.followedBy more)
  | .error error c => .error error (c.followedBy more)

/-- Whether a reader stopped because there were too few bytes. -/
def WantsMore {α : Type} (result : EStateM.Result DecodeError Cursor α) : Prop :=
  ∃ offset c, result = .error (.unexpectedEnd offset) c

/-- Bytes behind those that a reader was given change nothing, unless it wanted more. -/
def Prompt {α : Type} (read : Decoder α) : Prop :=
  ∀ c more, WantsMore (read c) ∨ read (c.followedBy more) = readFollowedBy more (read c)

theorem Decode.splitExactly_append_of_some {n : Nat} {bytes front rest : List UInt8}
    (split : splitExactly n bytes = some (front, rest)) (more : List UInt8) :
    splitExactly n (bytes ++ more) = some (front, rest ++ more) := by
  obtain ⟨rfl, rfl, enough⟩ := splitExactly_eq_some split
  have whole := splitExactly_append (bytes.take n) (bytes.drop n ++ more)
  rwa [List.length_take_of_le enough, ← List.append_assoc, List.take_append_drop] at whole

namespace Prompt

variable {α β : Type}

theorem pure (a : α) : Prompt (pure a : Decoder α) := fun _ _ => .inr rfl

theorem fail (error : DecodeError) : Prompt (Decode.fail error : Decoder α) :=
  fun _ _ => .inr rfl

theorem offset : Prompt Decode.offset := fun _ _ => .inr rfl

theorem bytes (n : Nat) : Prompt (Decode.bytes n) := by
  intro c more
  unfold Decode.bytes Cursor.followedBy
  cases split : Decode.splitExactly n c.rest with
  | none => exact .inl ⟨c.offset, c, rfl⟩
  | some pair => exact .inr (by simp only [Decode.splitExactly_append_of_some split more]; rfl)

/-- One prompt reader after another: the second one wants more, or both go on as before. -/
theorem bind {read : Decoder α} {next : α → Decoder β} (first : Prompt read)
    (second : ∀ a, Prompt (next a)) : Prompt (read >>= next) := by
  intro c more
  have both (c : Cursor) : (read >>= next) c = match read c with
      | .ok a c' => next a c'
      | .error error c' => .error error c' := by
    show EStateM.bind read next c = _
    unfold EStateM.bind
    cases read c <;> rfl
  rw [both, both]
  rcases first c more with ⟨place, c', short⟩ | same
  · exact .inl ⟨place, c', by rw [short]⟩
  · rw [same]
    cases read c with
    | ok a c' => exact second a c' more
    | error error c' => exact .inr rfl

theorem u8 : Prompt Decode.u8 := (bytes 1).bind fun _ => pure _

theorem u16 : Prompt Decode.u16 := (bytes 2).bind fun _ => pure _

theorem u32 : Prompt Decode.u32 := (bytes 4).bind fun _ => pure _

theorem word : Prompt Decode.word := (bytes 8).bind fun _ => pure _

theorem i64 : Prompt Decode.i64 := word.bind fun _ => pure _

theorem string : Prompt Decode.string := by
  refine offset.bind fun start => u32.bind fun length => (bytes _).bind fun front => ?_
  cases Decode.utf8? front with
  | some s => exact pure s
  | none => exact fail _

theorem optString : Prompt Decode.optString := by
  refine u8.bind fun presence => ?_
  split
  · exact string.bind fun s => pure (some s)
  · exact pure none

theorem parsed (parse : String → Except DecodeError α) : Prompt (Decode.parsed parse) := by
  refine string.bind fun s => ?_
  cases parse s with
  | ok a => exact pure a
  | error error => exact fail error

theorem times {element : Decoder α} (prompt : Prompt element) (n : Nat) :
    Prompt (Decode.times element n) := by
  induction n with
  | zero => exact pure []
  | succ n ih => exact prompt.bind fun x => ih.bind fun xs => pure (x :: xs)

theorem list {element : Decoder α} (prompt : Prompt element) : Prompt (Decode.list element) :=
  u32.bind fun count => prompt.times count.toNat

theorem strings : Prompt Decode.strings := string.list

/-- Bytes behind those that were taken are left. -/
theorem leaves {read : Decoder α} (prompt : Prompt read) {c c' : Cursor} {a : α}
    (taken : read c = .ok a c') (more : List UInt8) :
    read (c.followedBy more) = .ok a (c'.followedBy more) := by
  rcases prompt c more with ⟨place, c'', short⟩ | same
  · rw [taken] at short
    cases short
  · rw [same, taken]
    rfl

/-- Where bytes were read to their end, a part of them is too few. -/
theorem stops {read : Decoder α} (prompt : Prompt read) {offset : Nat} {cut more : List UInt8}
    {c : Cursor} {a : α} (taken : read ⟨offset, cut ++ more⟩ = .ok a c) (all : c.rest = [])
    (some_more : more ≠ []) : WantsMore (read ⟨offset, cut⟩) := by
  rcases prompt ⟨offset, cut⟩ more with short | same
  · exact short
  · replace taken := same.symm.trans taken
    exfalso
    cases part : read ⟨offset, cut⟩ with
    | ok b c' =>
      rw [part] at taken
      cases taken
      exact some_more (List.append_eq_nil_iff.1 all).2
    | error error c' =>
      rw [part] at taken
      cases taken

end Prompt

/-! ### Everything in a unit is read so -/

theorem Annotation.prompt_decodeList : Prompt decodeList := by
  have element : Prompt decodeElement :=
    Prompt.string.bind fun _ => Prompt.string.bind fun _ => .pure _
  have annotation : Prompt decode := Prompt.string.bind fun _ => element.list.bind fun _ => .pure _
  exact annotation.list

theorem FieldRef.prompt_decode : Prompt decode :=
  Prompt.string.bind fun _ => Prompt.string.bind fun _ => (Prompt.parsed _).bind fun _ => .pure _

theorem MethodRef.prompt_decode : Prompt decode :=
  Prompt.string.bind fun _ => Prompt.string.bind fun _ => (Prompt.parsed _).bind fun _ => .pure _

theorem Instr.prompt_decodeOperands (op : Opcode) : Prompt (decodeOperands op) := by
  cases op with
  | constInt => exact Prompt.i64.bind fun _ => .pure _
  | constFloat => exact Prompt.word.bind fun _ => .pure _
  | constStr | new | instanceOf | checkCast => exact Prompt.string.bind fun _ => .pure _
  | load | store => exact Prompt.u16.bind fun _ => .pure _
  | jump | jumpIf | invokeCheck | fieldCheck => exact Prompt.u32.bind fun _ => .pure _
  | newArray => exact (Prompt.parsed _).bind fun _ => .pure _
  | invoke => exact MethodRef.prompt_decode.bind fun _ => .pure _
  | access => exact FieldRef.prompt_decode.bind fun _ => .pure _
  | entryCheck => exact Prompt.u32.bind fun _ => Prompt.u32.bind fun _ => .pure _
  | liveAccess => exact Prompt.u32.bind fun _ => FieldRef.prompt_decode.bind fun _ => .pure _
  | liveSpecial | liveSuper | liveInit =>
    exact Prompt.u32.bind fun _ => MethodRef.prompt_decode.bind fun _ => .pure _
  | _ => exact .pure _

theorem Instr.prompt_decode : Prompt decode := by
  refine Prompt.offset.bind fun start => Prompt.u8.bind fun byte => ?_
  cases Opcode.ofByte? byte with
  | some op => exact prompt_decodeOperands op
  | none => exact .fail _

theorem FieldDef.prompt_decode : Prompt decode :=
  Prompt.string.bind fun _ => (Prompt.parsed _).bind fun _ => Prompt.u32.bind fun _ =>
    Prompt.optString.bind fun _ => Annotation.prompt_decodeList.bind fun _ => .pure _

theorem MethodDef.prompt_decode : Prompt decode :=
  Prompt.string.bind fun _ => (Prompt.parsed _).bind fun _ => Prompt.u32.bind fun _ =>
    Annotation.prompt_decodeList.bind fun _ => Prompt.strings.bind fun _ =>
      Prompt.u16.bind fun _ => Instr.prompt_decode.list.bind fun _ => .pure _

namespace TypeUnit

theorem prompt_decodePayload (flags : UInt32) : Prompt (decodePayload flags) :=
  Prompt.string.bind fun _ => Prompt.optString.bind fun _ => Prompt.strings.bind fun _ =>
    Prompt.u32.bind fun _ => Annotation.prompt_decodeList.bind fun _ =>
      Prompt.optString.bind fun _ => FieldDef.prompt_decode.list.bind fun _ =>
        MethodDef.prompt_decode.list.bind fun _ => .pure _

/-! ### Whole units -/

/-- Whether a payload is read to its end, and as which unit. -/
def ReadsWhole (payload : List UInt8) (u : TypeUnit) : Prop :=
  ∃ c, decodePayload u.flags ⟨headerLength, payload⟩ = .ok u c ∧ c.rest = []

/-- A unit is its header and, read to its end, its payload. -/
theorem decode_eq_ok_iff {data : List UInt8} {u : TypeUnit} :
    decode data = .ok u ↔
      decodeHeader (.start data) = .ok u.flags ⟨headerLength, payload data⟩ ∧
        ReadsWhole (payload data) u := by
  unfold decode
  constructor
  · intro decoded
    cases run : decoder (.start data) with
    | error error c =>
      rw [run] at decoded
      cases decoded
    | ok u' c =>
      rw [run] at decoded
      cases decoded
      obtain ⟨flags, c₁, header, rest⟩ := decoder_bind_eq_ok.1 run
      obtain ⟨rfl, -⟩ := decodeHeader_eq_ok header
      obtain ⟨u', c₂, read, rest⟩ := decoder_bind_eq_ok.1 rest
      obtain ⟨cursor, c₃, read₃, rest⟩ := decoder_bind_eq_ok.1 rest
      cases read₃
      obtain ⟨_, c₄, met, rest⟩ := decoder_bind_eq_ok.1 rest
      cases rest
      have read := reading_eq_ok read
      obtain ⟨-, -, rfl⟩ := ((codes_payload flags).gives read).1
      exact ⟨header, _, read, List.length_eq_zero_iff.1 (of_decide_eq_true (expect_eq_ok met).1)⟩
  · rintro ⟨header, c, read, all⟩
    have whole : decoder (.start data) = .ok u c := by
      unfold decoder
      rw [decoder_bind_of_ok header, decoder_bind_of_ok (reading_of_ok read)]
      refine (decoder_bind_of_ok (show (get : UnitDecoder Cursor) c = .ok c c from rfl)).trans ?_
      rw [decoder_bind_of_ok (expect_of_true (by rw [all]; rfl) _ _)]
      rfl
    rw [whole]

/-- What a refused header says is what is wrong with the unit. -/
theorem decode_of_header_refused {data : List UInt8} {error : UnitError} {c : Cursor}
    (refused : decodeHeader (.start data) = .error error c) : decode data = .error error := by
  have whole : decoder (.start data) = .error error c := by
    show EStateM.bind decodeHeader _ _ = _
    unfold EStateM.bind
    rw [refused]
  unfold decode
  rw [whole]

/-- Behind a header that is accepted, too few bytes are noticed when they are read. -/
theorem decode_of_wantsMore {data : List UInt8} {flags : UInt32} {c : Cursor}
    (header : decodeHeader (.start data) = .ok flags c)
    (short : WantsMore (decodePayload flags ⟨headerLength, payload data⟩)) :
    ∃ offset, decode data = .error (.decode (.unexpectedEnd offset)) := by
  obtain ⟨rfl, -⟩ := decodeHeader_eq_ok header
  obtain ⟨offset, c', stopped⟩ := short
  have whole : decoder (.start data) = .error (.decode (.unexpectedEnd offset)) c' := by
    unfold decoder
    rw [decoder_bind_of_ok header]
    show EStateM.bind (reading _) _ _ = _
    unfold EStateM.bind reading
    rw [stopped]
  unfold decode
  exact ⟨offset, by rw [whole]⟩

/-- Behind a header that is accepted, bytes that are left are counted. -/
theorem decode_of_left {data : List UInt8} {flags : UInt32} {c c' : Cursor} {u : TypeUnit}
    (header : decodeHeader (.start data) = .ok flags c)
    (read : decodePayload flags ⟨headerLength, payload data⟩ = .ok u c') (left : c'.rest ≠ []) :
    decode data = .error (.trailingData c'.rest.length) := by
  obtain ⟨rfl, -⟩ := decodeHeader_eq_ok header
  have whole : decoder (.start data) = .error (.trailingData c'.rest.length) c' := by
    unfold decoder
    rw [decoder_bind_of_ok header, decoder_bind_of_ok (reading_of_ok read)]
    refine (decoder_bind_of_ok (show (get : UnitDecoder Cursor) c' = .ok c' c' from rfl)).trans ?_
    show EStateM.bind (expect _ _) _ _ = _
    unfold EStateM.bind expect
    rw [decide_eq_false (by simpa using left)]
    rfl
  unfold decode
  rw [whole]

/-- The flags of a header do not matter to the payload. -/
theorem ReadsWhole.decodePayload {whole : List UInt8} {u : TypeUnit} (reads : ReadsWhole whole u)
    (flags : UInt32) :
    ∃ c, decodePayload flags ⟨headerLength, whole⟩ = .ok { u with flags } c ∧ c.rest = [] := by
  obtain ⟨c, read, all⟩ := reads
  exact ⟨c, decodePayload_flags flags read, all⟩

/-- Behind an accepted header, a part of a payload ends too early. -/
theorem ReadsWhole.cut {whole data : List UInt8} {u : TypeUnit} (reads : ReadsWhole whole u)
    {flags : UInt32} {c : Cursor} (header : decodeHeader (.start data) = .ok flags c)
    (part : payload data <+: whole) (strict : payload data ≠ whole) :
    ∃ offset, decode data = .error (.decode (.unexpectedEnd offset)) := by
  obtain ⟨more, rfl⟩ := part
  obtain ⟨c', read, all⟩ := reads.decodePayload flags
  have some_more : more ≠ [] := fun none_ => strict (by rw [none_, List.append_nil])
  exact decode_of_wantsMore header ((prompt_decodePayload flags).stops read all some_more)

/-- Behind an accepted header, what follows a payload is left over. -/
theorem ReadsWhole.extended {whole data more : List UInt8} {u : TypeUnit}
    (reads : ReadsWhole whole u) {flags : UInt32} {c : Cursor}
    (header : decodeHeader (.start data) = .ok flags c) (added : payload data = whole ++ more)
    (some_more : more ≠ []) : decode data = .error (.trailingData more.length) := by
  obtain ⟨c', read, all⟩ := reads.decodePayload flags
  have left := (prompt_decodePayload flags).leaves read more
  have rest : (c'.followedBy more).rest = more := by rw [Cursor.followedBy, all, List.nil_append]
  rw [← rest] at some_more ⊢
  exact decode_of_left header (by rw [added]; exact left) some_more

/-- An accepted header stands in front of a payload that is read, or it makes no unit. -/
theorem decode_refused_of {data : List UInt8}
    (behind : ∀ flags c, decodeHeader (.start data) = .ok flags c →
      ∃ error, decode data = .error error) : ∃ error, decode data = .error error := by
  cases header : decodeHeader (.start data) with
  | ok flags c => exact behind flags c header
  | error error c => exact ⟨error, decode_of_header_refused header⟩

theorem payload_encode (u : TypeUnit) : payload u.encode = u.encodePayload := by
  unfold payload encode
  rw [List.drop_append_of_le_length (length_encodeHeader u _).ge, List.drop_of_length_le
    (length_encodeHeader u _).le, List.nil_append]

/-- No unit has an empty payload. -/
theorem ReadsWhole.ne_nil {whole : List UInt8} {u : TypeUnit} (reads : ReadsWhole whole u) :
    whole ≠ [] := by
  rintro rfl
  obtain ⟨c, read, -⟩ := reads
  cases read

/-- A part of the bytes of a unit has a part of its payload. -/
theorem payload_of_cut {data whole : List UInt8} (part : data <+: whole) (strict : data ≠ whole)
    (some_payload : payload whole ≠ []) :
    payload data <+: payload whole ∧ payload data ≠ payload whole := by
  obtain ⟨more, rfl⟩ := part
  have some_more : more ≠ [] := fun none_ => strict (by rw [none_, List.append_nil])
  unfold payload at some_payload ⊢
  rw [List.drop_append] at some_payload ⊢
  rcases Nat.lt_or_ge data.length headerLength with short | long
  · rw [List.drop_of_length_le short.le, List.nil_append] at some_payload ⊢
    exact ⟨List.nil_prefix, some_payload.symm⟩
  · rw [Nat.sub_eq_zero_of_le long, List.drop_zero]
    exact ⟨List.prefix_append _ _, fun same => some_more (List.self_eq_append_right.1 same)⟩

/-- The bytes of a unit that is read back from them are no unit when some are cut off at the
end or others are added.  Not only the sums in the header see to that: behind any header that
is accepted, whatever its sums are, a part of the payload ends too early, and bytes that follow
the payload are left over. -/
theorem cut_or_extended_refused {u : TypeUnit} (decoded : decode u.encode = .ok u) :
    (∀ data, data <+: u.encode → data ≠ u.encode → ∃ error, decode data = .error error) ∧
      (∀ more, more ≠ [] → ∃ error, decode (u.encode ++ more) = .error error) ∧
      (∀ data flags c, decodeHeader (.start data) = .ok flags c →
        payload data <+: u.encodePayload → payload data ≠ u.encodePayload →
          ∃ offset, decode data = .error (.decode (.unexpectedEnd offset))) ∧
      ∀ data flags c more, decodeHeader (.start data) = .ok flags c →
        payload data = u.encodePayload ++ more → more ≠ [] →
          decode data = .error (.trailingData more.length) := by
  obtain ⟨-, reads⟩ := decode_eq_ok_iff.1 decoded
  refine ⟨fun data part strict => ?_, fun more some_more => ?_, ?_, ?_⟩
  · obtain ⟨part, strict⟩ := payload_of_cut part strict reads.ne_nil
    refine decode_refused_of fun flags c header => ?_
    obtain ⟨offset, refused⟩ := reads.cut header part strict
    exact ⟨_, refused⟩
  · have long : headerLength ≤ u.encode.length := by
      rw [encode, List.length_append, length_encodeHeader]
      exact Nat.le_add_right _ _
    have added : payload (u.encode ++ more) = payload u.encode ++ more :=
      List.drop_append_of_le_length long
    exact decode_refused_of fun flags c header => ⟨_, reads.extended header added some_more⟩
  · rw [payload_encode] at reads
    exact fun data flags c header part strict => reads.cut header part strict
  · rw [payload_encode] at reads
    exact fun data flags c more header added some_more => reads.extended header added some_more

set_option maxRecDepth 100000 in
theorem cut_or_extended_refused_spaced :
    decode spacedUnit.encode = .ok spacedUnit ∧
      (∃ error, decode (spacedUnit.encode.take 90) = .error error) ∧
      (∃ error, decode (spacedUnit.encode ++ [0]) = .error error) ∧
      let cut := spacedUnit.encodePayload.take 40
      ∃ offset, decode (spacedUnit.encodeHeader cut ++ cut) =
        .error (.decode (.unexpectedEnd offset)) := by
  have read : (decode spacedUnit.encode).toOption = some spacedUnit := by decide +kernel
  have decoded := Exec.ok_of_toOption read
  obtain ⟨cut, extended, behind, -⟩ := cut_or_extended_refused decoded
  refine ⟨decoded, cut _ (List.take_prefix 90 _) (by decide +kernel),
    extended _ (List.cons_ne_nil 0 []), ?_⟩
  -- a header that was written for the shorter payload is accepted
  have header := decodeHeader_encodeHeader (u := spacedUnit) rfl rfl
    (spacedUnit.encodePayload.take 40)
  have shorter : payload (spacedUnit.encodeHeader (spacedUnit.encodePayload.take 40) ++
      spacedUnit.encodePayload.take 40) = spacedUnit.encodePayload.take 40 := by decide +kernel
  refine behind _ _ _ header ?_ ?_
  · rw [shorter]
    exact List.take_prefix _ _
  · rw [shorter]
    decide +kernel

end TypeUnit

end LiveUpdate
