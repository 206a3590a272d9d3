import LiveUpdate.Codec.Encode
import LiveUpdate.Proofs.Digests
import Mathlib.Algebra.Group.Nat.Defs

/-!
# Readers and writers that belong together

A reader and a writer of one sort of data belong together when the reader takes back every
value that fits, from whatever bytes its writing stands in front of, and gives only values
that fit and are not longer when they are written again.  Numbers, strings, options and
lists are read and written so, and records and choices of such data are again.
-/

set_option autoImplicit false

namespace LiveUpdate

/-- A reader and a writer of the values of a shape: the reader takes back the writing of
those that fit, and what it gives has the shape, fits, and is written in at most as many
bytes as were taken for it. -/
structure Codes {α : Type} (read : Decoder α) (write : α → List UInt8) (Shape Fits : α → Prop) :
    Prop where
  takes : ∀ a, Shape a → Fits a → ∀ offset rest,
    read ⟨offset, write a ++ rest⟩ = .ok a ⟨offset + (write a).length, rest⟩
  gives : ∀ {c c' a}, read c = .ok a c' →
    Shape a ∧ Fits a ∧ (write a).length + c'.rest.length ≤ c.rest.length

/-- Every value. -/
def Any {α : Type} (_ : α) : Prop := True

/-- What comes after a reading starts where that ended. -/
theorem decoder_bind_of_ok {ε α β : Type} {x : EStateM ε Cursor α} {f : α → EStateM ε Cursor β}
    {c c' : Cursor} {a : α} (read : x c = .ok a c') : (x >>= f) c = f a c' := by
  show EStateM.bind x f c = _
  unfold EStateM.bind
  rw [read]

namespace Codes

variable {α β γ : Type}

/-- The same for a writer that writes the same and for other words for what fits. -/
theorem congr {read : Decoder α} {write write' : α → List UInt8}
    {Shape Shape' Fits Fits' : α → Prop} (codes : Codes read write Shape Fits)
    (same : ∀ a, write' a = write a) (shape : ∀ a, Shape' a ↔ Shape a)
    (fits : ∀ a, Fits' a ↔ Fits a) : Codes read write' Shape' Fits' := by
  obtain rfl : write' = write := funext same
  obtain rfl : Shape' = Shape := funext fun a => propext (shape a)
  obtain rfl : Fits' = Fits := funext fun a => propext (fits a)
  exact codes

/-- A value that is known when nothing is left to read, as at the end of a record. -/
theorem done {write : α → List UInt8} {Shape Fits : α → Prop} {a : α}
    (only : ∀ b, Shape b ↔ b = a) (nothing : write a = []) (fits : Fits a) :
    Codes (pure a) write Shape Fits where
  takes b shape _ offset rest := by
    rw [(only b).1 shape, nothing]
    rfl
  gives := by
    intro c c' b read
    cases read
    exact ⟨(only a).2 rfl, fits, by simp [nothing]⟩

/-- The end of a record. -/
theorem finish {Shape : α → Prop} {a : α} (only : ∀ b, Shape b ↔ b = a) :
    Codes (pure a) (fun _ => []) Shape Any :=
  done only rfl trivial

/-- One part of a record in front of the others. -/
theorem part (get : α → β) {read : Decoder β} {write : β → List UInt8} {Fits : β → Prop}
    {next : β → Decoder α} {others : α → List UInt8} {Shape OthersFit : α → Prop}
    (own : Codes read write Any Fits)
    (behind : ∀ b, Codes (next b) others (fun a => Shape a ∧ get a = b) OthersFit) :
    Codes (read >>= next) (fun a => write (get a) ++ others a) Shape
      (fun a => Fits (get a) ∧ OthersFit a) where
  takes a shape fits offset rest := by
    rw [List.append_assoc, decoder_bind_of_ok (own.takes (get a) trivial fits.1 offset _),
      (behind (get a)).takes a ⟨shape, rfl⟩ fits.2, List.length_append, Nat.add_assoc]
  gives := by
    intro c c'' a both
    obtain ⟨b, c', first, second⟩ := decoder_bind_eq_ok.1 both
    obtain ⟨-, fits, taken⟩ := own.gives first
    obtain ⟨⟨shape, rfl⟩, othersFit, taken'⟩ := (behind b).gives second
    refine ⟨shape, ⟨fits, othersFit⟩, ?_⟩
    rw [List.length_append]
    omega

/-- Values that are made from others of which a reader is known. -/
theorem map (make : β → α) {read : Decoder β} {write : β → List UInt8} {write' : α → List UInt8}
    {Fits : β → Prop} {Shape Fits' : α → Prop} (codes : Codes read write Any Fits)
    (shape : ∀ a, Shape a ↔ ∃ b, make b = a) (same : ∀ b, write' (make b) = write b)
    (fits : ∀ b, Fits' (make b) ↔ Fits b) :
    Codes (read >>= fun b => pure (make b)) write' Shape Fits' where
  takes a shape' fits' offset rest := by
    obtain ⟨b, rfl⟩ := (shape a).1 shape'
    rw [same, decoder_bind_of_ok (codes.takes b trivial ((fits b).1 fits') offset rest)]
    rfl
  gives := by
    intro c c'' a both
    obtain ⟨b, c', first, second⟩ := decoder_bind_eq_ok.1 both
    cases second
    obtain ⟨-, fits', taken⟩ := codes.gives first
    exact ⟨(shape _).2 ⟨b, rfl⟩, (fits b).2 fits', by rwa [same]⟩

/-- Values that are made from two others of which readers are known. -/
theorem map₂ (make : β → γ → α) {first : Decoder β} {second : Decoder γ}
    {write : β → List UInt8} {write' : γ → List UInt8} {write'' : α → List UInt8}
    {Fits : β → Prop} {Shape' Fits' : γ → Prop} {Shape Fits'' : α → Prop}
    (codes : Codes first write Any Fits) (codes' : Codes second write' Shape' Fits')
    (shape : ∀ a, Shape a ↔ ∃ b c, Shape' c ∧ make b c = a)
    (same : ∀ b c, write'' (make b c) = write b ++ write' c)
    (fits : ∀ b c, Fits'' (make b c) ↔ Fits b ∧ Fits' c) :
    Codes (first >>= fun b => second >>= fun c => pure (make b c)) write'' Shape Fits'' where
  takes a own fits'' offset rest := by
    obtain ⟨b, c, shape', rfl⟩ := (shape a).1 own
    obtain ⟨fit, fit'⟩ := (fits b c).1 fits''
    rw [same, List.append_assoc, decoder_bind_of_ok (codes.takes b trivial fit offset _),
      decoder_bind_of_ok (codes'.takes c shape' fit' _ rest), List.length_append, Nat.add_assoc]
    rfl
  gives := by
    intro start stop a both
    obtain ⟨b, behind, read, both⟩ := decoder_bind_eq_ok.1 both
    obtain ⟨c, stop', read', both⟩ := decoder_bind_eq_ok.1 both
    cases both
    -- both parts took at least as many bytes as their writings have
    obtain ⟨-, fit, taken⟩ := codes.gives read
    obtain ⟨shape', fit', taken'⟩ := codes'.gives read'
    refine ⟨(shape _).2 ⟨b, c, shape', rfl⟩, (fits b c).2 ⟨fit, fit'⟩, ?_⟩
    rw [same, List.length_append]
    omega

end Codes

/-! ### Bytes and numbers -/

namespace Decode

theorem splitExactly_append (front rest : List UInt8) :
    splitExactly front.length (front ++ rest) = some (front, rest) := by
  induction front with
  | nil => rfl
  | cons b front ih => rw [List.length_cons, List.cons_append, splitExactly, ih]

/-- Taking bytes takes those in front. -/
theorem bytes_append {n : Nat} {front : List UInt8} (length : front.length = n) (offset : Nat)
    (rest : List UInt8) : bytes n ⟨offset, front ++ rest⟩ = .ok front ⟨offset + n, rest⟩ := by
  subst length
  unfold bytes
  rw [splitExactly_append]

theorem length_littleEndian (count n : Nat) : (Encode.littleEndian count n).length = count := by
  induction count generalizing n with
  | zero => rfl
  | succ count ih => rw [Encode.littleEndian, List.length_cons, ih]

/-- A number comes back from as many of its bytes as it needs. -/
theorem littleEndian_of_lt {count n : Nat} (small : n < 256 ^ count) :
    littleEndian (Encode.littleEndian count n) = n := by
  induction count generalizing n with
  | zero =>
    obtain rfl : n = 0 := by simpa using small
    rfl
  | succ count ih =>
    have high : n / 256 < 256 ^ count := Nat.div_lt_of_lt_mul (by rwa [Nat.pow_succ'] at small)
    have low : (UInt8.ofNat n).toNat = n % 256 := UInt8.toNat_ofNat'
    rw [Encode.littleEndian, littleEndian, ih high, low]
    omega

end Decode

namespace Codes

/-- Numbers of a fixed size. -/
theorem number {α : Type} (count : Nat) (make : Nat → α) (value : α → Nat)
    (small : ∀ a, value a < 256 ^ count) (back : ∀ a, make (value a) = a) :
    Codes (Decode.bytes count >>= fun front => pure (make (Decode.littleEndian front)))
      (fun a => Encode.littleEndian count (value a)) Any Any where
  takes a _ _ offset rest := by
    rw [decoder_bind_of_ok (Decode.bytes_append (Decode.length_littleEndian _ _) offset rest),
      Decode.littleEndian_of_lt (small a), back, Decode.length_littleEndian]
    rfl
  gives := by
    intro c c' a read
    obtain ⟨front, c₁, read₁, read₂⟩ := decoder_bind_eq_ok.1 read
    cases read₂
    obtain ⟨-, rfl, enough⟩ := Decode.bytes_eq_ok read₁
    refine ⟨trivial, trivial, ?_⟩
    rw [Decode.length_littleEndian, List.length_drop]
    omega

theorem u8 : Codes Decode.u8 Encode.u8 Any Any :=
  (number 1 UInt8.ofNat UInt8.toNat UInt8.toNat_lt fun _ => UInt8.ofNat_toNat).congr
    (fun _ => congrArg (fun b => [b]) UInt8.ofNat_toNat.symm) (fun _ => .rfl) (fun _ => .rfl)

theorem u16 : Codes Decode.u16 Encode.u16 Any Any :=
  number 2 UInt16.ofNat UInt16.toNat UInt16.toNat_lt fun _ => UInt16.ofNat_toNat

theorem u32 : Codes Decode.u32 Encode.u32 Any Any :=
  number 4 UInt32.ofNat UInt32.toNat UInt32.toNat_lt fun _ => UInt32.ofNat_toNat

theorem word : Codes Decode.word Encode.word Any Any :=
  number 8 UInt64.ofNat UInt64.toNat UInt64.toNat_lt fun _ => UInt64.ofNat_toNat

theorem i64 : Codes Decode.i64 Encode.i64 Any Any :=
  word.map UInt64.toInt64 (fun n => iff_of_true trivial ⟨n.toUInt64, rfl⟩) (fun _ => rfl)
    (fun _ => .rfl)

end Codes

/-! ### Strings -/

/-- A string whose length can be written. -/
def ShortString (s : String) : Prop := (Encode.utf8 s).length < 2 ^ 32

instance (s : String) : Decidable (ShortString s) := inferInstanceAs (Decidable (_ < _))

/-- An optional string whose length can be written, if it is there. -/
def ShortOption (text : Option String) : Prop := ∀ s ∈ text, ShortString s

namespace Decode

theorem utf8?_utf8 (s : String) : utf8? (Encode.utf8 s) = some s := by
  unfold utf8? String.fromUTF8?
  exact dif_pos s.isValidUTF8

theorem utf8?_eq_some {front : List UInt8} {s : String} (text : utf8? front = some s) :
    Encode.utf8 s = front := by
  unfold utf8? String.fromUTF8? at text
  split at text
  · cases text
    rfl
  · cases text

theorem length_utf8 (s : String) : (Encode.utf8 s).length = s.utf8ByteSize := rfl

theorem toNat_count {n : Nat} (small : n < 2 ^ 32) : (UInt32.ofNat n).toNat = n :=
  UInt32.toNat_ofNat_of_lt' small

theorem length_count (n : Nat) : (Encode.count n).length = 4 := length_littleEndian _ _

/-- A count comes back if it can be written. -/
theorem u32_count {n : Nat} (small : n < 2 ^ 32) (offset : Nat) (rest : List UInt8) :
    ∃ m : UInt32, u32 ⟨offset, Encode.count n ++ rest⟩ = .ok m ⟨offset + 4, rest⟩ ∧
      m.toNat = n :=
  ⟨UInt32.ofNat n, Codes.u32.takes _ trivial trivial offset rest, toNat_count small⟩

end Decode

namespace Codes

theorem string : Codes Decode.string Encode.string Any ShortString where
  takes s _ short offset rest := by
    obtain ⟨m, counted, length⟩ := Decode.u32_count short offset (Encode.utf8 s ++ rest)
    show Decode.string ⟨offset, Encode.count (Encode.utf8 s).length ++ Encode.utf8 s ++ rest⟩ = _
    rw [List.append_assoc]
    refine (decoder_bind_of_ok (show Decode.offset _ = .ok offset _ from rfl)).trans ?_
    rw [decoder_bind_of_ok counted, decoder_bind_of_ok (Decode.bytes_append length.symm _ _)]
    simp only [Decode.utf8?_utf8, length]
    show EStateM.Result.ok s _ = _
    rw [Encode.string, List.length_append, Decode.length_count, Nat.add_assoc]
  gives := by
    intro c c' s read
    obtain ⟨start, c₁, read₁, read⟩ := decoder_bind_eq_ok.1 read
    obtain ⟨length, c₂, read₂, read⟩ := decoder_bind_eq_ok.1 read
    obtain ⟨front, c₃, read₃, read⟩ := decoder_bind_eq_ok.1 read
    cases read₁
    obtain ⟨-, -, taken⟩ := u32.gives read₂
    obtain ⟨rfl, rfl, enough⟩ := Decode.bytes_eq_ok read₃
    cases text : Decode.utf8? (c₂.rest.take length.toNat) with
    | none =>
      simp only [text] at read
      cases read
    | some s' =>
      simp only [text] at read
      cases read
      have own := Decode.utf8?_eq_some text
      have size : (Encode.utf8 s).length = length.toNat := by
        rw [own, List.length_take, Nat.min_eq_left enough]
      refine ⟨trivial, ?_, ?_⟩
      · unfold ShortString
        rw [size]
        exact length.toNat_lt
      · rw [Encode.string, List.length_append, Decode.length_count, size, List.length_drop]
        have four : (Encode.u32 length).length = 4 := Decode.length_littleEndian _ _
        omega

/-- Text is read with a parser that takes back what is written for a value, and gives
only values for which no more is written than was read. -/
theorem parsed {α : Type} {parse : String → Except DecodeError α} {text : α → String}
    {WellFormed : α → Prop} (takes : ∀ a, WellFormed a → parse (text a) = .ok a)
    (gives : ∀ {s a}, parse s = .ok a → WellFormed a ∧ (text a).utf8ByteSize ≤ s.utf8ByteSize) :
    Codes (Decode.parsed parse) (fun a => Encode.string (text a)) Any
      (fun a => WellFormed a ∧ ShortString (text a)) where
  takes a _ fits offset rest := by
    refine (decoder_bind_of_ok (string.takes _ trivial fits.2 offset rest)).trans ?_
    simp only [takes a fits.1]
    rfl
  gives := by
    intro c c' a read
    obtain ⟨s, c₁, read₁, read⟩ := decoder_bind_eq_ok.1 read
    obtain ⟨-, short, taken⟩ := string.gives read₁
    cases parsed : parse s with
    | error error =>
      simp only [parsed] at read
      cases read
    | ok a' =>
      simp only [parsed] at read
      cases read
      obtain ⟨wellFormed, size⟩ := gives parsed
      rw [← Decode.length_utf8, ← Decode.length_utf8] at size
      refine ⟨trivial, ⟨wellFormed, Nat.lt_of_le_of_lt size short⟩, ?_⟩
      rw [Encode.string, List.length_append, Decode.length_count] at taken ⊢
      omega

theorem optString : Codes Decode.optString Encode.optString Any ShortOption where
  takes text _ short offset rest := by
    cases text with
    | none =>
      exact decoder_bind_of_ok (u8.takes 0 trivial trivial offset rest)
    | some s =>
      refine (decoder_bind_of_ok (u8.takes 1 trivial trivial offset _)).trans ?_
      refine (decoder_bind_of_ok (string.takes s trivial (short s rfl) _ rest)).trans ?_
      show EStateM.Result.ok (some s) _ = _
      rw [Encode.optString, List.length_cons, Nat.add_right_comm, Nat.add_assoc]
      rfl
  gives := by
    intro c c' text read
    obtain ⟨presence, c₁, read₁, read⟩ := decoder_bind_eq_ok.1 read
    obtain ⟨-, -, taken⟩ := u8.gives read₁
    have one : (Encode.u8 presence).length = 1 := rfl
    split at read
    · obtain ⟨s, c₂, read₂, read⟩ := decoder_bind_eq_ok.1 read
      cases read
      obtain ⟨-, short, taken'⟩ := string.gives read₂
      refine ⟨trivial, fun _ same => Option.some.inj same ▸ short, ?_⟩
      rw [Encode.optString, List.length_cons]
      omega
    · cases read
      refine ⟨trivial, fun _ same => (nomatch same), ?_⟩
      rw [Encode.optString, List.length_singleton]
      omega

end Codes

/-! ### Lists -/

/-- Elements that fit, and not too many of them for their number to be written. -/
structure ShortList {α : Type} (Fits : α → Prop) (xs : List α) : Prop where
  length : xs.length < 2 ^ 32
  fits : ∀ x ∈ xs, Fits x

namespace Codes

variable {α : Type} {element : Decoder α} {write : α → List UInt8} {Fits : α → Prop}

/-- A known number of elements. -/
theorem times (codes : Codes element write Any Fits) (n : Nat) :
    Codes (Decode.times element n) (fun xs => xs.flatMap write) (fun xs => xs.length = n)
      (fun xs => ∀ x ∈ xs, Fits x) := by
  induction n with
  | zero => exact done (fun _ => List.length_eq_zero_iff) rfl (List.forall_mem_nil _)
  | succ n ih =>
    refine codes.map₂ List.cons ih (fun xs => ?_) (fun _ _ => List.flatMap_cons)
      fun _ _ => List.forall_mem_cons
    constructor
    · intro length
      obtain ⟨x, xs, rfl⟩ := List.exists_cons_of_length_eq_add_one length
      exact ⟨x, xs, Nat.succ.inj length, rfl⟩
    · rintro ⟨x, xs, length, rfl⟩
      rw [List.length_cons, length]

/-- Elements after their number. -/
theorem list (codes : Codes element write Any Fits) :
    Codes (Decode.list element) (Encode.list write) Any (ShortList Fits) where
  takes xs _ short offset rest := by
    obtain ⟨m, counted, length⟩ := Decode.u32_count short.length offset (xs.flatMap write ++ rest)
    rw [Encode.list, List.append_assoc]
    refine (decoder_bind_of_ok counted).trans ?_
    rw [(codes.times m.toNat).takes xs length.symm short.fits, List.length_append,
      Decode.length_count, Nat.add_assoc]
  gives := by
    -- the number of elements is a word, so what was read is short enough to be written
    intro c c' xs read
    obtain ⟨count, c₁, read₁, read⟩ := decoder_bind_eq_ok.1 read
    obtain ⟨-, -, taken⟩ := u32.gives read₁
    obtain ⟨length, fits, taken'⟩ := (codes.times count.toNat).gives read
    refine ⟨trivial, ⟨length ▸ count.toNat_lt, fits⟩, ?_⟩
    have four : (Encode.u32 count).length = 4 := Decode.length_littleEndian _ _
    rw [Encode.list, List.length_append, Decode.length_count]
    omega

theorem strings : Codes Decode.strings Encode.strings Any (ShortList ShortString) := string.list

/-! ### Writings without anything between them -/

/-- Nothing has to stand between a writing and what is behind it. -/
theorem eq_of_append_eq (codes : Codes element write Any Fits) {a b : α} (fits : Fits a)
    (fits' : Fits b) {rest rest' : List UInt8} (same : write a ++ rest = write b ++ rest') :
    a = b ∧ rest = rest' := by
  have first := codes.takes a trivial fits 0 rest
  have second := codes.takes b trivial fits' 0 rest'
  rw [same, second] at first
  injection first with value place
  injection place with _ behind
  exact ⟨value.symm, behind.symm⟩

/-- Elements that are never written as nothing are told by the writings of all of them, one
behind another and without their number. -/
theorem eq_of_flatMap_eq (codes : Codes element write Any Fits) (written : ∀ a, write a ≠ [])
    {xs ys : List α} (fits : ∀ x ∈ xs, Fits x) (fits' : ∀ y ∈ ys, Fits y)
    (same : xs.flatMap write = ys.flatMap write) : xs = ys := by
  induction xs generalizing ys with
  | nil =>
    cases ys with
    | nil => rfl
    | cons y ys =>
      rw [List.flatMap_nil, List.flatMap_cons, eq_comm, List.append_eq_nil_iff] at same
      exact absurd same.1 (written y)
  | cons x xs ih =>
    cases ys with
    | nil =>
      rw [List.flatMap_nil, List.flatMap_cons, List.append_eq_nil_iff] at same
      exact absurd same.1 (written x)
    | cons y ys =>
      rw [List.forall_mem_cons] at fits fits'
      rw [List.flatMap_cons, List.flatMap_cons] at same
      obtain ⟨rfl, behind⟩ := codes.eq_of_append_eq fits.1 fits'.1 same
      rw [ih fits.2 fits'.2 behind]

end Codes

end LiveUpdate
