import LiveUpdate.Codec.Error

/-!
# Reading binary data

A reader takes a value off the front of a cursor: the bytes still unread and the offset
of the first of them.  It hands back the cursor on failure too.  Taking bytes that are
not there fails and moves nothing; a reader made of several steps that fails stays where
its failing step began.
-/

set_option autoImplicit false

namespace LiveUpdate

/-- A position in a byte string: the offset and the bytes from there on. -/
structure Cursor where
  offset : Nat
  rest : List UInt8
deriving Inhabited

/-- The start of a byte string. -/
def Cursor.start (bytes : List UInt8) : Cursor := ⟨0, bytes⟩

/-- Readers: they move the cursor, and leave it somewhere when they fail. -/
abbrev Decoder := EStateM DecodeError Cursor

namespace Decode

/-- The first `n` elements and the rest, if there are that many. -/
def splitExactly : Nat → List UInt8 → Option (List UInt8 × List UInt8)
  | 0, bytes => some ([], bytes)
  | _ + 1, [] => none
  | n + 1, b :: bytes =>
    match splitExactly n bytes with
    | some (front, rest) => some (b :: front, rest)
    | none => none

/-- Take exactly `n` bytes. -/
def bytes (n : Nat) : Decoder (List UInt8) := fun cursor =>
  match splitExactly n cursor.rest with
  | some (front, rest) => .ok front ⟨cursor.offset + n, rest⟩
  | none => .error (.unexpectedEnd cursor.offset) cursor

/-- The offset of the next byte. -/
def offset : Decoder Nat := fun cursor => .ok cursor.offset cursor

/-- Give up. -/
def fail {α : Type} (error : DecodeError) : Decoder α := fun cursor => .error error cursor

/-- A number from its bytes, lowest first. -/
def littleEndian : List UInt8 → Nat
  | [] => 0
  | b :: bytes => b.toNat + 256 * littleEndian bytes

/-- One byte. -/
def u8 : Decoder UInt8 := do
  return UInt8.ofNat (littleEndian (← bytes 1))

/-- Two bytes. -/
def u16 : Decoder UInt16 := do
  return UInt16.ofNat (littleEndian (← bytes 2))

/-- Four bytes. -/
def u32 : Decoder UInt32 := do
  return UInt32.ofNat (littleEndian (← bytes 4))

/-- A 64-bit word: the bits of a float. -/
def word : Decoder UInt64 := do
  return UInt64.ofNat (littleEndian (← bytes 8))

/-- A signed 64-bit integer. -/
def i64 : Decoder Int64 := do
  return (← word).toInt64

/-- The string with these UTF-8 bytes, if they are UTF-8. -/
def utf8? (front : List UInt8) : Option String :=
  String.fromUTF8? ⟨front.toArray⟩

/-- A string after its length in bytes. -/
def string : Decoder String := do
  let start ← offset
  let length ← u32
  let front ← bytes length.toNat
  match utf8? front with
  | some s => return s
  | none => fail (.invalidUtf8 start)

/-- A string after a presence byte; any byte but zero says that it is there. -/
def optString : Decoder (Option String) := do
  if (← u8) ≠ 0 then
    return some (← string)
  else
    return none

/-- A given number of elements. -/
def times {α : Type} (element : Decoder α) : Nat → Decoder (List α)
  | 0 => return []
  | n + 1 => do
    let x ← element
    let xs ← times element n
    return x :: xs

/-- Elements after their number. -/
def list {α : Type} (element : Decoder α) : Decoder (List α) := do
  times element (← u32).toNat

/-- Strings after their number. -/
def strings : Decoder (List String) := list string

/-- Read text with a parser; a failure leaves the cursor behind the text. -/
def parsed {α : Type} (parse : String → Except DecodeError α) : Decoder α := do
  match parse (← string) with
  | .ok x => return x
  | .error e => fail e

end Decode

end LiveUpdate
