/-!
# Writing binary data

Numbers are written with their lowest byte first.  A string is its length in bytes and
its UTF-8 bytes; an optional string has a presence byte in front; a list has its length
in front.  Lengths take four bytes.
-/

set_option autoImplicit false

namespace LiveUpdate.Encode

/-- The lowest `count` bytes of a number, lowest first. -/
def littleEndian : Nat → Nat → List UInt8
  | 0, _ => []
  | count + 1, n => UInt8.ofNat n :: littleEndian count (n / 256)

/-- One byte. -/
def u8 (n : UInt8) : List UInt8 := [n]

/-- Two bytes. -/
def u16 (n : UInt16) : List UInt8 := littleEndian 2 n.toNat

/-- Four bytes. -/
def u32 (n : UInt32) : List UInt8 := littleEndian 4 n.toNat

/-- A length or count, in four bytes. -/
def count (n : Nat) : List UInt8 := u32 (UInt32.ofNat n)

/-- A 64-bit word: the bits of a float. -/
def word (n : UInt64) : List UInt8 := littleEndian 8 n.toNat

/-- A signed 64-bit integer, in two's complement. -/
def i64 (n : Int64) : List UInt8 := word n.toUInt64

/-- The UTF-8 bytes of a string. -/
def utf8 (s : String) : List UInt8 := s.toUTF8.data.toList

/-- A string after its length in bytes. -/
def string (s : String) : List UInt8 :=
  let bytes := utf8 s
  count bytes.length ++ bytes

/-- A string after a presence byte, or a zero byte. -/
def optString : Option String → List UInt8
  | some s => 1 :: string s
  | none => [0]

/-- Elements after their number. -/
def list {α : Type} (element : α → List UInt8) (xs : List α) : List UInt8 :=
  count xs.length ++ xs.flatMap element

/-- Strings after their number. -/
def strings (xs : List String) : List UInt8 := list string xs

/-- The bytes with the four at `offset` replaced by a number. -/
def patch (bytes : List UInt8) (offset : Nat) (n : UInt32) : List UInt8 :=
  bytes.take offset ++ u32 n ++ bytes.drop (offset + 4)

end LiveUpdate.Encode
