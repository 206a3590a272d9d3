/-!
# Binary floating-point numbers as exact values

A float is kept as its 64 bits, so that constants survive unchanged whatever they are.
This module reads the bits as an exact value `m · 2 ^ q` and writes such a value back;
the remainder of a division is computed on exact values, since it is always
representable.
-/

set_option autoImplicit false

namespace LiveUpdate.Binary64

/-- The sign bit. -/
def isNegative (bits : UInt64) : Bool :=
  bits >>> 63 = 1

/-- The eleven exponent bits. -/
def exponentField (bits : UInt64) : Nat :=
  (bits >>> 52).toNat % 2048

/-- The fifty-two fraction bits. -/
def fraction (bits : UInt64) : Nat :=
  bits.toNat % Nat.pow 2 52

/-- Not a number: all exponent bits set and some fraction bit. -/
def isNaN (bits : UInt64) : Bool :=
  exponentField bits = 2047 && fraction bits ≠ 0

/-- One of the two infinities. -/
def isInfinite (bits : UInt64) : Bool :=
  exponentField bits = 2047 && fraction bits = 0

/-- The integer `m` of a finite number's magnitude `m · 2 ^ (scale - 1074)`. -/
def significand (bits : UInt64) : Nat :=
  if exponentField bits = 0 then fraction bits else Nat.pow 2 52 + fraction bits

/-- The exponent of a finite number's magnitude, counted from the smallest one. -/
def scale (bits : UInt64) : Nat :=
  exponentField bits - 1

/-- Equality as numbers: the two zeros are equal, and no NaN equals anything. -/
def sameNumber (a b : UInt64) : Bool :=
  Float.ofBits a == Float.ofBits b

/-- The bits of the magnitude `m · 2 ^ (s - 1074)`, which must be representable. -/
def ofExact (m s : Nat) : Nat :=
  let size := Nat.log2 m
  if m = 0 then 0
  else if size + s ≤ 51 then m * Nat.pow 2 s
  else if size ≤ 52 then
    if 52 - size ≤ s then (s - (52 - size)) * Nat.pow 2 52 + m * Nat.pow 2 (52 - size)
    else m * Nat.pow 2 s
  else (s + (size - 52)) * Nat.pow 2 52 + m / Nat.pow 2 (size - 52)

/-- The remainder of a division that truncates, with the sign of the dividend. -/
def remainder (x y : UInt64) : UInt64 :=
  if isNaN x || isNaN y || isInfinite x || (y <<< 1) = 0 then 0x7ff8000000000000
  else if isInfinite y then x
  else
    let s := min (scale x) (scale y)
    let m := (significand x * Nat.pow 2 (scale x - s)) % (significand y * Nat.pow 2 (scale y - s))
    (x &&& 0x8000000000000000) ||| UInt64.ofNat (ofExact m s)

end LiveUpdate.Binary64
