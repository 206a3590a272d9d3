import LiveUpdate.Decimal.Shortest

/-!
# Float text

How a float is written: in values, in the fewest digits and always positionally; inside
a described instruction, with at least one place after the point, and with an exponent
when the number is 10^16 or more or below 10^-4.
-/

set_option autoImplicit false

namespace LiveUpdate

/-- A way of writing the shortest decimal of a float. -/
structure FloatFormat where
  /-- Write a point and a zero when the number is whole. -/
  keepPoint : Bool
  /-- From this power of ten on, and below the next one, an exponent is written. -/
  exponents : Option (Int × Int)

/-- Values are written positionally, whatever their size, and without a point when they
are whole. -/
def valueFormat : FloatFormat := ⟨false, none⟩

/-- A described constant keeps its point, and has an exponent outside 10^-4 to 10^16. -/
def describedFormat : FloatFormat := ⟨true, some (16, -4)⟩

namespace FloatFormat

/-- The digits of a number. -/
def digitsOf (n : Nat) : List Char :=
  Nat.toDigits 10 n

/-- A decimal written positionally. -/
def positional (keepPoint : Bool) (d : Decimal) : List Char :=
  let digits := digitsOf d.digits
  match d.exponent with
  | .ofNat e => digits ++ List.replicate e '0' ++ if keepPoint then ['.', '0'] else []
  | .negSucc e =>
    let places := e + 1
    if places < digits.length then
      digits.take (digits.length - places) ++ '.' :: digits.drop (digits.length - places)
    else '0' :: '.' :: List.replicate (places - digits.length) '0' ++ digits

/-- An integer in decimal, with a sign when it is negative. -/
def integer : Int → List Char
  | .ofNat n => digitsOf n
  | .negSucc n => '-' :: digitsOf (n + 1)

/-- A decimal written with an exponent: one digit before the point. -/
def scientific (d : Decimal) : List Char :=
  let digits := digitsOf d.digits
  let power : Int := d.exponent + (digits.length : Int) - 1
  let mantissa := match digits with
    | [] => []
    | [c] => [c]
    | c :: rest => c :: '.' :: rest
  mantissa ++ 'e' :: integer power

/-- The magnitude of a finite float. -/
def magnitude (format : FloatFormat) (bits : UInt64) : List Char :=
  if Binary64.significand bits = 0 then positional format.keepPoint ⟨0, 0⟩
  else
    let d := Decimal.shortest bits
    let top := d.exponent + ((digitsOf d.digits).length : Int) - 1
    match format.exponents with
    | none => positional format.keepPoint d
    | some (high, low) =>
      if high ≤ top || top < low then scientific d else positional format.keepPoint d

/-- A float as text. -/
def write (format : FloatFormat) (bits : UInt64) : String :=
  if Binary64.isNaN bits then "NaN"
  else
    let sign := if Binary64.isNegative bits then ['-'] else []
    let body := if Binary64.isInfinite bits then ['i', 'n', 'f'] else format.magnitude bits
    String.ofList (sign ++ body)

end FloatFormat

end LiveUpdate
