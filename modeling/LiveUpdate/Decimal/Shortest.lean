import LiveUpdate.Decimal.Binary64

/-!
# The shortest decimal that reads back

Of all decimals that round to a given float, the one with the fewest digits is written,
and of those the nearest to the float.  For one digit, two digits and so on, the two
neighbours of the exact value on that decimal grid are tested against the interval of
reals that round to the float; its ends belong to it when the float's integer is even.
Seventeen digits always suffice.
-/

set_option autoImplicit false

namespace LiveUpdate

/-- A positive decimal: an integer and a power of ten. -/
structure Decimal where
  digits : Nat
  exponent : Int
deriving Inhabited

namespace Decimal

/-- A power of ten as a fraction: numerator and denominator. -/
def powerOfTen (e : Int) : Nat × Nat :=
  (Nat.pow 10 e.toNat, Nat.pow 10 (-e).toNat)

/-- The position of the first digit of a fraction below one: the least `j` above `from`
with `num · 10 ^ j ≥ den`, searched for `fuel` steps. -/
def leadingPlace (den : Nat) : Nat → Nat → Nat → Nat
  | 0, _, j => j
  | fuel + 1, num, j => if den ≤ num * 10 then j + 1 else leadingPlace den fuel (num * 10) (j + 1)

/-- The exponent of the first digit of a positive fraction. -/
def magnitude (num den : Nat) : Int :=
  if den ≤ num then ((Nat.toDigits 10 (num / den)).length : Int) - 1
  else -(leadingPlace den 400 num 0 : Int)

/-- The decimal without the zeros its digits end in. -/
def dropZeros : Nat → Decimal → Decimal
  | 0, d => d
  | fuel + 1, d =>
    if d.digits ≠ 0 ∧ d.digits % 10 = 0 then dropZeros fuel ⟨d.digits / 10, d.exponent + 1⟩
    else d

/-- The interval of reals that round to a float, in quarters of its last place:
the value, the two ends, the last place as a fraction, and whether the ends belong. -/
structure Rounding where
  value : Nat
  low : Nat
  high : Nat
  num : Nat
  den : Nat
  closed : Bool

/-- The rounding interval of a positive finite float.  Below a power of two the floats
lie twice as close. -/
def Rounding.ofBits (bits : UInt64) : Rounding :=
  let m := Binary64.significand bits
  let narrow := Binary64.fraction bits = 0 ∧ 1 < Binary64.exponentField bits
  let e : Int := (Binary64.scale bits : Int) - 1076
  { value := 4 * m
    low := if narrow then 4 * m - 1 else 4 * m - 2
    high := 4 * m + 2
    num := Nat.pow 2 e.toNat
    den := Nat.pow 2 (-e).toNat
    closed := m % 2 = 0 }

/-- Whether `c` units of size `up / down` lie in the interval. -/
def Rounding.holds (r : Rounding) (c up down : Nat) : Bool :=
  let x := c * up * r.den
  let low := r.low * r.num * down
  let high := r.high * r.num * down
  if r.closed then low ≤ x && x ≤ high else low < x && x < high

/-- The neighbour of the value on the grid of `n` digits that rounds to the float: of two
the nearer, and the upper one when they are equally near. -/
def Rounding.onGrid (r : Rounding) (top : Int) (n : Nat) : Option Decimal :=
  let e := top - (n : Int) + 1
  let (up, down) := powerOfTen e
  let exact := r.value * r.num * down
  let unit := up * r.den
  let c := exact / unit
  let below := r.holds c up down
  let above := r.holds (c + 1) up down
  if above && (!below || unit ≤ 2 * (exact % unit)) then some ⟨c + 1, e⟩
  else if below then some ⟨c, e⟩
  else none

/-- The first grid with a neighbour that rounds to the float. -/
def Rounding.firstGrid (r : Rounding) (top : Int) : List Nat → Decimal
  | [] => ⟨r.value * r.num / r.den, 0⟩
  | n :: rest => (r.onGrid top n).getD (r.firstGrid top rest)

/-- The shortest decimal that reads back as a positive finite float. -/
def shortest (bits : UInt64) : Decimal :=
  let r := Rounding.ofBits bits
  let top := magnitude (r.value * r.num) r.den
  dropZeros 400 (r.firstGrid top (List.range' 1 17))

end Decimal

end LiveUpdate
