import LiveUpdate.Engine.Value

/-!
# Operators

Arithmetic and comparison of values.  Integers wrap at 64 bits, and their division
rounds toward zero.  Where a float meets an integer, the integer is taken as a float.
-/

set_option autoImplicit false

namespace LiveUpdate

/-- Two numbers of one sort. -/
inductive Operands
  | ints (a b : Int64)
  | floats (a b : Float)

namespace Value

/-- Two values as numbers of one sort. -/
def operands (e : Engine) : Value → Value → Except RunError Operands
  | int a, int b => .ok (.ints a b)
  | int a, float b => .ok (.floats a.toFloat (.ofBits b))
  | float a, int b => .ok (.floats (.ofBits a) b.toFloat)
  | float a, float b => .ok (.floats (.ofBits a) (.ofBits b))
  | int _, other | float _, other | other, _ => .error (other.mismatch e "number")

/-- Arithmetic on integers. -/
def intArith (op : ArithOp) (a b : Int64) : Except RunError Int64 :=
  match op with
  | .add => .ok (a + b)
  | .sub => .ok (a - b)
  | .mul => .ok (a * b)
  | .div => if b = 0 then .error .divisionByZero else .ok (a / b)
  | .rem => if b = 0 then .error .divisionByZero else .ok (a % b)

/-- Arithmetic on floats. -/
def floatArith (op : ArithOp) (a b : Float) : UInt64 :=
  match op with
  | .add => (a + b).toBits
  | .sub => (a - b).toBits
  | .mul => (a * b).toBits
  | .div => (a / b).toBits
  | .rem => Binary64.remainder a.toBits b.toBits

/-- Arithmetic on two values. -/
def arith (e : Engine) (op : ArithOp) (a b : Value) : Except RunError Value := do
  match ← operands e a b with
  | .ints a b => return int (← intArith op a b)
  | .floats a b => return float (floatArith op a b)

/-- The negative of a number. -/
def negate (e : Engine) : Value → Except RunError Value
  | int n => .ok (int (-n))
  | float bits => .ok (float (bits ^^^ 0x8000000000000000))
  | other => .error (other.mismatch e "number")

/-- The order of two floats; none when one of them is not a number. -/
def floatOrder (a b : Float) : Option Ordering :=
  if a < b then some .lt
  else if a == b then some .eq
  else if b < a then some .gt
  else none

/-- The order of two numbers or two strings; none when it is undefined. -/
def order (e : Engine) : Value → Value → Except RunError (Option Ordering)
  | int a, int b => .ok (some (compare a.toInt b.toInt))
  | int a, float b => .ok (floatOrder a.toFloat (.ofBits b))
  | float a, int b => .ok (floatOrder (.ofBits a) b.toFloat)
  | float a, float b => .ok (floatOrder (.ofBits a) (.ofBits b))
  | str a, str b => .ok (some (compare a b))
  | a, b => .error (.typeMismatch (a.typeName e) (b.typeName e))

/-- Whether a comparison by order holds of two values in an order. -/
def holdsFor (op : CompareOp) (o : Ordering) : Bool :=
  match op with
  | .eq => o.isEq
  | .ne => o.isNe
  | .lt => o.isLT
  | .le => o.isLE
  | .gt => o.isGT
  | .ge => o.isGE

/-- Whether a comparison holds of two values.  Equality is defined for all values, the
rest for numbers and strings; where there is no order, no comparison by order holds. -/
def compareValues (e : Engine) (op : CompareOp) (a b : Value) : Except RunError Bool :=
  match op with
  | .eq => .ok (a.equals b)
  | .ne => .ok (!a.equals b)
  | op => do return (← order e a b).any (holdsFor op)

end Value

end LiveUpdate
