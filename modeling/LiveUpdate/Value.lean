import LiveUpdate.Decimal.FloatText
import LiveUpdate.Signature.Basic

/-!
# Values

A value is null, a truth value, an integer, a float, a string, or a reference to an
object or an array in the heap.  References are equal when they name the same place;
floats are equal as numbers.
-/

set_option autoImplicit false

namespace LiveUpdate

/-- The place of a class among all classes. -/
abbrev ClassRef := Nat
/-- The place of an object in the heap. -/
abbrev ObjectRef := Nat
/-- The place of an array in the heap. -/
abbrev ArrayRef := Nat

/-- The name that every object is assignable to. -/
def rootClass : String := "core.Object"

/-- A value. -/
inductive Value
  | null
  | bool (b : Bool)
  | int (n : Int64)
  /-- A float by its bits. -/
  | float (bits : UInt64)
  | str (s : String)
  | object (o : ObjectRef)
  | array (a : ArrayRef)
deriving DecidableEq, Inhabited

namespace Value

/-- The value of a field or element of a type before anything is written to it. -/
def zeroOf : TypeSig → Value
  | .int => .int 0
  | .float => .float 0
  | .bool => .bool false
  | _ => .null

/-- Whether the value is null. -/
def isNull : Value → Bool
  | null => true
  | _ => false

/-- Whether running code finds two values equal. -/
def equals : Value → Value → Bool
  | float a, float b => Binary64.sameNumber a b
  | a, b => a = b

/-- The text of a string value. -/
def string? : Value → Option String
  | str s => some s
  | _ => none

/-- The object a value refers to. -/
def object? : Value → Option ObjectRef
  | object o => some o
  | _ => none

/-- The array a value refers to. -/
def array? : Value → Option ArrayRef
  | array a => some a
  | _ => none

end Value

end LiveUpdate
