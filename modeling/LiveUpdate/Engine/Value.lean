import LiveUpdate.Engine.Basic

/-!
# Values in the heap

The type of a value, its text, and the declared types that it conforms to.  Objects and
arrays carry their types with them in the heap.
-/

set_option autoImplicit false

namespace LiveUpdate

/-- The text of an object: its class and its number, which counts objects from one. -/
def objectText (className : String) (o : ObjectRef) : String :=
  s!"{className}@{String.ofList (Nat.toDigits 16 (o + 1))}"

/-- Whether an array of one element type conforms to an array type of another. -/
def TypeSig.elementConforms (own declared : TypeSig) : Bool :=
  match own, declared with
  | .ref a, .ref b => a = b || b = rootClass
  | a, b => a = b

namespace Value

/-- The name of the type of a value in reports. -/
def typeName (e : Engine) : Value → String
  | null => "null"
  | bool _ => "bool"
  | int _ => "i64"
  | float _ => "f64"
  | str _ => "str"
  | object o => (e.classOf o).name
  | array a => s!"{(e.arrayAt a).element.text}[]"

/-- The text of a value. -/
def text (e : Engine) : Value → String
  | null => "null"
  | bool b => if b then "true" else "false"
  | int n => toString n.toInt
  | float bits => valueFormat.write bits
  | str s => s
  | object o => objectText (e.classOf o).name o
  | array a => s!"{(e.arrayAt a).element.text}[{(e.arrayAt a).items.size}]"

/-- Whether a value may stand where a type is declared. -/
def conforms (e : Engine) (value : Value) (sig : TypeSig) : Bool :=
  match value, sig with
  | null, sig => sig.isReference
  | bool _, .bool | int _, .int | float _, .float | str _, .str => true
  | object o, .ref name => (e.classOf o).isSubtypeOf name
  | array a, .array declared => (e.arrayAt a).element.elementConforms declared
  | str _, .ref name | array _, .ref name => name = rootClass
  | _, _ => false

/-- The error of a value where another type was expected. -/
def mismatch (e : Engine) (value : Value) (expected : String) : RunError :=
  .typeMismatch expected (value.typeName e)

/-- The integer that a value is. -/
def asInt (e : Engine) : Value → Except RunError Int64
  | int n => .ok n
  | other => .error (other.mismatch e "i64")

/-- The float that a value is. -/
def asFloat (e : Engine) : Value → Except RunError UInt64
  | float bits => .ok bits
  | other => .error (other.mismatch e "f64")

/-- The truth value that a value is. -/
def asBool (e : Engine) : Value → Except RunError Bool
  | bool b => .ok b
  | other => .error (other.mismatch e "bool")

/-- Refuse a value that does not conform to a declared type. -/
def checkConforms (e : Engine) (value : Value) (sig : TypeSig) : Except RunError Unit :=
  if value.conforms e sig then .ok () else .error (value.mismatch e sig.text)

end Value

end LiveUpdate
