import LiveUpdate.Codec.Error
import LiveUpdate.Text.Blank

/-!
# Type and method signatures

A type signature is one of five primitive types, a reference to a named type, or an
array.  A method signature lists parameter types and a return type.  Both have a text:
`i64`, `app.Point`, `app.Point[]`, `(i64,app.Point)->void`.  Reading is more lenient than
writing: blanks are allowed around every type.
-/

set_option autoImplicit false

namespace LiveUpdate

/-- The type of a field, parameter, element or result. -/
inductive TypeSig
  | int
  | float
  | bool
  | str
  /-- No value; only a result type. -/
  | void
  /-- A reference to a named type. -/
  | ref (name : String)
  /-- An array of elements. -/
  | array (element : TypeSig)
deriving DecidableEq, Inhabited

namespace TypeSig

/-- The text of a type signature. -/
def chars : TypeSig → List Char
  | int => ['i', '6', '4']
  | float => ['f', '6', '4']
  | bool => ['b', 'o', 'o', 'l']
  | str => ['s', 't', 'r']
  | void => ['v', 'o', 'i', 'd']
  | ref name => name.toList
  | array element => element.chars ++ ['[', ']']

/-- The text of a type signature. -/
def text (sig : TypeSig) : String := String.ofList sig.chars

/-- Characters that no type name contains. -/
def isReserved (c : Char) : Bool :=
  c == '(' || c == ')' || c == ',' || c == ' '

/-- The signature that a text without brackets stands for: a keyword or a type name. -/
def ofName (cs : List Char) : Except DecodeError TypeSig :=
  if cs = int.chars then .ok int
  else if cs = float.chars then .ok float
  else if cs = bool.chars then .ok bool
  else if cs = str.chars then .ok str
  else if cs = void.chars then .ok void
  else if cs.any isReserved then .error (.invalidSignature (String.ofList cs))
  else .ok (ref (String.ofList cs))

/-- Read a type signature from its last character to its first.  Blanks are skipped in
front of every bracket pair and at the end; the text must not start with a blank. -/
def readBackward : List Char → Except DecodeError TypeSig
  | [] => .error (.invalidSignature "")
  | ']' :: '[' :: rest => (readBackward rest).map array
  | c :: rest => if isBlank c then readBackward rest else ofName (c :: rest).reverse

/-- Read a type signature. -/
def read (cs : List Char) : Except DecodeError TypeSig :=
  readBackward (dropBlanks cs).reverse

/-- Read a type signature. -/
def parse (s : String) : Except DecodeError TypeSig := read s.toList

/-- Whether values of the type may be null. -/
def isReference : TypeSig → Bool
  | str | ref _ | array _ => true
  | _ => false

/-- The name of a referenced type. -/
def refName? : TypeSig → Option String
  | ref name => some name
  | _ => none

end TypeSig

/-- Parameter types, the receiver excluded, and the result type. -/
structure MethodSig where
  params : List TypeSig
  result : TypeSig
deriving DecidableEq, Inhabited

namespace MethodSig

/-- The signature of a method that takes and gives nothing. -/
def void : MethodSig := ⟨[], .void⟩

/-- Texts with a comma between each two. -/
def commaSeparated : List (List Char) → List Char
  | [] => []
  | [cs] => cs
  | cs :: rest => cs ++ ',' :: commaSeparated rest

/-- The text of a method signature. -/
def chars (sig : MethodSig) : List Char :=
  '(' :: commaSeparated (sig.params.map TypeSig.chars) ++ ')' :: '-' :: '>' :: sig.result.chars

/-- The text of a method signature. -/
def text (sig : MethodSig) : String := String.ofList sig.chars

/-- The text in front of the first closing arrow, and the text behind it. -/
def splitArrow : List Char → Option (List Char × List Char)
  | [] => none
  | ')' :: '-' :: '>' :: rest => some ([], rest)
  | c :: rest => (splitArrow rest).map fun (front, back) => (c :: front, back)

/-- The pieces of a text between commas; at least one. -/
def splitCommas : List Char → List (List Char)
  | [] => [[]]
  | c :: rest =>
    if c = ',' then [] :: splitCommas rest
    else match splitCommas rest with
      | [] => [[c]]
      | piece :: pieces => (c :: piece) :: pieces

/-- Read the parameter list between the parentheses. -/
def readParams (cs : List Char) : Except DecodeError (List TypeSig) :=
  if (dropBlanks cs).isEmpty then .ok [] else (splitCommas cs).mapM TypeSig.read

/-- Read a method signature.  A text without the parentheses and the arrow is refused
as a whole, one with an unreadable type by that type. -/
def read (cs : List Char) : Except DecodeError MethodSig :=
  match trimBlanks cs with
  | '(' :: rest =>
    match splitArrow rest with
    | some (front, back) => do
      let params ← readParams front
      let result ← TypeSig.read back
      return ⟨params, result⟩
    | none => .error (.invalidSignature (String.ofList cs))
  | _ => .error (.invalidSignature (String.ofList cs))

/-- Read a method signature. -/
def parse (s : String) : Except DecodeError MethodSig := read s.toList

/-- The number of parameters. -/
def arity (sig : MethodSig) : Nat := sig.params.length

/-- The signature with the receiver as an explicit first parameter. -/
def withReceiver (sig : MethodSig) (receiver : String) : MethodSig :=
  ⟨.ref receiver :: sig.params, sig.result⟩

/-- Whether a call with this signature leaves a value. -/
def returnsValue (sig : MethodSig) : Bool := sig.result ≠ .void

end MethodSig

/-- The name of instance constructors. -/
def constructorName : String := "<init>"

/-- The name of the static initializer. -/
def staticInitName : String := "<clinit>"

/-- What identifies a method within a type: its name and its signature. -/
structure MemberKey where
  name : String
  sig : MethodSig
deriving DecidableEq, Inhabited

namespace MemberKey

/-- The text of a member key: the name and the signature. -/
def text (key : MemberKey) : String := key.name ++ key.sig.text

/-- Whether the key is that of a constructor. -/
def isConstructor (key : MemberKey) : Bool := key.name = constructorName

/-- Whether the key is that of the static initializer. -/
def isStaticInit (key : MemberKey) : Bool := key.name = staticInitName

/-- The key of the static initializer. -/
def staticInit : MemberKey := ⟨staticInitName, .void⟩

end MemberKey

/-- The package of a type name: what stands before its last point, if it has one. -/
def packageOf (name : String) : String :=
  String.ofList ((name.toList.reverse.dropWhile (· ≠ '.')).drop 1).reverse

end LiveUpdate
