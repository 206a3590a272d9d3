import LiveUpdate.Codec.Decode
import LiveUpdate.Codec.Encode

/-!
# Annotations

Named facts attached to types and members: an annotation type and elements with values,
in the order in which they were declared.
-/

set_option autoImplicit false

namespace LiveUpdate

/-- An annotation: its type and its elements. -/
structure Annotation where
  typeName : String
  elements : List (String × String)
deriving DecidableEq, Inhabited

namespace Annotation

/-- The value of the first element with a name. -/
def get? (a : Annotation) (name : String) : Option String :=
  (a.elements.find? fun e => e.1 = name).map Prod.snd

/-- An element and its value. -/
def encodeElement (e : String × String) : List UInt8 :=
  Encode.string e.1 ++ Encode.string e.2

/-- An annotation: its type and its elements. -/
def encode (a : Annotation) : List UInt8 :=
  Encode.string a.typeName ++ Encode.list encodeElement a.elements

/-- Annotations after their number. -/
def encodeList (annotations : List Annotation) : List UInt8 :=
  Encode.list encode annotations

/-- An element and its value. -/
def decodeElement : Decoder (String × String) := do
  let name ← Decode.string
  let value ← Decode.string
  return (name, value)

/-- An annotation: its type and its elements. -/
def decode : Decoder Annotation := do
  let typeName ← Decode.string
  let elements ← Decode.list decodeElement
  return { typeName, elements }

/-- Annotations after their number. -/
def decodeList : Decoder (List Annotation) := Decode.list decode

end Annotation

end LiveUpdate
