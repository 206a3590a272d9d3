/-!
# Modifiers

A set of bits shared by types, fields and methods.  Visibility is read off three of
them: public wins over private, private over protected, and a member with none of the
three is visible in its package.
-/

set_option autoImplicit false

namespace LiveUpdate

/-- Who may use a member: everyone (public), the package and every subtype
(protected), the package, or the declaring type alone (private). -/
inductive Visibility
  | everyone
  | heirs
  | package
  | owner
deriving DecidableEq, Inhabited

namespace Visibility

/-- The place of a visibility in the order from least to most restrictive. -/
def rank : Visibility → Nat
  | everyone => 0
  | heirs => 1
  | package => 2
  | owner => 3

/-- The name of a visibility. -/
def name : Visibility → String
  | everyone => "Public"
  | heirs => "Protected"
  | package => "Package"
  | owner => "Private"

end Visibility

/-- A set of modifier bits. -/
structure Modifiers where
  bits : UInt32
deriving DecidableEq, Inhabited

namespace Modifiers

/-- Usable from anywhere. -/
def publicBit : Modifiers := ⟨1⟩
/-- Usable by the declaring type only. -/
def privateBit : Modifiers := ⟨2⟩
/-- Usable by subtypes and in the package. -/
def protectedBit : Modifiers := ⟨4⟩
/-- Belongs to the type and not to an instance. -/
def staticBit : Modifiers := ⟨8⟩
/-- Cannot be extended or overridden. -/
def finalBit : Modifiers := ⟨16⟩
/-- Has no body, or no instances of its own. -/
def abstractBit : Modifiers := ⟨32⟩
/-- An interface. -/
def interfaceBit : Modifiers := ⟨64⟩
/-- A type with a fixed set of named instances. -/
def enumBit : Modifiers := ⟨128⟩
/-- A field that holds one of the named instances. -/
def enumConstantBit : Modifiers := ⟨256⟩
/-- Generated, and hidden from reflection. -/
def syntheticBit : Modifiers := ⟨512⟩
/-- Generated to catch calls of an inherited method. -/
def catcherBit : Modifiers := ⟨1024⟩
/-- Generated to reach an inherited implementation. -/
def superDispatcherBit : Modifiers := ⟨2048⟩

/-- No modifier: visible in the package. -/
def empty : Modifiers := ⟨0⟩

/-- Whether all bits of `other` are set. -/
def contains (m other : Modifiers) : Bool := m.bits &&& other.bits = other.bits

/-- The bits of both. -/
def union (m other : Modifiers) : Modifiers := ⟨m.bits ||| other.bits⟩

/-- The bits of `m` that are not in `other`. -/
def without (m other : Modifiers) : Modifiers := ⟨m.bits &&& ~~~ other.bits⟩

instance : OrOp Modifiers := ⟨union⟩

/-- The effective visibility. -/
def visibility (m : Modifiers) : Visibility :=
  if m.contains publicBit then .everyone
  else if m.contains privateBit then .owner
  else if m.contains protectedBit then .heirs
  else .package

/-- The set with its visibility bits replaced. -/
def withVisibility (m : Modifiers) (v : Visibility) : Modifiers :=
  let base := m.without (publicBit ||| privateBit ||| protectedBit)
  match v with
  | .everyone => base ||| publicBit
  | .heirs => base ||| protectedBit
  | .package => base
  | .owner => base ||| privateBit

/-- A static member. -/
def isStatic (m : Modifiers) : Bool := m.contains staticBit
/-- A private member. -/
def isPrivate (m : Modifiers) : Bool := m.contains privateBit
/-- A final type or member. -/
def isFinal (m : Modifiers) : Bool := m.contains finalBit
/-- An abstract type or method. -/
def isAbstract (m : Modifiers) : Bool := m.contains abstractBit
/-- An interface. -/
def isInterface (m : Modifiers) : Bool := m.contains interfaceBit
/-- An enumeration. -/
def isEnum (m : Modifiers) : Bool := m.contains enumBit
/-- A generated member. -/
def isSynthetic (m : Modifiers) : Bool := m.contains syntheticBit

/-- The set without the marks of generated forwarding members. -/
def sourceVisible (m : Modifiers) : Modifiers :=
  (m.without catcherBit).without superDispatcherBit

/-- The word for the effective visibility; package visibility has none. -/
def visibilityWords (m : Modifiers) : List String :=
  match m.visibility with
  | .everyone => ["public"]
  | .heirs => ["protected"]
  | .owner => ["private"]
  | .package => []

/-- The modifiers in words, the visibility first. -/
def text (m : Modifiers) : String :=
  let named := [(staticBit, "static"), (finalBit, "final"), (abstractBit, "abstract"),
    (interfaceBit, "interface"), (enumBit, "enum"), (syntheticBit, "synthetic")]
  let words := m.visibilityWords ++ (named.filter fun w => m.contains w.1).map Prod.snd
  " ".intercalate words

end Modifiers

end LiveUpdate
