import LiveUpdate.Unit.Codec

/-!
# Shapes of types

The shape of one version of a type is what two versions are compared by: the type's
supertype, interfaces, modifiers and annotations, its fields, and its methods with the
digests of their bodies.  The order of interfaces and of thrown types is not part of it,
so both are kept sorted.
-/

set_option autoImplicit false

namespace LiveUpdate

/-- The shape of a method or constructor. -/
structure MethodShape where
  name : String
  sig : MethodSig
  modifiers : Modifiers
  annotations : List Annotation
  /-- The types the method may throw, sorted and without repetition. -/
  throws : List String
  /-- The digest of the body, if there is one. -/
  codeDigest : Option (List UInt8)
deriving DecidableEq, Inhabited

namespace MethodShape

/-- Strings in increasing order. -/
def sorted (xs : List String) : List String :=
  xs.mergeSort fun a b => decide (a ≤ b)

/-- The shape of a method. -/
def ofDef (m : MethodDef) : MethodShape where
  name := m.name
  sig := m.sig
  modifiers := m.modifiers
  annotations := m.annotations
  throws := (sorted m.throws).eraseReps
  codeDigest := if m.code.isEmpty then none else some (Sha256.digest m.codeBytes)

/-- What identifies the method within its type. -/
def key (m : MethodShape) : MemberKey := ⟨m.name, m.sig⟩

/-- Whether the method has no receiver. -/
def isStatic (m : MethodShape) : Bool := m.modifiers.isStatic

/-- Whether the method is a constructor. -/
def isConstructor (m : MethodShape) : Bool := m.key.isConstructor

/-- Whether the method is the static initializer. -/
def isStaticInit (m : MethodShape) : Bool := m.key.isStaticInit

/-- Whether the method has no body. -/
def isAbstract (m : MethodShape) : Bool := m.modifiers.isAbstract

/-- Whether the method is neither a constructor nor the static initializer. -/
def isPlain (m : MethodShape) : Bool := !m.isConstructor && !m.isStaticInit

/-- Whether a subtype may put another method in the place of this one. -/
def isOverridable (m : MethodShape) : Bool :=
  !m.isStatic && !m.modifiers.isPrivate && !m.modifiers.isFinal && m.isPlain

end MethodShape

/-- Whether a field holds one of the named instances of an enumeration. -/
def FieldDef.isEnumConstant (f : FieldDef) : Bool := f.modifiers.contains .enumConstantBit

/-- Why a unit has no shape. -/
inductive ShapeError
  /-- The bytes are not a unit. -/
  | unit (error : UnitError)
  | invalid (name reason : String)
deriving DecidableEq, Inhabited

/-- The report of a shape error. -/
def ShapeError.message : ShapeError → String
  | unit e => s!"Malformed unit: {e.message}"
  | invalid name reason => s!"Invalid type {name}: {reason}"

/-- The shape of one version of a type. -/
structure TypeShape where
  name : String
  superName : Option String
  /-- The interfaces, sorted. -/
  interfaces : List String
  modifiers : Modifiers
  annotations : List Annotation
  /-- The fields, in the order in which they are declared. -/
  fields : List FieldDef
  /-- The methods, in the order in which they are declared. -/
  methods : List MethodShape
deriving DecidableEq, Inhabited

namespace TypeShape

/-- The shape of a unit, whatever the unit is. -/
def ofUnit (u : TypeUnit) : TypeShape where
  name := u.name
  superName := u.superName
  interfaces := MethodShape.sorted u.interfaces
  modifiers := u.modifiers
  annotations := u.annotations
  fields := u.fields
  methods := u.methods.map MethodShape.ofDef

/-- The shape of a unit that describes a usable type. -/
def extract (u : TypeUnit) : Except ShapeError TypeShape :=
  if u.name.isEmpty then .error (.invalid u.name "empty type name")
  else if u.superName = some u.name then .error (.invalid u.name "type extends itself")
  else if u.fields.any fun f => f.sig = .void then
    .error (.invalid u.name "field of type void")
  else .ok (ofUnit u)

/-- The unit with these bytes, and its shape. -/
def ofBytes (data : List UInt8) : Except ShapeError (TypeUnit × TypeShape) :=
  match TypeUnit.decode data with
  | .error e => .error (.unit e)
  | .ok u => do
    let shape ← extract u
    return (u, shape)

/-- Whether the type is an interface. -/
def isInterface (s : TypeShape) : Bool := s.modifiers.isInterface

/-- Whether the type is an enumeration. -/
def isEnum (s : TypeShape) : Bool := s.modifiers.isEnum

/-- The field with a name. -/
def field? (s : TypeShape) (name : String) : Option FieldDef :=
  s.fields.find? fun f => f.name = name

/-- The method with a key. -/
def method? (s : TypeShape) (key : MemberKey) : Option MethodShape :=
  s.methods.find? fun m => m.key = key

/-- The constructors. -/
def constructors (s : TypeShape) : List MethodShape := s.methods.filter MethodShape.isConstructor

/-- The methods that are neither constructors nor the static initializer. -/
def plainMethods (s : TypeShape) : List MethodShape := s.methods.filter MethodShape.isPlain

/-- The static initializer. -/
def staticInitializer? (s : TypeShape) : Option MethodShape :=
  s.methods.find? MethodShape.isStaticInit

/-- The fields that hold the named instances of an enumeration. -/
def enumConstants (s : TypeShape) : List FieldDef := s.fields.filter FieldDef.isEnumConstant

end TypeShape

end LiveUpdate
