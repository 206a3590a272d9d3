import LiveUpdate.Shape.Basic

/-!
# Reflection metadata

What reflection reports about one version of a type.  Generated members are never
listed, and the static initializer is not a method.
-/

set_option autoImplicit false

namespace LiveUpdate

/-- A member together with the type that declares it. -/
structure Declared (α : Type) where
  declaring : String
  member : α
deriving DecidableEq, Inhabited

/-- A field as reflection reports it. -/
abbrev FieldInfo := Declared FieldDef

/-- A method or constructor as reflection reports it. -/
abbrev MethodInfo := Declared MethodShape

/-- What reflection reports about one version of a type. -/
structure TypeMetadata where
  name : String
  /-- The version described; 0 for a type that is not managed. -/
  version : Nat
  superName : Option String
  interfaces : List String
  modifiers : Modifiers
  annotations : List Annotation
  fields : List FieldInfo
  /-- The methods, constructors and the static initializer excluded. -/
  methods : List MethodInfo
  constructors : List MethodInfo
deriving DecidableEq, Inhabited

namespace TypeMetadata

/-- The metadata of a version with a shape. -/
def ofShape (shape : TypeShape) (version : Nat) : TypeMetadata :=
  let listed := fun (ms : List MethodShape) =>
    (ms.filter fun m => !m.modifiers.isSynthetic).map fun m => Declared.mk shape.name m
  { name := shape.name
    version
    superName := shape.superName
    interfaces := shape.interfaces
    modifiers := shape.modifiers
    annotations := shape.annotations
    fields := (shape.fields.filter fun f => !f.modifiers.isSynthetic).map (Declared.mk shape.name)
    methods := listed shape.plainMethods
    constructors := listed shape.constructors }

/-- The declared field with a name. -/
def field? (t : TypeMetadata) (name : String) : Option FieldInfo :=
  t.fields.find? fun f => f.member.name = name

/-- The declared method with a key. -/
def method? (t : TypeMetadata) (key : MemberKey) : Option MethodInfo :=
  t.methods.find? fun m => m.member.key = key

/-- The declared constructor with a signature. -/
def constructor? (t : TypeMetadata) (sig : MethodSig) : Option MethodInfo :=
  t.constructors.find? fun m => m.member.sig = sig

/-- The static fields that hold the named instances of an enumeration. -/
def enumConstants (t : TypeMetadata) : List FieldInfo :=
  t.fields.filter fun f => f.member.isStatic && f.member.isEnumConstant

end TypeMetadata

end LiveUpdate
