import LiveUpdate.Unit.Basic

/-!
# Building units

Units are put together from a kind and a list of additions.  Constructors and the static
initializer are methods with reserved names.
-/

set_option autoImplicit false

namespace LiveUpdate.TypeUnit

/-- A public interface without members. -/
def interfaceNamed (name : String) : TypeUnit :=
  { named name with modifiers := .publicBit ||| .interfaceBit ||| .abstractBit }

/-- A public enumeration without members. -/
def enumNamed (name : String) : TypeUnit :=
  { named name with modifiers := .publicBit ||| .finalBit ||| .enumBit }

/-- The unit with a supertype. -/
def extending (u : TypeUnit) (superName : String) : TypeUnit :=
  { u with superName := some superName }

/-- The unit with one more interface. -/
def implementing (u : TypeUnit) (interface : String) : TypeUnit :=
  { u with interfaces := u.interfaces ++ [interface] }

/-- The unit with other modifiers. -/
def withModifiers (u : TypeUnit) (modifiers : Modifiers) : TypeUnit := { u with modifiers }

/-- The unit with one more annotation. -/
def annotated (u : TypeUnit) (a : Annotation) : TypeUnit :=
  { u with annotations := u.annotations ++ [a] }

/-- The unit with a source file. -/
def fromFile (u : TypeUnit) (path : String) : TypeUnit := { u with sourceFile := some path }

/-- The unit with one more field. -/
def addField (u : TypeUnit) (f : FieldDef) : TypeUnit := { u with fields := u.fields ++ [f] }

/-- The unit with one more method. -/
def addMethod (u : TypeUnit) (m : MethodDef) : TypeUnit := { u with methods := u.methods ++ [m] }

/-- The unit with one more public constructor. -/
def addConstructor (u : TypeUnit) (sig : MethodSig) (code : List Instr) : TypeUnit :=
  u.addMethod (.make constructorName sig .publicBit code)

/-- The unit with a constructor without parameters that only calls the supertype's. -/
def addDefaultConstructor (u : TypeUnit) : TypeUnit :=
  let superCall := match u.superName with
    | some owner => [.load 0, .invoke .special ⟨owner, constructorName, .void⟩]
    | none => []
  u.addConstructor .void (superCall ++ [.ret])

/-- The unit with a static initializer. -/
def addStaticInit (u : TypeUnit) (code : List Instr) : TypeUnit :=
  u.addMethod (.make staticInitName .void .staticBit code)

end LiveUpdate.TypeUnit
