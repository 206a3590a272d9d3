import LiveUpdate.Annotation
import LiveUpdate.Instruction.Basic
import LiveUpdate.Modifiers

/-!
# Compiled units

A compiled unit is one type definition: its name, supertype, interfaces, fields and
methods, with the code of every method that has a body.
-/

set_option autoImplicit false

namespace LiveUpdate

/-- A field of a unit. -/
structure FieldDef where
  name : String
  sig : TypeSig
  modifiers : Modifiers
  /-- The generic signature of a parameterized type. -/
  generic : Option String
  annotations : List Annotation
deriving DecidableEq, Inhabited

/-- Whether a field belongs to the type itself. -/
def FieldDef.isStatic (f : FieldDef) : Bool := f.modifiers.isStatic

/-- A method, constructor or static initializer of a unit. -/
structure MethodDef where
  name : String
  /-- The signature, without the receiver. -/
  sig : MethodSig
  modifiers : Modifiers
  annotations : List Annotation
  /-- The types the method may throw. -/
  throws : List String
  /-- The number of local slots, receiver and parameters included. -/
  maxLocals : UInt16
  /-- The body; empty for an abstract method. -/
  code : List Instr
deriving DecidableEq, Inhabited

namespace MethodDef

/-- What identifies a method within its type. -/
def key (m : MethodDef) : MemberKey := ⟨m.name, m.sig⟩

/-- Whether the method is a constructor. -/
def isConstructor (m : MethodDef) : Bool := m.name = constructorName

/-- Whether the method is the static initializer. -/
def isStaticInit (m : MethodDef) : Bool := m.name = staticInitName

/-- Whether the method has no receiver. -/
def isStatic (m : MethodDef) : Bool := m.modifiers.isStatic

/-- The number of local slots that a receiver and parameters take. -/
def slotsFor (sig : MethodSig) (modifiers : Modifiers) : Nat :=
  sig.arity + if modifiers.isStatic then 0 else 1

/-- The number of local slots that the receiver and the parameters take. -/
def paramSlots (m : MethodDef) : Nat := slotsFor m.sig m.modifiers

/-- The number of local slots that an instruction reaches into. -/
def slotsTouched : Instr → Nat
  | .load i | .store i => (i + 1).toNat
  | _ => 0

/-- A method with a body and with as many local slots as its parameters and its body
need. -/
def make (name : String) (sig : MethodSig) (modifiers : Modifiers) (code : List Instr) :
    MethodDef where
  name := name
  sig := sig
  modifiers := modifiers
  annotations := []
  throws := []
  maxLocals :=
    let params := (UInt16.ofNat (slotsFor sig modifiers)).toNat
    UInt16.ofNat ((code.map slotsTouched).foldl max params)
  code := code

/-- The method without its body. -/
def outline (m : MethodDef) : MethodDef := { m with code := [] }

/-- The place of the constructor call that ends the part in which the receiver is not
yet an object. -/
def superInitIndex? (m : MethodDef) : Option Nat :=
  m.code.findIdx? Instr.callsConstructor

end MethodDef

/-- One type definition. -/
structure TypeUnit where
  /-- The four bytes that every unit starts with. -/
  magic : UInt32
  version : UInt32
  flags : UInt32
  name : String
  /-- The supertype; roots and interfaces have none. -/
  superName : Option String
  interfaces : List String
  modifiers : Modifiers
  annotations : List Annotation
  sourceFile : Option String
  fields : List FieldDef
  methods : List MethodDef
deriving DecidableEq, Inhabited

namespace TypeUnit

/-- The characters `RVIV`, lowest byte first. -/
def currentMagic : UInt32 := 0x56495652

/-- The version of the format. -/
def currentVersion : UInt32 := 1

/-- The flag of units that the engine has instrumented or generated. -/
def instrumentedFlag : UInt32 := 1

/-- The flag of generated executors. -/
def executorFlag : UInt32 := 2

/-- The flag of generated contracts. -/
def contractFlag : UInt32 := 4

/-- A public class without members. -/
def named (name : String) : TypeUnit where
  magic := currentMagic
  version := currentVersion
  flags := 0
  name := name
  superName := none
  interfaces := []
  modifiers := .publicBit
  annotations := []
  sourceFile := none
  fields := []
  methods := []

/-- Whether the unit defines an interface. -/
def isInterface (u : TypeUnit) : Bool := u.modifiers.isInterface

/-- Whether the unit defines an enumeration. -/
def isEnum (u : TypeUnit) : Bool := u.modifiers.isEnum

/-- Whether the engine has instrumented or generated the unit. -/
def isInstrumented (u : TypeUnit) : Bool := u.flags &&& instrumentedFlag ≠ 0

/-- Whether the unit is a generated executor or contract. -/
def isGenerated (u : TypeUnit) : Bool := u.flags &&& (executorFlag ||| contractFlag) ≠ 0

/-- The unit, marked as instrumented by the engine. -/
def markInstrumented (u : TypeUnit) : TypeUnit := { u with flags := u.flags ||| instrumentedFlag }

/-- The field with a name. -/
def field? (u : TypeUnit) (name : String) : Option FieldDef :=
  u.fields.find? fun f => f.name = name

/-- The method with a key. -/
def method? (u : TypeUnit) (key : MemberKey) : Option MethodDef :=
  u.methods.find? fun m => m.key = key

/-- The static initializer. -/
def staticInitializer? (u : TypeUnit) : Option MethodDef :=
  u.methods.find? MethodDef.isStaticInit

/-- The constructors, in the order in which they are declared. -/
def constructors (u : TypeUnit) : List MethodDef :=
  u.methods.filter MethodDef.isConstructor

/-- What is wrong with the header or the name, if anything is. -/
def headerFault? (u : TypeUnit) : Option String :=
  if u.magic ≠ currentMagic then some "Invalid magic number"
  else if u.version ≠ currentVersion then some s!"Unsupported version: {u.version.toNat}"
  else if u.name.isEmpty then some "Empty type name"
  else none

/-- The unit without the bodies of its methods. -/
def outline (u : TypeUnit) : TypeUnit :=
  { u with methods := u.methods.map MethodDef.outline }

/-- Whether two bodies are equal when float constants are compared as numbers. -/
def codeAgrees : List Instr → List Instr → Bool
  | [], [] => true
  | x :: xs, y :: ys => x.agrees y && codeAgrees xs ys
  | _, _ => false

/-- Whether two units are equal when float constants are compared as numbers: a unit
with a constant that is not a number agrees with nothing, not even with itself. -/
def agrees (u v : TypeUnit) : Bool :=
  u.outline = v.outline &&
    (u.methods.zip v.methods).all fun (m, n) => codeAgrees m.code n.code

end TypeUnit

end LiveUpdate
