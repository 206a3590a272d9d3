import LiveUpdate.Machine.Error
import LiveUpdate.Names
import LiveUpdate.SearchOrder
import LiveUpdate.Table
import LiveUpdate.Value

/-!
# Classes

A class is the host's form of a unit.  Everything about it is fixed when it is defined,
except the values of its static fields and the progress of its static initialization:
the slots of its instances, inherited ones first; the table that virtual calls select
from; and the orders in which other classes are searched for members.
-/

set_option autoImplicit false

namespace LiveUpdate

/-- One slot of a class. -/
structure FieldSlot where
  declaring : String
  name : String
  sig : TypeSig
  modifiers : Modifiers
deriving DecidableEq, Inhabited

/-- Whether a slot belongs to the class itself. -/
def FieldSlot.isStatic (slot : FieldSlot) : Bool := slot.modifiers.isStatic

/-- A method bound to the class that declares it. -/
structure Method where
  key : MemberKey
  /-- The modifiers in force. -/
  modifiers : Modifiers
  /-- The modifiers before the engine widened any. -/
  declared : Modifiers
  declaring : String
  maxLocals : UInt16
  code : List Instr
deriving DecidableEq, Inhabited

namespace Method

/-- Whether the method has no receiver. -/
def isStatic (m : Method) : Bool := m.modifiers.isStatic

/-- Whether the method has no body. -/
def isAbstract (m : Method) : Bool := m.modifiers.isAbstract

/-- Whether the method is a constructor. -/
def isConstructor (m : Method) : Bool := m.key.isConstructor

/-- The number of arguments, the receiver included. -/
def argCount (m : Method) : Nat := m.key.sig.arity + if m.isStatic then 0 else 1

/-- Whether a call leaves a value. -/
def returnsValue (m : Method) : Bool := m.key.sig.returnsValue

/-- The name of the method in reports. -/
def text (m : Method) : String := s!"{m.declaring}.{m.key.text}"

/-- Whether virtual calls may select the method. -/
def isSelectable (m : Method) : Bool :=
  !m.isStatic && !m.isConstructor && !m.key.isStaticInit && !m.modifiers.isPrivate

end Method

/-- How far the static initialization of a class has come. -/
inductive InitState
  | pending
  | running
  | done
deriving DecidableEq, Inhabited

/-- What a class is defined from. -/
structure ClassSpec where
  unit : TypeUnit
  parent : Option ClassRef
  interfaces : List ClassRef
  /-- The managed type that the class is the host definition of. -/
  managed : Option TypeId
  /-- The managed type that a generated executor acts for. -/
  standsFor : Option TypeId
  /-- The declared modifiers of members that the engine widened or generated. -/
  declaredAccess : Table MemberKey Modifiers
deriving Inhabited

/-- A plain definition. -/
def ClassSpec.plain (unit : TypeUnit) (parent : Option ClassRef) (interfaces : List ClassRef) :
    ClassSpec :=
  { unit, parent, interfaces, managed := none, standsFor := none, declaredAccess := [] }

/-- A class. -/
structure Class where
  /-- The number of the class in its scope. -/
  id : Nat
  name : String
  parent : Option ClassRef
  interfaces : List ClassRef
  /-- The unit the class was defined from. -/
  unit : TypeUnit
  managed : Option TypeId
  standsFor : Option TypeId
  /-- The superclasses, the nearest first. -/
  superclasses : List ClassRef
  /-- The class, its supertypes, then its interfaces, each once: where methods are looked
  for. -/
  methodOrder : List ClassRef
  /-- The class, its interfaces, then its supertypes, each once: where fields are looked
  for. -/
  fieldOrder : List ClassRef
  /-- The names of the class and of everything it extends or implements. -/
  typeNames : List String
  instanceFields : List FieldSlot
  staticFields : List FieldSlot
  statics : List Value
  methods : Table MemberKey Method
  /-- The methods that virtual calls select. -/
  vtable : Table MemberKey Method
  init : InitState
deriving Inhabited

namespace Class

/-- The slot of a field. -/
def slotOf (name : String) (f : FieldDef) : FieldSlot := ⟨name, f.name, f.sig, f.modifiers⟩

/-- The method of a definition. -/
def bind (name : String) (access : Table MemberKey Modifiers) (m : MethodDef) : Method where
  key := m.key
  modifiers := m.modifiers
  declared := (access.get? m.key).getD m.modifiers
  declaring := name
  maxLocals := m.maxLocals
  code := m.code

/-- The fault of a class that may not extend its parent. -/
def parentFault? (name : String) (parent : Class) : Option LinkFault :=
  if parent.unit.modifiers.isInterface then some (.extendsInterface name parent.name)
  else if parent.unit.modifiers.isFinal then some (.extendsFinal name parent.name)
  else none

/-- The fault of a method that overrides a final one. -/
def overrideFault? (inherited : Table MemberKey Method) (m : Method) : Option LinkFault :=
  match inherited.get? m.key with
  | some above =>
    if above.modifiers.isFinal then some (.overridesFinal m.text above.declaring) else none
  | none => none

/-- The methods that a class is defined with. -/
def methodsOf (spec : ClassSpec) : Table MemberKey Method :=
  Table.putAll [] (spec.unit.methods.map fun m =>
    (m.key, bind spec.unit.name spec.declaredAccess m))

/-- The class at a place, with a number, as it is before any of its code has run. -/
def fresh (place : ClassRef) (id : Nat) (spec : ClassSpec) (parent : Option Class)
    (interfaces : List Class) : Class :=
  let u := spec.unit
  let staticFields := (u.fields.filter FieldDef.isStatic).map (slotOf u.name)
  { id
    name := u.name
    parent := spec.parent
    interfaces := spec.interfaces
    unit := u
    managed := spec.managed
    standsFor := spec.standsFor
    superclasses := spec.parent.toList ++ (parent.map Class.superclasses).getD []
    methodOrder :=
      SearchOrder.joined ([place] :: (parent.toList ++ interfaces).map Class.methodOrder)
    fieldOrder :=
      SearchOrder.joined ([place] :: (interfaces ++ parent.toList).map Class.fieldOrder)
    typeNames :=
      SearchOrder.joined ([u.name] :: (interfaces ++ parent.toList).map Class.typeNames)
    instanceFields := (parent.map Class.instanceFields).getD [] ++
      (u.fields.filter fun f => !f.isStatic).map (slotOf u.name)
    staticFields
    statics := staticFields.map fun slot => .zeroOf slot.sig
    methods := methodsOf spec
    vtable := Table.putAll ((parent.map Class.vtable).getD [])
      ((methodsOf spec).filter fun e => e.2.isSelectable)
    init := .pending }

/-- Define the class at a place, with a number, below its parent and interfaces. -/
def define (place : ClassRef) (id : Nat) (spec : ClassSpec) (parent : Option Class)
    (interfaces : List Class) : Except LinkFault Class := do
  let u := spec.unit
  if let some fault := parent.bind (parentFault? u.name) then throw fault
  if let some other := interfaces.find? fun i => !i.unit.modifiers.isInterface then
    throw (.notInterface other.name)
  let inherited := (parent.map Class.vtable).getD []
  let selectable := (methodsOf spec).filter fun e => e.2.isSelectable
  if let some fault := selectable.findSome? fun e => overrideFault? inherited e.2 then throw fault
  return fresh place id spec parent interfaces

/-- Whether the class is an interface. -/
def isInterface (c : Class) : Bool := c.unit.modifiers.isInterface

/-- Whether the class has no instances of its own. -/
def isAbstract (c : Class) : Bool := c.unit.modifiers.isAbstract || c.isInterface

/-- The method that the class declares under a key. -/
def method? (c : Class) (key : MemberKey) : Option Method := c.methods.get? key

/-- The constructors that the class declares. -/
def constructors (c : Class) : List Method :=
  (c.methods.filter fun e => e.1.isConstructor).map Prod.snd

/-- Whether the class is `name`, or extends or implements it. -/
def isSubtypeOf (c : Class) (name : String) : Bool :=
  name = rootClass || c.typeNames.contains name

/-- The place of the instance slot of a field. -/
def fieldSlot? (c : Class) (declaring name : String) : Option Nat :=
  c.instanceFields.findIdx? fun slot => slot.declaring = declaring ∧ slot.name = name

/-- The place of the static slot of a field. -/
def staticSlot? (c : Class) (name : String) : Option Nat :=
  c.staticFields.findIdx? fun slot => slot.name = name

/-- The field that the class itself declares under a name: its place and its slot.  A
static field comes before an instance field. -/
def ownField? (c : Class) (name : String) : Option (Nat × FieldSlot) :=
  match c.staticSlot? name with
  | some index => c.staticFields[index]?.map fun slot => (index, slot)
  | none =>
    if c.unit.fields.any fun f => f.name = name && !f.isStatic then do
      let index ← c.fieldSlot? c.name name
      let slot ← c.instanceFields[index]?
      some (index, slot)
    else none

end Class

end LiveUpdate
