import LiveUpdate.Live.Member
import LiveUpdate.Reflect.Metadata

/-!
# The engine

The state of the engine: the heap of objects and arrays, the classes, the managed types
with their versions, and the scopes with the tables of names that they share.  Classes,
objects, arrays, types and scopes are named by their places and never removed; what a
scope forgets is only taken out of the scope's tables.
-/

set_option autoImplicit false

namespace LiveUpdate

/-- The place of a table of names. -/
abbrev RegistryRef := Nat

/-- An instance of a class. -/
structure Object where
  cls : ClassRef
  /-- The values of the slots of the class. -/
  slots : List Value
  /-- The values of fields without a slot, from the first use on. -/
  store : Option FieldStore
deriving DecidableEq, Inhabited

/-- An array of fixed length. -/
structure ArrayCell where
  element : TypeSig
  items : Array Value
deriving DecidableEq, Inhabited

/-- A reload that is about to happen or has happened. -/
structure ReloadEvent where
  typeName : String
  /-- The host class of the type. -/
  native : ClassRef
  stamp : String
  /-- The number of the version. -/
  version : Nat
deriving DecidableEq, Inhabited

/-- The occasions on which an observer is called. -/
inductive ObserverCall
  | before
  /-- The question whether the static initializer is to run again. -/
  | rerun
  | after
deriving DecidableEq, Inhabited

/-- One call of an observer. -/
structure Callback where
  observer : String
  call : ObserverCall
  event : ReloadEvent
deriving DecidableEq, Inhabited

/-- An observer of reloads. -/
structure Observer where
  /-- What its calls are recorded under; the calls of an observer without a name are not. -/
  name : Option String
  /-- The objection to a reload that is about to happen; it stops the reload. -/
  before : ReloadEvent → Option String
  /-- The complaint about a reload that has happened. -/
  after : ReloadEvent → Option String
  /-- Whether the static initializer is to run again. -/
  rerun : ReloadEvent → Bool
deriving Inhabited

/-- What the remembered answer about an invocation is found by: the number that the guard
names, and what is invoked. -/
abbrev RouteKey := TypeId × InvokeKind × MemberKey

/-- A scope: one namespace of classes and managed types. -/
structure Scope where
  options : Options
  filter : TypeFilter
  registry : RegistryRef
  classes : Table String ClassRef
  nextClassId : Nat
  types : Table TypeId TypeRef
  observers : List Observer
  /-- The number of reloads published in the scope. -/
  epoch : Nat
  routes : Table RouteKey CachedRoute
  /-- Reflection metadata that has been asked for. -/
  metadata : Table String TypeMetadata
  /-- Whether the scope is still in use. -/
  isOpen : Bool
deriving Inhabited

/-- An empty scope. -/
def Scope.empty (options : Options) (filter : TypeFilter) (registry : RegistryRef) : Scope where
  options := options
  filter := filter
  registry := registry
  classes := []
  nextClassId := 0
  types := []
  observers := []
  epoch := 0
  routes := []
  metadata := []
  isOpen := true

/-- Whether a unit becomes a managed type: a class that is neither generated nor a system
type, and that the options include. -/
def Scope.isEligible (s : Scope) (u : TypeUnit) : Bool :=
  !u.isGenerated && !u.isInterface && !u.modifiers.isSynthetic &&
    !s.options.isSystemType u.name && s.filter.isEligible u.name

/-- The state of the engine. -/
structure Engine where
  classes : Array Class := #[]
  objects : Array Object := #[]
  arrays : Array ArrayCell := #[]
  types : Array ManagedType := #[]
  scopes : Array Scope := #[]
  registries : Array NameTable := #[]
  /-- How many calls are running. -/
  depth : Nat := 0
  /-- The calls of observers so far, oldest first. -/
  trace : List Callback := []
deriving Inhabited

namespace Engine

variable (e : Engine)

/-- The class at a place. -/
def classAt (c : ClassRef) : Class := e.classes.getD c default

/-- The name of a class. -/
def nameOf (c : ClassRef) : String := (e.classAt c).name

/-- The object at a place. -/
def objectAt (o : ObjectRef) : Object := e.objects.getD o default

/-- The array at a place. -/
def arrayAt (a : ArrayRef) : ArrayCell := e.arrays.getD a default

/-- The managed type at a place. -/
def typeAt (t : TypeRef) : ManagedType := e.types.getD t default

/-- The scope at a place. -/
def scopeAt (s : ScopeRef) : Scope := e.scopes.getD s default

/-- The names that have numbers in a scope. -/
def namesOf (s : ScopeRef) : NameTable := e.registries.getD (e.scopeAt s).registry default

/-- The class of an object. -/
def classOf (o : ObjectRef) : Class := e.classAt (e.objectAt o).cls

/-- The engine with a class changed. -/
def updateClass (c : ClassRef) (f : Class → Class) : Engine :=
  { e with classes := e.classes.modify c f }

/-- The engine with an object changed. -/
def updateObject (o : ObjectRef) (f : Object → Object) : Engine :=
  { e with objects := e.objects.modify o f }

/-- The engine with an array changed. -/
def updateArray (a : ArrayRef) (f : ArrayCell → ArrayCell) : Engine :=
  { e with arrays := e.arrays.modify a f }

/-- The engine with a managed type changed. -/
def updateType (t : TypeRef) (f : ManagedType → ManagedType) : Engine :=
  { e with types := e.types.modify t f }

/-- The engine with a scope changed. -/
def updateScope (s : ScopeRef) (f : Scope → Scope) : Engine :=
  { e with scopes := e.scopes.modify s f }

/-- The engine with other names in a scope and in all that share them. -/
def setNames (s : ScopeRef) (names : NameTable) : Engine :=
  { e with registries := e.registries.setIfInBounds (e.scopeAt s).registry names }

/-- The class with a name in a scope. -/
def class? (s : ScopeRef) (name : String) : Option ClassRef := (e.scopeAt s).classes.get? name

/-- The managed type with a number in a scope. -/
def typeWithId? (s : ScopeRef) (id : TypeId) : Option TypeRef := (e.scopeAt s).types.get? id

/-- The managed type with a name in a scope. -/
def type? (s : ScopeRef) (name : String) : Option TypeRef :=
  ((e.namesOf s).lookup name).bind (e.typeWithId? s)

/-- The managed type that a class is the host definition of, as a scope sees it. -/
def managedOf? (s : ScopeRef) (c : ClassRef) : Option TypeRef :=
  (e.classAt c).managed.bind (e.typeWithId? s)

/-- The class with a name among a class and its superclasses. -/
def ancestor? (c : ClassRef) (name : String) : Option ClassRef :=
  (c :: (e.classAt c).superclasses).find? fun d => (e.classAt d).name = name

/-- Whether a class is, or extends, the class with a name. -/
def descendsFrom (c : ClassRef) (name : String) : Bool := (e.ancestor? c name).isSome

end Engine

/-- A field found in the classes of the host. -/
structure HostField where
  cls : ClassRef
  /-- The place among the static slots of the class or among its instance slots. -/
  index : Nat
  slot : FieldSlot
deriving DecidableEq, Inhabited

namespace Engine

variable (e : Engine)

/-- The field that a class has under a name: its own, else one of its interfaces, else
one of its supertypes. -/
def hostField? (c : ClassRef) (name : String) : Option HostField :=
  (e.classAt c).fieldOrder.findSome? fun d =>
    ((e.classAt d).ownField? name).map fun (index, slot) => ⟨d, index, slot⟩

/-- The method that a class has under a key: its own, else one of its supertypes, else
one of its interfaces.  Constructors and static initializers are not inherited. -/
def hostMethod? (c : ClassRef) (key : MemberKey) : Option (ClassRef × Method) :=
  let order :=
    if key.isConstructor || key.isStaticInit then [c] else (e.classAt c).methodOrder
  order.findSome? fun d => ((e.classAt d).method? key).map fun m => (d, m)

/-- The value in the instance slot of a field. -/
def slotValue? (o : ObjectRef) (declaring name : String) : Option Value :=
  ((e.classOf o).fieldSlot? declaring name).bind fun i => (e.objectAt o).slots[i]?

end Engine

/-- The object with other contents in one slot. -/
def Object.setSlot (o : Object) (index : Nat) (value : Value) : Object :=
  { o with slots := o.slots.set index value }

/-- The class with other contents in one static slot. -/
def Class.setStatic (c : Class) (index : Nat) (value : Value) : Class :=
  { c with statics := c.statics.set index value }

namespace ArrayCell

/-- The place of an element. -/
def place (a : ArrayCell) (index : Int64) : Except RunError Nat :=
  let i := index.toInt
  if 0 ≤ i ∧ i.toNat < a.items.size then .ok i.toNat
  else .error (.indexOutOfBounds i a.items.size)

/-- The element at a place. -/
def get (a : ArrayCell) (place : Nat) : Value := a.items.getD place .null

/-- The array with another element at a place. -/
def set (a : ArrayCell) (place : Nat) (value : Value) : ArrayCell :=
  { a with items := a.items.setIfInBounds place value }

end ArrayCell

end LiveUpdate
