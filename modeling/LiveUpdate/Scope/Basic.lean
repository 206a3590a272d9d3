import LiveUpdate.Reflect.Query
import LiveUpdate.Scope.Reload

/-!
# Using a scope

Calls and field accesses from outside, by live versions, and what a scope says about
itself.
-/

set_option autoImplicit false

namespace LiveUpdate.Scope

open Exec Reflect

/-- Call a method on a receiver, whose class selects the method. -/
def invokeVirtual (fuel : Nat) (s : ScopeRef) (receiver : Value) (key : MemberKey)
    (args : List Value) : Run Value := do
  let some o := receiver.object? | fail (.nullPointer (.receiver key.name))
  let c ← ask fun e => (e.objectAt o).cls
  match ← (Machine.of s fuel).dispatchVirtual c key (receiver :: args) with
  | some value => return value
  | none =>
    let name ← ask fun e => e.nameOf c
    match ← resolve fun e => e.resolveMethod s c key with
    | some live =>
      if live.isStatic then fail (.classChange (.kind s!"{name}.{key.text}" true .method))
      else fail (.memberMissing name key)
    | none => fail (.memberMissing name key)

/-- Call a static method of a type. -/
def invokeStatic (fuel : Nat) (s : ScopeRef) (typeName : String) (key : MemberKey)
    (args : List Value) : Run Value := do
  let (_, live) ← liveMethod s typeName key
  unless live.isStatic do
    fail (.classChange (.kind s!"{typeName}.{key.text}" false .method))
  (Machine.of s fuel).callResolved live key args

/-- Refuse a field that is not static. -/
def requireStatic (s : ScopeRef) (typeName name : String) : Run Unit := do
  let c ← check fun e => e.requireClass s typeName
  match ← resolve fun e => e.resolveField s c name with
  | some f =>
    unless f.isStatic do fail (.classChange (.kind s!"{typeName}.{name}" false .field))
  | none => fail (.noSuchField typeName name "*")

/-- Read a static field of a type. -/
def getStatic (fuel : Nat) (s : ScopeRef) (typeName name : String) : Run Value := do
  requireStatic s typeName name
  readField fuel s typeName name none

/-- Write a static field of a type. -/
def setStatic (fuel : Nat) (s : ScopeRef) (typeName name : String) (value : Value) :
    Run Unit := do
  requireStatic s typeName name
  writeField fuel s typeName name none value

/-- The name of the class of an object whose field is accessed. -/
def classNameOf (receiver : Value) (name : String) : Run String := do
  match receiver.object? with
  | some o => ask fun e => (e.classOf o).name
  | none => fail (.nullPointer (.fieldAccess name))

/-- Read a field of an object. -/
def getField (fuel : Nat) (s : ScopeRef) (receiver : Value) (name : String) : Run Value := do
  readField fuel s (← classNameOf receiver name) name (some receiver)

/-- Write a field of an object. -/
def setField (fuel : Nat) (s : ScopeRef) (receiver : Value) (name : String) (value : Value) :
    Run Unit := do
  writeField fuel s (← classNameOf receiver name) name (some receiver) value

/-- The managed type that a managed type's first version extends.  It is looked up once, and
only while the scope is open. -/
def superType {ε : Type} (t : TypeRef) : Exec ε (Option TypeRef) := do
  let type ← ask fun e => e.typeAt t
  match type.superType with
  | some known => return known
  | none =>
    let found ← ask fun e =>
      if (e.scopeAt type.scope).isOpen then
        type.first.shape.superName.bind fun name => e.type? type.scope name
      else none
    modify fun e => e.updateType t fun type => { type with superType := some found }
    return found

/-- What a scope says about itself. -/
def summary (scope : Scope) : String :=
  s!"Scope \x7b classes: {scope.classes.length}, types: TypeRegistry \x7b types: " ++
    s!"{scope.types.length}, observers: {scope.observers.length}, epoch: {scope.epoch} \x7d \x7d"

/-- What the reflection of a scope says about itself. -/
def reflectionSummary (scope : Scope) : String :=
  s!"Introspector \x7b cached: {scope.metadata.length} \x7d"

end LiveUpdate.Scope
