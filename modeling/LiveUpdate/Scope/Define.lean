import LiveUpdate.Instrument.Guard
import LiveUpdate.Instrument.Host
import LiveUpdate.Machine.Invoke
import LiveUpdate.Scope.Error

/-!
# Defining types in a scope

A unit is defined in a scope when it is well formed and everything that it extends and
implements is defined.  An eligible unit becomes a managed type: the host defines its
class from the host form of the unit, and the unit itself is the first version.  The
class is initialized before the definition is over.
-/

set_option autoImplicit false

namespace LiveUpdate.Scope

open Exec

/-- Open a scope with a table of names.  The answer is its place. -/
def openWith (options : Options) (registry : RegistryRef) : Exec OptionsError ScopeRef := do
  let filter ← ofResult options.validate
  modifyGet fun e =>
    (e.scopes.size, { e with scopes := e.scopes.push (.empty options filter registry) })

/-- A new table of names. -/
def newRegistry {ε : Type} : Exec ε RegistryRef :=
  modifyGet fun e => (e.registries.size, { e with registries := e.registries.push {} })

/-- The number of a name in a scope, which it gets now if it has none. -/
def idFor {ε : Type} (s : ScopeRef) (name : String) : Exec ε TypeId :=
  modifyGet fun e =>
    let (id, names) := (e.namesOf s).idFor name
    (id, e.setNames s names)

/-- Define a class in a scope.  A refused definition uses up a class number, unless the
name is taken. -/
def defineClass (s : ScopeRef) (spec : ClassSpec) : Run ClassRef := do
  let scope ← ask fun e => e.scopeAt s
  if scope.classes.has spec.unit.name then fail (.duplicateClass spec.unit.name)
  let place ← ask fun e => e.classes.size
  modify fun e => e.updateScope s fun scope => { scope with nextClassId := scope.nextClassId + 1 }
  let defined ← ask fun e => Class.define place scope.nextClassId spec
    (spec.parent.map e.classAt) (spec.interfaces.map e.classAt)
  match defined with
  | .error fault => fail (.link fault)
  | .ok cls =>
    modify fun e => { e with classes := e.classes.push cls }
    modify fun e => e.updateScope s fun scope =>
      { scope with classes := scope.classes.put cls.name place }
    return place

/-- The classes that a unit extends and implements. -/
def requireParents (s : ScopeRef) (u : TypeUnit) : Run (Option ClassRef × List ClassRef) := do
  let parent ← u.superName.mapM fun name => check fun e => e.requireClass s name
  let interfaces ← u.interfaces.mapM fun name => check fun e => e.requireClass s name
  return (parent, interfaces)

/-- Guard a unit on behalf of a scope. -/
def guardUnit {ε : Type} (s : ScopeRef) (u : TypeUnit) : Exec ε TypeUnit :=
  modifyGet fun e =>
    let (guarded, names) := u.guard (e.scopeAt s).options (e.namesOf s)
    (guarded, e.setNames s names)

/-- Register the managed type of a unit that is given by its bytes.  The answer is the
type, and the form of the unit that the host is to define. -/
def registerType (s : ScopeRef) (data : List UInt8) (u : TypeUnit) (parent : Option ClassRef) :
    Exec ReloadError (TypeRef × TypeId × HostForm) := do
  let id ← idFor s u.name
  let shape ← ofResult ((TypeShape.extract u).mapError .shape)
  let guarded ← guardUnit s u
  let form ← ask fun e => HostForm.ofUnit guarded id (parent.map e.classAt)
  if (← ask fun e => e.typeWithId? s id).isSome then fail (.duplicateType u.name)
  let t ← ask fun e => e.types.size
  let type := ManagedType.define id s (.first data u shape form.slots) form.slots
  modify fun e => { e with types := e.types.push type }
  modify fun e => e.updateScope s fun scope => { scope with types := scope.types.put id t }
  return (t, id, form)

/-- Define the host class of the managed type at a place and with a number.  If that fails,
the scope forgets the number. -/
def defineHost (s : ScopeRef) (t : TypeRef) (id : TypeId) (spec : ClassSpec) :
    Exec ReloadError ClassRef := do
  try
    let c ← mapError .run (defineClass s spec)
    modify fun e => e.updateType t fun type => { type with native := some c }
    pure c
  catch stop =>
    modify fun e => e.updateScope s fun scope => { scope with types := scope.types.erase id }
    throw stop

/-- Define the class of a managed type; if that fails, the type is not registered. -/
def defineManaged (s : ScopeRef) (data : List UInt8) (u : TypeUnit) (parent : Option ClassRef)
    (interfaces : List ClassRef) : Exec ReloadError ClassRef := do
  let (t, id, form) ← registerType s data u parent
  defineHost s t id {
    unit := form.unit, parent, interfaces, managed := some id, standsFor := none,
    declaredAccess := form.declaredAccess }

/-- Define the class of a unit that is not managed. -/
def definePlain (s : ScopeRef) (u : TypeUnit) (parent : Option ClassRef)
    (interfaces : List ClassRef) : Run ClassRef := do
  let guarded ← guardUnit s u
  defineClass s (.plain guarded parent interfaces)

/-- Define the unit with these bytes, and initialize its class. -/
def define (fuel : Nat) (s : ScopeRef) (data : List UInt8) : Exec ReloadError ClassRef := do
  let u ← ofResult ((TypeUnit.decode data).mapError .unit)
  ofResult (u.verify.mapError .verify)
  if (← ask fun e => e.class? s u.name).isSome then fail (.run (.duplicateClass u.name))
  let (parent, interfaces) ← mapError .run (requireParents s u)
  let c ←
    if ← ask fun e => (e.scopeAt s).isEligible u then
      defineManaged s data u parent interfaces
    else mapError .run (definePlain s u parent interfaces)
  mapError .run ((Machine.of s fuel).ensureInitialized c)
  return c

/-- Define a unit that must become a managed type. -/
def addType (fuel : Nat) (s : ScopeRef) (data : List UInt8) : Exec ReloadError TypeRef := do
  let c ← define fuel s data
  match ← ask fun e => e.managedOf? s c with
  | some t => return t
  | none => fail (.notManaged (← ask fun e => e.nameOf c))

/-- Add an observer of reloads.  The answer is the number of observers. -/
def addObserver {ε : Type} (s : ScopeRef) (observer : Observer) : Exec ε Nat := do
  modify fun e => e.updateScope s fun scope =>
    { scope with observers := scope.observers ++ [observer] }
  ask fun e => (e.scopeAt s).observers.length

/-- Close a scope: its types can no longer be reloaded. -/
def close {ε : Type} (s : ScopeRef) : Exec ε Unit :=
  modify fun e => e.updateScope s fun scope => { scope with isOpen := false }

end LiveUpdate.Scope
