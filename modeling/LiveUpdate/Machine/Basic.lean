import LiveUpdate.Access
import LiveUpdate.Engine.Exec
import LiveUpdate.Engine.Value

/-!
# The machine

A machine runs code in one scope.  It is given by the scope and by how it calls a method;
all that can be said about running code without looking into the callee is defined over
such a machine.  Here are the parts that calls and field accesses share: who is acting,
what that allows, and the static initialization of classes.
-/

set_option autoImplicit false

namespace LiveUpdate

/-- A machine: the scope in which it runs code, and how it calls a method of a class.  The
receiver is the first argument; a method without a result gives null. -/
structure Machine where
  scope : ScopeRef
  call : ClassRef → Method → List Value → Run Value

namespace Engine

variable (e : Engine)

/-- The class with a name in a scope, or the error that there is none. -/
def requireClass (s : ScopeRef) (name : String) : Except RunError ClassRef :=
  match e.class? s name with
  | some c => .ok c
  | none => .error (.classNotFound name)

/-- The class that code acts as: the managed type that an executor stands for, else the
class itself. -/
def actingClass (s : ScopeRef) (c : ClassRef) : ClassRef :=
  match ((e.classAt c).standsFor.bind (e.typeWithId? s)).bind fun t => (e.typeAt t).native with
  | some native => native
  | none => c

/-- Refuse a use of a member that the caller may not make. -/
def checkAccess (s : ScopeRef) (caller : ClassRef) (declaring : String) (modifiers : Modifiers)
    (member : String) : Except RunError Unit :=
  let acting := e.actingClass s caller
  let name := e.nameOf acting
  if Access.permits name declaring modifiers (e.descendsFrom acting declaring) then .ok ()
  else .error (.illegalAccess (.hidden name modifiers.visibility member))

/-- Refuse a non-virtual call that names a type which the caller does not extend. -/
def checkNonVirtual (s : ScopeRef) (caller : ClassRef) (method : MethodRef) :
    Except RunError Unit :=
  let acting := e.actingClass s caller
  if method.key.isConstructor || e.descendsFrom acting method.owner then .ok ()
  else .error (.illegalAccess (.nonVirtual (e.nameOf acting) method.text))

/-- Whether the static initialization of a class was still to be begun; it is begun now. -/
def beginInit (c : ClassRef) : Bool × Engine :=
  if (e.classAt c).init = .pending then
    (true, e.updateClass c fun cls => { cls with init := .running })
  else (false, e)

/-- The engine in which the static initialization of a class is over. -/
def finishInit (c : ClassRef) : Engine := e.updateClass c fun cls => { cls with init := .done }

/-- A new object of a class, with the zero of its type in every slot. -/
def newObject (c : ClassRef) : ObjectRef × Engine :=
  let slots := (e.classAt c).instanceFields.map fun f => Value.zeroOf f.sig
  (e.objects.size, { e with objects := e.objects.push ⟨c, slots, none⟩ })

/-- A new array. -/
def newArray (cell : ArrayCell) : ArrayRef × Engine :=
  (e.arrays.size, { e with arrays := e.arrays.push cell })

end Engine

namespace Machine

open Exec

variable (m : Machine)

/-- Run the static initializer that a class declares. -/
def runStaticInit (c : ClassRef) : Run Unit := do
  match ← ask fun e => (e.classAt c).method? .staticInit with
  | some init => discard (m.call c init [])
  | none => pure ()

/-- Initialize the first class of a list unless that has been begun.  The classes after it
are its superclasses, and they are initialized before it.  However the initializer ends,
the initialization of the class is over. -/
def initializeAll : List ClassRef → Run Unit
  | [] => pure ()
  | c :: above => do
    if (← ask fun e => (e.classAt c).init) = .done then return
    initializeAll above
    if ← modifyGet fun e => e.beginInit c then
      try m.runStaticInit c
      finally modify fun e => e.finishInit c

/-- Initialize a class, its superclasses first. -/
def ensureInitialized (c : ClassRef) : Run Unit := do
  m.initializeAll (c :: (← ask fun e => (e.classAt c).superclasses))

/-- Allocate an object of a class by name; the class is initialized first. -/
def instantiate (typeName : String) : Run ObjectRef := do
  let c ← check fun e => e.requireClass m.scope typeName
  if ← ask fun e => (e.classAt c).isAbstract then fail (.instantiation typeName)
  m.ensureInitialized c
  modifyGet fun e => e.newObject c

end Machine

end LiveUpdate
