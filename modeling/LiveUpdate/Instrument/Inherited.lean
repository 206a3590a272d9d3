import LiveUpdate.Access
import LiveUpdate.Class.Basic
import LiveUpdate.Dispatch.Naming

/-!
# Members for inherited methods

A managed type carries two sorts of generated members for the methods that it inherits.
A catcher takes the place of an inherited method, so that calls of it enter a slot of the
type and a later version may override it.  A super-dispatcher makes the non-virtual call
of an inherited method on behalf of code that is not in the type itself.
-/

set_option autoImplicit false

namespace LiveUpdate

/-- A generated catcher and the modifiers that it stands for. -/
structure Catcher where
  method : MethodDef
  declared : Modifiers
deriving DecidableEq, Inhabited

/-- The code that calls a method of `owner` non-virtually with its own arguments. -/
def forwardingCode (owner : String) (key : MemberKey) : List Instr :=
  (List.range (key.sig.arity + 1)).map (fun i => .load (UInt16.ofNat i)) ++
    [.invoke .special ⟨owner, key.name, key.sig⟩,
      if key.sig.returnsValue then .retValue else .ret]

/-- Whether code of a type may call a method that its parent's virtual calls select. -/
def isReachable (typeName : String) (key : MemberKey) (m : Method) : Bool :=
  !m.isAbstract && !m.isStatic && !m.modifiers.isPrivate && !key.isConstructor &&
    !m.modifiers.contains .superDispatcherBit &&
    Access.permits typeName m.declaring m.declared true

/-- The inherited methods that code of a type may call, ordered by the texts of their
keys. -/
def inheritedMethods (typeName : String) (parent : Class) : List (MemberKey × Method) :=
  (parent.vtable.filter fun e => isReachable typeName e.1 e.2).mergeSort
    fun a b => decide (a.1.text ≤ b.1.text)

/-- A generated public method that forwards to a method of `owner`. -/
def forwardingMethod (name owner : String) (key : MemberKey) (mark : Modifiers) : MethodDef :=
  .make name key.sig (.publicBit ||| .syntheticBit ||| mark) (forwardingCode owner key)

/-- The catchers of a unit: one for every inherited method that may be overridden and
that the unit does not declare. -/
def catchers (u : TypeUnit) (parent : Class) : List Catcher :=
  let caught := (inheritedMethods u.name parent).filter fun e =>
    !e.2.modifiers.isFinal && (u.method? e.1).isNone
  caught.map fun e => {
    method := forwardingMethod e.1.name parent.name e.1 .catcherBit
    declared := e.2.declared ||| .syntheticBit ||| .catcherBit }

/-- The super-dispatchers of a unit: one for every inherited method, unless the unit
declares a member of that name and signature. -/
def superDispatchers (u : TypeUnit) (parent : Class) : List MethodDef :=
  (inheritedMethods u.name parent).filterMap fun e =>
    let name := superDispatcherName u.name e.1.name
    if (u.method? ⟨name, e.1.sig⟩).isSome then none
    else some (forwardingMethod name parent.name e.1 .superDispatcherBit)

end LiveUpdate
