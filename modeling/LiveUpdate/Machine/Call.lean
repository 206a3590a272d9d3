import LiveUpdate.Live.Resolve
import LiveUpdate.Machine.Basic

/-!
# Calls

A call is made in one of two ways: as the host links it, by the classes as they were
defined, or by live versions.  A guard decides between the two, and remembers what it
found for as long as nothing is reloaded.
-/

set_option autoImplicit false

namespace LiveUpdate

/-- The number of values that an invocation takes off the stack. -/
def InvokeKind.argCount (kind : InvokeKind) (method : MethodRef) : Nat :=
  method.sig.arity + if kind = .static then 0 else 1

/-- Whether the receiver's class selects the method. -/
def InvokeKind.isSelecting : InvokeKind → Bool
  | .virtual | .interface => true
  | .static | .special => false

/-- The object that a call is made on. -/
def receiverOf (args : List Value) (what : String) : Except RunError ObjectRef :=
  match args with
  | .object o :: _ => .ok o
  | _ => .error (.nullPointer (.receiver what))

/-- Refuse an invocation whose kind does not fit the method that it means. -/
def checkInvokeKind (kind : InvokeKind) (method : MethodRef) (isStatic : Bool) :
    Except RunError Unit :=
  if isStatic = (kind = .static) then .ok ()
  else .error (.classChange (.kind method.text isStatic .method))

namespace Machine

open Exec

variable (m : Machine)

/-- Run the code that the live version of a managed type has for a member. -/
def callLive (t : TypeRef) (key : MemberKey) (args : List Value) : Run Value := do
  let type ← ask fun e => e.typeAt t
  let missing := RunError.memberMissing type.name key
  let some native := type.native | fail (.classNotFound type.name)
  match type.live.dispatch.lookup key with
  | some (.executor method) =>
    let some executor := type.live.executor? | fail missing
    if (type.live.shape.method? key).any MethodShape.isStatic then
      m.ensureInitialized native
    m.call executor method args
  | some .abstract => fail (.abstractMethod s!"{type.name}.{key.text}")
  | some .deleted => fail missing
  | some .host | none =>
    match ← ask fun e => (e.classAt native).method? key with
    | some method => m.call native method args
    | none => fail missing

/-- Call exactly the member that was resolved. -/
def callResolved (live : LiveMethod) (key : MemberKey) (args : List Value) : Run Value :=
  if live.isAbstract then fail (.abstractMethod s!"{live.declaring}.{key.text}")
  else match live.managed, live.host with
    | some t, _ => m.callLive t key args
    | none, some (c, method) => m.call c method args
    | none, none => fail (.memberMissing live.declaring key)

/-- Select the live implementation of a member for a receiver of a class and run it.  The
answer is none when no class on the way up has one. -/
def dispatchVirtual (start : ClassRef) (key : MemberKey) (args : List Value) :
    Run (Option Value) := do
  match ← resolve fun e => e.selectVirtual m.scope start key with
  | some (.live t) => some <$> m.callLive t key args
  | some (.host c method) => some <$> m.call c method args
  | some (.abstract c) =>
    fail (.abstractMethod s!"{(← get).nameOf c}.{key.text}")
  | none => return none

/-- Select and run as above; a class without an implementation is an error. -/
def callVirtual (receiver : ClassRef) (key : MemberKey) (args : List Value) : Run Value := do
  match ← m.dispatchVirtual receiver key args with
  | some value => return value
  | none => fail (.abstractMethod s!"{(← get).nameOf receiver}.{key.text}")

/-- Call the implementation of a member that the live version of a managed type inherits. -/
def callInherited (t : TypeRef) (key : MemberKey) (args : List Value) : Run Value := do
  let type ← ask fun e => e.typeAt t
  let some superName := type.live.shape.superName | fail (.memberMissing type.name key)
  let parent ← check fun e => e.requireClass m.scope superName
  match ← resolve fun e => e.resolveMethod m.scope parent key with
  | some live => m.callResolved live key args
  | none => fail (.memberMissing superName key)

/-- Call a member of the live version of a managed type, without regard to access. -/
def callPrivileged (t : TypeRef) (method : MethodRef) (args : List Value) : Run Value := do
  let shape ← require (fun e => (e.typeAt t).live.shape.method? method.key)
    (.methodMissing method)
  unless shape.isStatic do
    discard (ofResult (receiverOf args method.text))
  m.callLive t method.key args

/-- Refuse a receiver whose class does not extend or implement a type. -/
def checkReceiverClass (receiver : ClassRef) (owner : String) : Run Unit := do
  let cls ← ask fun e => e.classAt receiver
  unless cls.isSubtypeOf owner do
    fail (.classCast cls.name owner)

/-- The class of the receiver of a virtual call as the host links it. -/
def nativeReceiver (method : MethodRef) (args : List Value) : Run ClassRef := do
  match args with
  | .object o :: _ => ask fun e => (e.objectAt o).cls
  | .null :: _ | [] => fail (.nullPointer (.receiver method.text))
  | other :: _ => fail (.typeMismatch method.owner (other.typeName (← get)))

/-- Run the method that the classes, as they were defined, select for a receiver.  Where
they select none, or an abstract one, the live versions decide. -/
def callSelected (receiver : ClassRef) (key : MemberKey) (args : List Value) : Run Value := do
  match ← ask fun e => (e.classAt receiver).vtable.get? key with
  | some selected =>
    if selected.isAbstract then m.callVirtual receiver key args
    else
      let c ← check fun e => match e.ancestor? receiver selected.declaring with
        | some c => .ok c
        | none => e.requireClass m.scope selected.declaring
      m.call c selected args
  | none => m.callVirtual receiver key args

/-- Make an invocation as the host links it. -/
def callNative (caller : ClassRef) (kind : InvokeKind) (method : MethodRef)
    (args : List Value) : Run Value := do
  let key := method.key
  let owner ← check fun e => e.requireClass m.scope method.owner
  let (declaring, found) ← require (fun e => e.hostMethod? owner key) (.methodMissing method)
  ofResult (checkInvokeKind kind method found.isStatic)
  check fun e => e.checkAccess m.scope caller found.declaring found.declared method.text
  match kind with
  | .static => m.call declaring found args
  | .special =>
    check fun e => e.checkNonVirtual m.scope caller method
    if args.head?.all Value.isNull then fail (.nullPointer (.receiver method.text))
    m.call declaring found args
  | .virtual | .interface =>
    let receiver ← nativeReceiver method args
    checkReceiverClass receiver method.owner
    if found.modifiers.isPrivate then m.call declaring found args
    else m.callSelected receiver key args

/-- Make an invocation by live versions. -/
def callDynamic (caller : ClassRef) (kind : InvokeKind) (method : MethodRef)
    (live : LiveMethod) (args : List Value) : Run Value := do
  let key := method.key
  match kind with
  | .static => m.callResolved live key args
  | .special =>
    check fun e => e.checkNonVirtual m.scope caller method
    discard (ofResult (receiverOf args method.text))
    m.callResolved live key args
  | .virtual | .interface =>
    let o ← ofResult (receiverOf args method.text)
    let receiver ← ask fun e => (e.objectAt o).cls
    checkReceiverClass receiver method.owner
    if live.modifiers.isPrivate then m.callResolved live key args
    else m.callVirtual receiver key args

/-- Whether the host's instruction, for a method that live versions declare, means that
method too. -/
def linksTo (e : Engine) (owner : ClassRef) (kind : InvokeKind) (key : MemberKey)
    (live : LiveMethod) : Bool :=
  match e.hostMethod? owner key with
  | some (c, host) =>
    host.isStatic = live.isStatic && (kind.isSelecting || e.nameOf c = live.declaring)
  | none => false

/-- What live versions make of an invocation, remembered for the epoch.  There is no
answer for an owner that is not defined. -/
def liveTarget? (id : TypeId) (kind : InvokeKind) (method : MethodRef) :
    Run (Option CachedRoute) := do
  let scope ← ask fun e => e.scopeAt m.scope
  let routeKey : RouteKey := (id, kind, method.key)
  match (scope.routes.get? routeKey).filter fun r => r.epoch = scope.epoch with
  | some route => return some route
  | none =>
    let some owner := scope.classes.get? method.owner | return none
    let some live ← resolve fun e => e.resolveMethod m.scope owner method.key
      | fail (.methodMissing method)
    let nativeOk ← ask fun e => linksTo e owner kind method.key live
    let route : CachedRoute := { epoch := scope.epoch, live, nativeOk }
    modify fun e => e.updateScope m.scope fun s =>
      { s with routes := s.routes.put routeKey route }
    return some route

/-- Decide how an invocation behind a guard goes on.  Before the first reload, and for an
owner that is not defined, the host's instruction is right. -/
def routeInvoke (caller : ClassRef) (id : TypeId) (kind : InvokeKind) (method : MethodRef) :
    Run InvokeRoute := do
  if (← ask fun e => (e.scopeAt m.scope).epoch) = 0 then return .native
  match ← m.liveTarget? id kind method with
  | none => return .native
  | some { live, nativeOk, .. } =>
    ofResult (checkInvokeKind kind method live.isStatic)
    check fun e => e.checkAccess m.scope caller live.declaring live.modifiers method.text
    return if nativeOk then .native else .dynamic live

end Machine

end LiveUpdate
