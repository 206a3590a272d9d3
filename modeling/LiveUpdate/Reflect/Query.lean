import LiveUpdate.Machine.Invoke

/-!
# Asking about types

Reflection answers from live versions: what it lists are the members that the live
version of a type declares, and what it reads, writes and calls is what a live reference
would.  It is privileged, so nothing is refused for its visibility.  Metadata is
remembered by type name and used again for as long as the version is the same.
-/

set_option autoImplicit false

namespace LiveUpdate.Reflect

open Exec

/-- The remembered metadata of a version of a type. -/
def remembered? (e : Engine) (s : ScopeRef) (typeName : String) (version : Nat) :
    Option TypeMetadata :=
  ((e.scopeAt s).metadata.get? typeName).filter fun t => t.version = version

/-- The number of the version that a class is now at; 0 if it is not managed. -/
def versionOf (e : Engine) (s : ScopeRef) (c : ClassRef) : Nat :=
  match e.managedOf? s c with
  | some t => (e.typeAt t).live.number
  | none => 0

/-- The shape that a class now has. -/
def shapeOf (e : Engine) (s : ScopeRef) (c : ClassRef) : Except RunError TypeShape :=
  match e.managedOf? s c with
  | some t => .ok (e.typeAt t).live.shape
  | none => (TypeShape.extract (e.classAt c).unit).mapError fun error =>
    .link (.undescribed (e.nameOf c) error)

/-- The metadata of the current version of a type. -/
def metadata (s : ScopeRef) (typeName : String) : Run TypeMetadata := do
  let c ← check fun e => e.requireClass s typeName
  let version ← ask fun e => versionOf e s c
  match ← ask fun e => remembered? e s typeName version with
  | some t => return t
  | none =>
    let t := TypeMetadata.ofShape (← check fun e => shapeOf e s c) version
    modify fun e => e.updateScope s fun scope =>
      { scope with metadata := scope.metadata.put t.name t }
    return t

/-- Forget the metadata of a type. -/
def forget {ε : Type} (s : ScopeRef) (typeName : String) : Exec ε Unit :=
  modify fun e => e.updateScope s fun scope =>
    { scope with metadata := scope.metadata.erase typeName }

/-- Search types for a field: the first of a list, then its interfaces, its supertype, and
then the rest.  A type is searched when it is first met, and never again. -/
def searchField (s : ScopeRef) (name : String) :
    Nat → List String → List String → Run (Option FieldInfo)
  | _, _, [] => return none
  | 0, _, _ => throw .outOfFuel
  | n + 1, met, current :: pending => do
    let t ← metadata s current
    match t.field? name with
    | some f => return some f
    | none =>
      let met := current :: met
      let next := t.interfaces ++ t.superName.toList ++ pending
      searchField s name n met (next.filter fun other => !met.contains other)

/-- The field that a type declares or inherits under a name. -/
def field (fuel : Nat) (s : ScopeRef) (typeName name : String) : Run (Option FieldInfo) :=
  searchField s name fuel [] [typeName]

/-- Methods found so far, and those of one more type that they do not override. -/
def mergeMethods (found methods : List MethodInfo) : List MethodInfo :=
  methods.foldl (fun found m =>
    if found.any fun f => f.member.key = m.member.key then found else found ++ [m]) found

/-- Collect the methods of types: of the first of a list, then of its supertype, its
interfaces, and then the rest.  A type adds its methods when it is first met, and nothing
after that. -/
def collectMethods (s : ScopeRef) :
    Nat → List MethodInfo → List String → List String → Run (List MethodInfo)
  | _, found, _, [] => return found
  | 0, _, _, _ => throw .outOfFuel
  | n + 1, found, met, current :: pending => do
    let t ← metadata s current
    let met := current :: met
    let next := t.superName.toList ++ t.interfaces ++ pending
    collectMethods s n (mergeMethods found t.methods) met
      (next.filter fun other => !met.contains other)

/-- The methods that a type declares or inherits, without those that are overridden. -/
def methods (fuel : Nat) (s : ScopeRef) (typeName : String) : Run (List MethodInfo) :=
  collectMethods s fuel [] [] [typeName]

/-- The method that a type declares or inherits under a key. -/
def method (fuel : Nat) (s : ScopeRef) (typeName : String) (key : MemberKey) :
    Run (Option MethodInfo) := do
  return (← methods fuel s typeName).find? fun m => m.member.key = key

/-- Refuse an object that is not of a type. -/
def checkInstance (receiver : ClassRef) (typeName : String) : Run Unit :=
  Machine.checkReceiverClass receiver typeName

/-- The live field of a type under a name, and the object that it is accessed in.  A static
field needs none. -/
def liveField (s : ScopeRef) (typeName name : String) (receiver : Option Value) :
    Run (LiveField × Option ObjectRef) := do
  let c ← check fun e => e.requireClass s typeName
  let some f ← resolve fun e => e.resolveField s c name
    | fail (.noSuchField typeName name "*")
  if f.isStatic then return (f, none)
  let some o := receiver.bind Value.object?
    | fail (.nullPointer (.fieldReceiver s!"{typeName}.{name}"))
  checkInstance (← ask fun e => (e.objectAt o).cls) typeName
  return (f, some o)

/-- Read a field of a type. -/
def readField (fuel : Nat) (s : ScopeRef) (typeName name : String) (receiver : Option Value) :
    Run Value := do
  let (f, o) ← liveField s typeName name receiver
  (Machine.of s fuel).readField f o

/-- Write a field of a type. -/
def writeField (fuel : Nat) (s : ScopeRef) (typeName name : String) (receiver : Option Value)
    (value : Value) : Run Unit := do
  let (f, o) ← liveField s typeName name receiver
  (Machine.of s fuel).writeField f o value

/-- The live method of a type under a key. -/
def liveMethod (s : ScopeRef) (typeName : String) (key : MemberKey) :
    Run (ClassRef × LiveMethod) := do
  let c ← check fun e => e.requireClass s typeName
  match ← resolve fun e => e.resolveMethod s c key with
  | some live => return (c, live)
  | none => fail (.memberMissing typeName key)

/-- Call a method of a type.  The receiver of an instance method is the first argument,
and its class selects the method. -/
def call (fuel : Nat) (s : ScopeRef) (typeName : String) (key : MemberKey)
    (args : List Value) : Run Value := do
  let (_, live) ← liveMethod s typeName key
  let machine := Machine.of s fuel
  if live.isStatic then machine.callResolved live key args
  else
    let o ← ofResult (receiverOf args s!"{typeName}.{key.text}")
    let receiver ← ask fun e => (e.objectAt o).cls
    checkInstance receiver typeName
    if live.modifiers.isPrivate then machine.callResolved live key args
    else machine.callVirtual receiver key args

/-- Allocate an object of a type and run the live constructor with a signature on it. -/
def newInstance (fuel : Nat) (s : ScopeRef) (typeName : String) (sig : MethodSig)
    (args : List Value) : Run Value := do
  let key : MemberKey := ⟨constructorName, sig⟩
  let (_, live) ← liveMethod s typeName key
  let machine := Machine.of s fuel
  let o ← machine.instantiate typeName
  discard (machine.callResolved live key (.object o :: args))
  return .object o

/-- The named instances of an enumeration, in the order in which they are declared. -/
def enumConstants (fuel : Nat) (s : ScopeRef) (typeName : String) : Run (List Value) := do
  let t ← metadata s typeName
  unless t.modifiers.isEnum do fail (.classChange (.notEnumeration typeName))
  t.enumConstants.mapM fun f => readField fuel s typeName f.member.name none

end LiveUpdate.Reflect
