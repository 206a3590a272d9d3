import LiveUpdate.Live.Resolve
import LiveUpdate.Machine.Basic

/-!
# Field accesses

A field of a live version is kept in the slot that the host class has for it, or, when
the field is new or has changed, in a field store.
-/

set_option autoImplicit false

namespace LiveUpdate

/-- The error of a use of a static field as an instance field, or the other way round. -/
def fieldKindError (f : FieldRef) (isStatic : Bool) : RunError :=
  .classChange (.kind f.text isStatic .field)

/-- Refuse an access whose kind or type does not fit the field that it means. -/
def checkFieldUse (access : FieldAccess) (f : FieldRef) (isStatic : Bool) (sig : TypeSig) :
    Except RunError Unit :=
  if isStatic ≠ access.isStatic then .error (fieldKindError f isStatic)
  else if sig ≠ f.sig then .error (.fieldMissing f)
  else .ok ()

/-- The object whose field is accessed. -/
def fieldReceiver (receiver : Value) (f : FieldRef) : Except RunError ObjectRef :=
  match receiver with
  | .object o => .ok o
  | _ => .error (.nullPointer (.fieldAccess f.text))

namespace Engine

variable (e : Engine)

/-- The value in the instance slot of a field. -/
def readSlot (o : ObjectRef) (declaring name : String) (missing : RunError) :
    Except RunError Value :=
  match e.slotValue? o declaring name with
  | some value => .ok value
  | none => .error missing

/-- The place of the instance slot of a field. -/
def instanceSlot (o : ObjectRef) (declaring name : String) (missing : RunError) :
    Except RunError Nat :=
  match (e.classOf o).fieldSlot? declaring name with
  | some i => .ok i
  | none => .error missing

/-- The place of the static slot of a field. -/
def staticSlot (c : ClassRef) (name : String) (missing : RunError) : Except RunError Nat :=
  match (e.classAt c).staticSlot? name with
  | some i => .ok i
  | none => .error missing

/-- The value in a static slot. -/
def readStatic (c : ClassRef) (index : Nat) (missing : RunError) : Except RunError Value :=
  match (e.classAt c).statics[index]? with
  | some value => .ok value
  | none => .error missing

/-- Refuse an instance slot that an object does not have. -/
def checkSlot (o : ObjectRef) (index : Nat) : Except RunError Unit :=
  let length := (e.objectAt o).slots.length
  if index < length then .ok () else .error (.indexOutOfBounds index length)

/-- Refuse a static slot that a class does not have. -/
def checkStatic (c : ClassRef) (index : Nat) : Except RunError Unit :=
  if index < (e.classAt c).statics.length then .ok ()
  else .error (.malformed (.staticSlot index (e.nameOf c)))

/-- The field store of an object, which it gets now if it has none. -/
def storeOf (o : ObjectRef) : FieldStore := (e.objectAt o).store.getD {}

/-- Read a field from a store.  `inherited` is the value that the type used to inherit. -/
def readStore (store : FieldStore) (policy : FieldPolicy) (f : LiveField)
    (inherited : Option Value) : Except RunError Value × FieldStore :=
  let (answer, store) := store.get f.declaring f.name f.sig policy (fun v => v.conforms e f.sig)
    fun store => (inherited, store)
  (answer.map Prod.fst, store)

end Engine

namespace Machine

open Exec

variable (m : Machine)

/-- Write a static slot. -/
def writeStatic (c : ClassRef) (index : Nat) (value : Value) : Run Unit := do
  check fun e => e.checkStatic c index
  modify fun e => e.updateClass c fun cls => cls.setStatic index value

/-- Write the instance slot at a place. -/
def putSlot (o : ObjectRef) (index : Nat) (value : Value) : Run Unit := do
  check fun e => e.checkSlot o index
  modify fun e => e.updateObject o fun object => object.setSlot index value

/-- Write the instance slot of a field. -/
def writeSlot (o : ObjectRef) (declaring name : String) (value : Value) (missing : RunError) :
    Run Unit := do
  putSlot o (← check fun e => e.instanceSlot o declaring name missing) value

/-- Read a field that a managed type keeps in a store. -/
def readStored (f : LiveField) (t : TypeRef) (receiver : Option ObjectRef) : Run Value := do
  let policy ← ask fun e => (e.scopeAt m.scope).options.fieldPolicy
  match receiver with
  | none =>
    m.ensureInitialized f.cls
    let (answer, store) ← ask fun e => e.readStore (e.typeAt t).statics policy f none
    modify fun e => e.updateType t fun type => { type with statics := store }
    ofResult answer
  | some o =>
    let (answer, store) ← ask fun e =>
      e.readStore (e.storeOf o) policy f (e.inheritedValue? m.scope o f.name f.sig)
    modify fun e => e.updateObject o fun object => { object with store := some store }
    ofResult answer

/-- Read a field: of an object, or, without one, a static field. -/
def readField (f : LiveField) (receiver : Option ObjectRef) : Run Value := do
  match f.storedBy?, receiver with
  | some t, _ => m.readStored f t receiver
  | none, none =>
    m.ensureInitialized f.cls
    let index ← check fun e => e.staticSlot f.cls f.name f.missing
    check fun e => e.readStatic f.cls index f.missing
  | none, some o => check fun e => e.readSlot o f.declaring f.name f.missing

/-- Write a field: of an object, or, without one, a static field. -/
def writeField (f : LiveField) (receiver : Option ObjectRef) (value : Value) : Run Unit := do
  check fun e => value.checkConforms e f.sig
  match f.storedBy?, receiver with
  | some t, none =>
    m.ensureInitialized f.cls
    modify fun e => e.updateType t fun type =>
      { type with statics := type.statics.set f.declaring f.name value }
  | some _, some o =>
    modify fun e => e.updateObject o fun object =>
      { object with store := some ((object.store.getD {}).set f.declaring f.name value) }
  | none, none =>
    m.ensureInitialized f.cls
    let index ← check fun e => e.staticSlot f.cls f.name f.missing
    writeStatic f.cls index value
  | none, some o => writeSlot o f.declaring f.name value f.missing

/-- The field that an access means for an owner by live versions. -/
def liveField (owner : ClassRef) (access : FieldAccess) (f : FieldRef) : Run LiveField := do
  match ← resolve fun e => e.resolveField m.scope owner f.name with
  | some live =>
    ofResult (checkFieldUse access f live.isStatic live.sig)
    return live
  | none => fail (.fieldMissing f)

/-- The field that an access means as the host links it. -/
def hostField (caller : ClassRef) (access : FieldAccess) (f : FieldRef) : Run HostField := do
  let owner ← check fun e => e.requireClass m.scope f.owner
  let host ← require (fun e => e.hostField? owner f.name) (.fieldMissing f)
  ofResult (checkFieldUse access f host.slot.isStatic host.slot.sig)
  check fun e => e.checkAccess m.scope caller host.slot.declaring host.slot.modifiers f.text
  return host

/-- Whether the host's access of a field reaches the value of the live one. -/
def reaches (e : Engine) (owner : ClassRef) (live : LiveField) : Bool :=
  live.placement = .native && (e.hostField? owner live.name).any fun host =>
    host.slot.declaring = live.declaring && host.slot.isStatic = live.isStatic &&
      host.slot.sig = live.sig

/-- Decide how a field access behind a guard goes on.  Before the first reload, and for an
owner that is not defined, the host's instruction is right. -/
def routeField (caller : ClassRef) (access : FieldAccess) (f : FieldRef) : Run FieldRoute := do
  let scope ← ask fun e => e.scopeAt m.scope
  if scope.epoch = 0 then return .native
  let some owner := scope.classes.get? f.owner | return .native
  let live ← m.liveField owner access f
  check fun e => e.checkAccess m.scope caller live.declaring live.modifiers f.text
  return if ← ask fun e => reaches e owner live then .native else .managed live

end Machine

end LiveUpdate
