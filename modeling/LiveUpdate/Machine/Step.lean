import LiveUpdate.Machine.Call
import LiveUpdate.Machine.Field
import LiveUpdate.Machine.Frame
import LiveUpdate.Machine.Operators

/-!
# Executing instructions

What one instruction does to the frame it runs in and to the state of the engine, and
where the frame goes on.
-/

set_option autoImplicit false

namespace LiveUpdate

/-- Where a frame goes on after an instruction. -/
inductive Flow
  | next
  /-- Behind the next instruction, which a guard has carried out. -/
  | skip
  | jump (target : Nat)
  | ret (value : Value)
deriving DecidableEq, Inhabited

/-- A computation inside a frame. -/
abbrev Step := StateT Frame Run

namespace Step

/-- A question about the frame that may fail. -/
def onFrame {α : Type} (f : Frame → Except RunError (α × Frame)) : Step α := do
  let (a, frame) ← (Exec.ofResult (f (← get)) : Run (α × Frame))
  set frame
  return a

/-- A question about the state of the engine. -/
def ask {α : Type} (f : Engine → α) : Step α := (Exec.ask f : Run α)

/-- A question about the state of the engine that may fail. -/
def check {α : Type} (f : Engine → Except RunError α) : Step α := (Exec.check f : Run α)

/-- Fail. -/
def fail {α : Type} (e : RunError) : Step α := (Exec.fail e : Run α)

/-- Put a value onto the stack. -/
def push (value : Value) : Step Unit := modify fun f => f.push value

/-- Take a value off the stack. -/
def pop : Step Value := onFrame Frame.pop

/-- Take values off the stack, in the order in which they were put on. -/
def popMany (count : Nat) : Step (List Value) := onFrame fun f => f.popMany count

/-- The value on the top of the stack. -/
def peek : Step Value := onFrame fun f => return (← f.peek 0, f)

/-- Take an integer off the stack. -/
def popInt : Step Int64 := do
  let value ← pop
  check fun e => value.asInt e

/-- Take a truth value off the stack. -/
def popBool : Step Bool := do
  let value ← pop
  check fun e => value.asBool e

/-- Take an array off the stack. -/
def popArray (use : NullUse) : Step ArrayRef := do
  match (← pop).array? with
  | some a => return a
  | none => fail (.nullPointer use)

/-- Put the result of a call onto the stack, if it has one. -/
def pushResult (sig : MethodSig) (value : Value) : Step Unit := do
  if sig.returnsValue then push value

/-- The instruction that a guard stands in front of. -/
def guarded : Step Instr := do
  let f ← get
  match f.method.code[f.pc + 1]? with
  | some instr => return instr
  | none => fail (.malformed (.danglingCheck f.method.key.text))

end Step

namespace Machine

open Step

variable (m : Machine)

/-- Run a call on behalf of a frame that only forwards to it, so that the frame does not
count as a running call meanwhile. -/
def forwarding (call : Run Value) : Run Value := do
  let depth ← Exec.ask Engine.depth
  modify fun e => { e with depth := depth - 1 }
  try call
  finally modify fun e => { e with depth }

/-- Write an element of an array: the array, the index and the value are on the stack. -/
def arrayStore : Step Unit := do
  let value ← pop
  let index ← popInt
  let a ← popArray .arrayStore
  check fun e => value.checkConforms e (e.arrayAt a).element
  let place ← check fun e => (e.arrayAt a).place index
  modifyThe Engine fun e => e.updateArray a fun cell => cell.set place value

/-- A new array of a length that is on the stack. -/
def newArray (element : TypeSig) : Step Unit := do
  let length := (← popInt).toInt
  if length < 0 then
    fail (.indexOutOfBounds length 0)
  let cell : ArrayCell := ⟨element, Array.replicate length.toNat (.zeroOf element)⟩
  let a ← modifyGetThe Engine fun e => e.newArray cell
  push (.array a)

/-- Whether a value that is not null has a named type. -/
def isInstance (e : Engine) (value : Value) (typeName : String) : Bool :=
  !value.isNull && value.conforms e (.ref typeName)

/-- A field access as the host links it. -/
def accessHost (access : FieldAccess) (f : FieldRef) : Step Unit := do
  let host ← m.hostField (← get).cls access f
  match access with
  | .get =>
    let receiver ← pop
    let o ← check fun _ => fieldReceiver receiver f
    push (← check fun e => e.readSlot o host.slot.declaring host.slot.name (.fieldMissing f))
  | .put =>
    let value ← pop
    let receiver ← pop
    let o ← check fun _ => fieldReceiver receiver f
    check fun e => value.checkConforms e host.slot.sig
    writeSlot o host.slot.declaring host.slot.name value (.fieldMissing f)
  | .getStatic =>
    m.ensureInitialized host.cls
    push (← check fun e => e.readStatic host.cls host.index (.fieldMissing f))
  | .putStatic =>
    let value ← pop
    check fun e => value.checkConforms e host.slot.sig
    m.ensureInitialized host.cls
    writeStatic host.cls host.index value

/-- A field access by live versions. -/
def accessLive (access : FieldAccess) (f : FieldRef) (live : LiveField) : Step Unit := do
  match access with
  | .get =>
    let receiver ← pop
    let o ← check fun _ => fieldReceiver receiver f
    push (← m.readField live (some o))
  | .put =>
    let value ← pop
    let receiver ← pop
    let o ← check fun _ => fieldReceiver receiver f
    m.writeField live (some o) value
  | .getStatic => push (← m.readField live none)
  | .putStatic =>
    let value ← pop
    m.writeField live none value

/-- The managed type that an instruction of the engine names. -/
def managedType (e : Engine) (s : ScopeRef) (id : TypeId) : Except RunError TypeRef :=
  match e.typeWithId? s id with
  | some t => .ok t
  | none => .error (.classNotFound (((e.namesOf s).nameOf? id).getD (typeIdText id)))

/-- A field access on behalf of a managed type, without regard to access. -/
def accessPrivileged (access : FieldAccess) (id : TypeId) (f : FieldRef) : Step Unit := do
  let type ← check fun e => return e.typeAt (← managedType e m.scope id)
  match type.native with
  | some owner => m.accessLive access f (← m.liveField owner access f)
  | none => fail (.classNotFound type.name)

/-- The check of an invocation: the engine makes the call when the host's instruction no
longer means the same. -/
def checkInvoke (id : TypeId) : Step Flow := do
  match ← guarded with
  | .invoke kind method =>
    let caller := (← get).cls
    match ← m.routeInvoke caller id kind method with
    | .native => return .next
    | .dynamic live =>
      let args ← popMany (kind.argCount method)
      pushResult method.sig (← m.callDynamic caller kind method live args)
      return .skip
  | other => fail (.malformed (.strayInvokeCheck other))

/-- The check of a field access: the engine makes the access when the host's instruction
no longer means the same. -/
def checkField : Step Flow := do
  match ← guarded with
  | .access access f =>
    match ← m.routeField (← get).cls access f with
    | .native => return .next
    | .managed live =>
      m.accessLive access f live
      return .skip
  | other => fail (.malformed (.strayFieldCheck other))

/-- The check in front of a method body: the live version says what runs in its place. -/
def checkEntry (id : TypeId) (slot : Nat) : Step Flow := do
  let f ← get
  let some t ← ask fun e => e.typeWithId? m.scope id | return .next
  let type ← ask fun e => e.typeAt t
  let some version := type.published | return .next
  match version.dispatch.entry? slot with
  | none | some .host => return .next
  | some (.executor method) =>
    let some executor := version.executor?
      | fail (.link (.missingExecutor type.name version.number))
    if f.arguments.length ≠ method.argCount then
      fail (.classChange (.shape s!"{type.name}.{f.method.key.text}"))
    return .ret (← forwarding (m.call executor method f.arguments))
  | some .deleted =>
    if f.method.isStatic || f.method.isConstructor then
      fail (.memberMissing type.name f.method.key)
    return .ret (← forwarding (m.callInherited t f.method.key f.arguments))
  | some .abstract => fail (.abstractMethod s!"{type.name}.{f.method.key.text}")

/-- A privileged call of a member of the live version. -/
def callSpecialLive (id : TypeId) (method : MethodRef) : Step Unit := do
  let t ← check fun e => managedType e m.scope id
  match ← ask fun e => (e.typeAt t).live.shape.method? method.key with
  | none => fail (.methodMissing method)
  | some shape =>
    let kind := if shape.isStatic then InvokeKind.static else .special
    let args ← popMany (kind.argCount method)
    pushResult method.sig (← m.callPrivileged t method args)

/-- A privileged call of the implementation that the live version inherits. -/
def callSuperLive (id : TypeId) (method : MethodRef) : Step Unit := do
  let t ← check fun e => managedType e m.scope id
  let args ← popMany (InvokeKind.special.argCount method)
  pushResult method.sig (← m.callInherited t method.key args)

/-- An invocation as the host links it. -/
def invokeHost (kind : InvokeKind) (method : MethodRef) : Step Unit := do
  let args ← popMany (kind.argCount method)
  pushResult method.sig (← m.callNative (← get).cls kind method args)

/-- Execute an instruction that control goes on behind. -/
def executePlain (instr : Instr) : Step Unit := do
  match instr with
  | .pop => discard pop
  | .dup => push (← peek)
  | .swap =>
    let a ← pop
    let b ← pop
    push a
    push b
  | .constNull => push .null
  | .constBool b => push (.bool b)
  | .constInt n => push (.int n)
  | .constFloat bits => push (.float bits)
  | .constStr s => push (.str s)
  | .load slot => push (← onFrame fun f => return (← f.load slot.toNat, f))
  | .store slot =>
    let value ← pop
    onFrame fun f => return ((), ← f.store slot.toNat value)
  | .arith op =>
    let b ← pop
    let a ← pop
    push (← check fun e => a.arith e op b)
  | .neg =>
    let a ← pop
    push (← check fun e => a.negate e)
  | .concat =>
    let b ← pop
    let a ← pop
    push (.str (← ask fun e => a.text e ++ b.text e))
  | .compare op =>
    let b ← pop
    let a ← pop
    push (.bool (← check fun e => a.compareValues e op b))
  | .not => push (.bool !(← popBool))
  | .new typeName => push (.object (← m.instantiate typeName))
  | .newArray element => newArray element
  | .arrayLoad =>
    let index ← popInt
    let a ← popArray .arrayLoad
    let place ← check fun e => (e.arrayAt a).place index
    push (← ask fun e => (e.arrayAt a).get place)
  | .arrayStore => arrayStore
  | .arrayLength =>
    let a ← popArray .arrayLength
    push (.int (.ofNat (← ask fun e => (e.arrayAt a).items.size)))
  | .instanceOf typeName =>
    let value ← pop
    push (.bool (← ask fun e => isInstance e value typeName))
  | .checkCast typeName =>
    let value ← peek
    check fun e =>
      if value.isNull || isInstance e value typeName then .ok ()
      else .error (.classCast (value.typeName e) typeName)
  | .invoke kind method => m.invokeHost kind method
  | .access access f => m.accessHost access f
  | .liveAccess access id f => m.accessPrivileged access id f
  | .liveSpecial id method => m.callSpecialLive id method
  | .liveSuper id method | .liveInit id method => m.callSuperLive id method
  | _ => return

/-- Execute an instruction. -/
def execute (instr : Instr) : Step Flow := do
  match instr with
  | .jump target => return .jump target.toNat
  | .jumpIf cond target =>
    return if (← popBool) = cond then .jump target.toNat else .next
  | .ret => return .ret .null
  | .retValue => return .ret (← pop)
  | .entryCheck id slot => m.checkEntry id slot.toNat
  | .invokeCheck id => m.checkInvoke id
  | .fieldCheck _ => m.checkField
  | other =>
    m.executePlain other
    return .next

end Machine

end LiveUpdate
