import LiveUpdate.Instrument.Executor
import LiveUpdate.Scope.Define

/-!
# Reloading

A reload gives a managed type a new live version.  The bytes are decoded and verified,
and, if the options say so, refused when the host could not honour the change.  Then the
observers are asked, classes are generated if the version behaves differently from the
first, and the version is published.  Only after that may something run: the static
initializer, when it has changed or an observer wants it, and the observers again.
-/

set_option autoImplicit false

namespace LiveUpdate

/-- Whether a method may take the place of an inherited one: that one is not final, and
the method is not less visible. -/
def mayOverride (m : MethodShape) (inherited : Method) : Bool :=
  !inherited.declared.isFinal &&
    m.modifiers.visibility.rank ≤ inherited.declared.visibility.rank

/-- Whether the host can honour the difference of a version from the first, given the
methods that virtual calls select in the host's parent class: the supertype and the kind
of the type are the same, and every override is permitted. -/
def ShapeDiff.isSafe (d : ShapeDiff) (inherited : Table MemberKey Method) : Bool :=
  !d.supertypeChanged && d.earlier.isInterface = d.latest.isInterface &&
    d.latest.plainMethods.all fun m =>
      m.isStatic || m.modifiers.isPrivate ||
        match inherited.get? m.key with
        | some above => mayOverride m above
        | none => true

/-- What virtual calls select in the parent of a class. -/
def Engine.inheritedVtable (e : Engine) (c : ClassRef) : Table MemberKey Method :=
  match (e.classAt c).parent with
  | some parent => (e.classAt parent).vtable
  | none => []

namespace ManagedType

open Exec

/-- Record a call of an observer that has a name. -/
def record (observer : Observer) (call : ObserverCall) (event : ReloadEvent) :
    Exec ReloadError Unit :=
  match observer.name with
  | some name => modify fun e => { e with trace := e.trace ++ [⟨name, call, event⟩] }
  | none => pure ()

/-- Ask observers before a reload; the first objection stops it. -/
def announce (event : ReloadEvent) : List Observer → Exec ReloadError Unit
  | [] => pure ()
  | o :: rest => do
    record o .before event
    match o.before event with
    | some message => fail (.observer event.typeName message)
    | none => announce event rest

/-- Ask all observers whether the static initializer is to run again. -/
def askRerun (event : ReloadEvent) : List Observer → Exec ReloadError Bool
  | [] => pure false
  | o :: rest => do
    record o .rerun event
    let others ← askRerun event rest
    return o.rerun event || others

/-- Tell observers about a reload; the first complaint ends it. -/
def report (event : ReloadEvent) : List Observer → Exec ReloadError Unit
  | [] => pure ()
  | o :: rest => do
    record o .after event
    match o.after event with
    | some message => fail (.observer event.typeName message)
    | none => report event rest

/-- Generate the contract and the executor of a version and define their classes.  Every
attempt uses up a number. -/
def defineArtifacts (t : TypeRef) (native : ClassRef) (u : TypeUnit) (shape : TypeShape) :
    Run Artifacts := do
  let type ← ask fun e => e.typeAt t
  let number := type.nextArtifact
  modify fun e => e.updateType t fun type => { type with nextArtifact := number + 1 }
  let contract := contractUnit type.name number shape
  let executor ← modifyGet fun e =>
    let ctx : ExecutorContext := ⟨type.name, type.id, e.classAt native, shape⟩
    let (executor, names) :=
      ctx.compile (e.scopeAt type.scope).options (e.namesOf type.scope) number u
    (executor, e.setNames type.scope names)
  ofResult (checkConformity contract executor)
  let c ← Scope.defineClass type.scope (.plain contract none [])
  let x ← Scope.defineClass type.scope
    { ClassSpec.plain executor none [c] with standsFor := some type.id }
  return ⟨c, x⟩

/-- The classes of a version: none when it is like the first, those of the version before
when the bytes are the same, else new ones. -/
def artifactsFor (t : TypeRef) (native : ClassRef) (u : TypeUnit) (shape : TypeShape)
    (digest : Option (List UInt8)) (isLikeFirst : Bool) : Run (Option Artifacts) := do
  let current ← ask fun e => (e.typeAt t).live
  if isLikeFirst then return none
  else if digest.isSome && digest = current.digest && current.artifacts.isSome then
    return current.artifacts
  else return some (← defineArtifacts t native u shape)

/-- Run the static initializer of a version in place of the one that the host ran. -/
def rerunStaticInit (fuel : Nat) (t : TypeRef) (native : ClassRef) : Run Unit := do
  let type ← ask fun e => e.typeAt t
  let version := type.live
  if version.shape.staticInitializer?.isNone then return
  let machine := Machine.of type.scope fuel
  let inExecutor ← ask fun e => version.executor?.bind fun c =>
    ((e.classAt c).method? ⟨executorStaticInitName, .void⟩).map fun m => (c, m)
  let inHost ← ask fun e => ((e.classAt native).method? .staticInit).map fun m => (native, m)
  match inExecutor <|> inHost with
  | some (c, m) => discard (machine.call c m [])
  | none => return

/-- Make a version the live one. -/
def publishVersion (t : TypeRef) (v : LiveVersion) : Exec ReloadError Unit := do
  modify fun e => e.updateType t fun type => type.publish v
  let type ← ask fun e => e.typeAt t
  modify fun e => e.updateScope type.scope fun scope =>
    { scope with
      epoch := scope.epoch + 1
      routes := []
      metadata := scope.metadata.erase type.name }

/-- The unit with these bytes, as a version of a managed type. -/
def readVersion (type : ManagedType) (data : List UInt8) :
    Except ReloadError (TypeUnit × TypeShape) := do
  let (u, shape) ← (TypeShape.ofBytes data).mapError .shape
  if u.name ≠ type.name then throw (.nameMismatch type.name u.name)
  u.verify.mapError .verify
  return (u, shape)

/-- Publish a version that has been found safe, unless an observer objects. -/
def install (fuel : Nat) (t : TypeRef) (native : ClassRef) (stamp : String)
    (data : List UInt8) (u : TypeUnit) (shape : TypeShape) : Exec ReloadError Unit := do
  let type ← ask fun e => e.typeAt t
  let delta := ShapeDiff.between type.live.shape shape
  let difference := ShapeDiff.between type.first.shape shape
  let cumulative := if difference.isEmpty then none else some difference
  let number := type.versions.length
  let event : ReloadEvent := ⟨type.name, native, stamp, number⟩
  let observers ← ask fun e => (e.scopeAt type.scope).observers
  announce event observers
  let digest := TypeUnit.storedDigest? data
  let artifacts ← mapError .run (artifactsFor t native u shape digest cumulative.isNone)
  let slots := type.slots.assignAll
    ((shape.methods.filter fun m => !m.isStaticInit).map MethodShape.key) .added
  modify fun e => e.updateType t fun type => { type with slots }
  let executor ← ask fun e => artifacts.map fun a => e.classAt a.executor
  let dispatch := DispatchTable.build type.name slots shape cumulative executor
  let wanted ← askRerun event observers
  let rerun := delta.staticInitChanged || wanted
  publishVersion t {
    number, stamp, data, digest, unit := u, shape, delta := some delta, cumulative, artifacts,
    dispatch, rerun }
  if rerun then mapError .run (rerunStaticInit fuel t native)
  report event observers

/-- Load a new version of a managed type.  The answer is whether the version was
accepted; one that is unsafe leaves the type as it is. -/
def load (fuel : Nat) (t : TypeRef) (stamp : String) (data : List UInt8) :
    Exec ReloadError Bool := do
  let type ← ask fun e => e.typeAt t
  let scope ← ask fun e => e.scopeAt type.scope
  unless scope.isOpen do fail .scopeClosed
  let some native := type.native | fail (.notManaged type.name)
  let (u, shape) ← ofResult (type.readVersion data)
  let inherited ← ask fun e => e.inheritedVtable native
  if scope.options.verifyReloads &&
      !(ShapeDiff.between type.first.shape shape).isSafe inherited then
    modify fun e => e.updateType t fun type => { type with rejected := type.rejected + 1 }
    return false
  install fuel t native stamp data u shape
  return true

end ManagedType

/-- Load a new version of the managed type with a name in a scope. -/
def Scope.reload (fuel : Nat) (s : ScopeRef) (name stamp : String) (data : List UInt8) :
    Exec ReloadError Bool := do
  match ← Exec.ask fun e => e.type? s name with
  | some t => ManagedType.load fuel t stamp data
  | none => Exec.fail (.notManaged name)

end LiveUpdate
