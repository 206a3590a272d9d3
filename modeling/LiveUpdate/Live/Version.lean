import LiveUpdate.Dispatch.Table
import LiveUpdate.FieldStore

/-!
# Versions of managed types

A managed type keeps every version that was ever published.  The first one is what the
host class was defined from; a later one comes with its differences from the version
before it and from the first, and, when it behaves differently from the first, with the
classes generated for it.
-/

set_option autoImplicit false

namespace LiveUpdate

/-- The place of a managed type among all managed types. -/
abbrev TypeRef := Nat
/-- The place of a scope among all scopes. -/
abbrev ScopeRef := Nat

/-- The classes generated for a version. -/
structure Artifacts where
  contract : ClassRef
  executor : ClassRef
deriving DecidableEq, Inhabited

/-- One published definition of a managed type. -/
structure LiveVersion where
  /-- The place in the history; 0 is the first version. -/
  number : Nat
  /-- What the publisher called the version. -/
  stamp : String
  data : List UInt8
  /-- The digest stored in the data. -/
  digest : Option (List UInt8)
  unit : TypeUnit
  shape : TypeShape
  /-- The difference from the version before. -/
  delta : Option ShapeDiff
  /-- The difference from the first version, if there is any. -/
  cumulative : Option ShapeDiff
  artifacts : Option Artifacts
  dispatch : DispatchTable
  /-- Whether publishing the version ran the static initializer again. -/
  rerun : Bool
deriving Inhabited

namespace LiveVersion

/-- Whether the type was defined with this version. -/
def isFirst (v : LiveVersion) : Bool := v.number = 0

/-- The class of static methods generated for the version. -/
def executor? (v : LiveVersion) : Option ClassRef := v.artifacts.map Artifacts.executor

/-- What the publisher of a first version is taken to call it. -/
def firstStamp : String := "original"

/-- The version that a type is defined with. -/
def first (data : List UInt8) (unit : TypeUnit) (shape : TypeShape) (slots : SlotTable) :
    LiveVersion where
  number := 0
  stamp := firstStamp
  data := data
  digest := TypeUnit.storedDigest? data
  unit := unit
  shape := shape
  delta := none
  cumulative := none
  artifacts := none
  dispatch := .allHost slots
  rerun := false

end LiveVersion

/-- A type whose definition may change while code that uses it keeps running. -/
structure ManagedType where
  id : TypeId
  name : String
  scope : ScopeRef
  /-- The host class, once it is defined. -/
  native : Option ClassRef
  /-- The managed supertype, once it has been asked for. -/
  superType : Option (Option TypeRef)
  /-- The version that the host class is defined from. -/
  first : LiveVersion
  /-- All versions, the first included, oldest first. -/
  versions : List LiveVersion
  /-- The version that calls enter, once there was a reload. -/
  published : Option LiveVersion
  slots : SlotTable
  /-- The values of static fields that are not in the host class. -/
  statics : FieldStore
  /-- The number that the next generated classes get. -/
  nextArtifact : Nat
  /-- The number of accepted reloads. -/
  reloads : Nat
  /-- The number of reloads refused for safety. -/
  rejected : Nat
  /-- The stamp of the last accepted reload. -/
  lastStamp : Option String
deriving Inhabited

namespace ManagedType

/-- A type at its definition, before it has a host class. -/
def define (id : TypeId) (scope : ScopeRef) (first : LiveVersion) (slots : SlotTable) :
    ManagedType where
  id := id
  name := first.unit.name
  scope := scope
  native := none
  superType := none
  first := first
  versions := [first]
  published := none
  slots := slots
  statics := {}
  nextArtifact := 1
  reloads := 0
  rejected := 0
  lastStamp := none

/-- The version in force. -/
def live (t : ManagedType) : LiveVersion := t.published.getD t.first

/-- A version that was published is in force. -/
theorem live_of_published {t : ManagedType} {v : LiveVersion} (published : t.published = some v) :
    t.live = v := by
  unfold live
  rw [published]
  rfl

/-- If a version was published, it is the one in force. -/
theorem published_eq_live {t : ManagedType} (published : t.published.isSome) :
    t.published = some t.live := by
  obtain ⟨v, some_v⟩ := Option.isSome_iff_exists.1 published
  rw [live_of_published some_v, some_v]

/-- Where the value of a field of the live version is kept. -/
def fieldPlacement (t : ManagedType) (f : FieldDef) : FieldPlacement :=
  placement (t.first.shape.field? f.name) f

/-- The type with one more version, which is in force from now on. -/
def publish (t : ManagedType) (v : LiveVersion) : ManagedType :=
  { t with
    versions := t.versions ++ [v]
    published := some v
    reloads := t.reloads + 1
    lastStamp := some v.stamp }

end ManagedType

end LiveUpdate
