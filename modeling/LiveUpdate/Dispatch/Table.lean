import LiveUpdate.Class.Basic
import LiveUpdate.Dispatch.Naming
import LiveUpdate.Dispatch.Slot
import LiveUpdate.Shape.Diff

/-!
# Dispatch tables

The dispatch table of a version says, slot by slot, what runs when a call enters the
slot: the host's own body, a method of the version's executor, or nothing, because the
member is gone or abstract.
-/

set_option autoImplicit false

namespace LiveUpdate

/-- What runs when a slot is entered. -/
inductive DispatchEntry
  /-- The body that the host class was defined with. -/
  | host
  /-- A static method of the executor. -/
  | executor (method : Method)
  /-- Nothing: the member no longer exists. -/
  | deleted
  /-- Nothing: the member is abstract. -/
  | abstract
deriving DecidableEq, Inhabited

/-- The entries of a version's slots, in the order of the slots. -/
structure DispatchTable where
  entries : List (MemberKey × DispatchEntry) := []
deriving DecidableEq, Inhabited

namespace DispatchTable

/-- The table of a version that behaves like the first: every slot runs its host body. -/
def allHost (slots : SlotTable) : DispatchTable :=
  ⟨slots.slots.map fun s => (s.key, .host)⟩

/-- Whether a method does what it did in the first version, given the difference between
the two. -/
def isUnchanged (cumulative : Option ShapeDiff) (key : MemberKey) : Bool :=
  match cumulative.bind fun d => d.methodChange? key with
  | some change => !change.bodyChanged && !change.staticFlipped
  | none => true

/-- What a slot of a live version runs. -/
def entryFor (typeName : String) (live : TypeShape) (cumulative : Option ShapeDiff)
    (executor : Option Class) (slot : Slot) : DispatchEntry :=
  match live.method? slot.key with
  | some m =>
    if m.isAbstract then .abstract
    else if slot.origin = .declared && isUnchanged cumulative slot.key then .host
    else match executor.bind fun c => c.method? (executorKey typeName m) with
      | some target => .executor target
      | none => if slot.origin = .declared then .host else .deleted
  | none => if slot.origin = .catcher then .host else .deleted

/-- The table of a live version.  `cumulative` is its difference from the first version,
if there is one, and `executor` the class generated for it. -/
def build (typeName : String) (slots : SlotTable) (live : TypeShape)
    (cumulative : Option ShapeDiff) (executor : Option Class) : DispatchTable :=
  ⟨slots.slots.map fun s => (s.key, entryFor typeName live cumulative executor s)⟩

/-- The entry of a slot. -/
def entry? (t : DispatchTable) (slot : Nat) : Option DispatchEntry :=
  t.entries[slot]?.map Prod.snd

/-- The entry of the slot that a member has. -/
def lookup (t : DispatchTable) (key : MemberKey) : Option DispatchEntry :=
  (t.entries.find? fun e => e.1 = key).map Prod.snd

/-- The number of slots that do not run their host body. -/
def redirected (t : DispatchTable) : Nat :=
  (t.entries.filter fun e => e.2 ≠ .host).length

end DispatchTable

end LiveUpdate
