import LiveUpdate.Signature.Basic

/-!
# Slots

Every method of a managed type that calls can enter has a slot.  A slot is given once
and keeps its number for as long as the type lives, whatever later versions declare; new
members get the next free number.
-/

set_option autoImplicit false

namespace LiveUpdate

/-- How a member came to have a slot. -/
inductive SlotOrigin
  /-- The first version declares it. -/
  | declared
  /-- It was generated to catch calls of an inherited method. -/
  | catcher
  /-- A later version declares it. -/
  | added
deriving DecidableEq, Inhabited

/-- A slot: the member it belongs to and how it came about. -/
structure Slot where
  key : MemberKey
  origin : SlotOrigin
deriving DecidableEq, Inhabited

/-- The slots of a managed type, in the order of their numbers. -/
structure SlotTable where
  slots : List Slot := []
deriving DecidableEq, Inhabited

namespace SlotTable

/-- The number of the slot of a member. -/
def slotOf? (t : SlotTable) (key : MemberKey) : Option Nat :=
  t.slots.findIdx? fun s => s.key = key

/-- The table in which a member has a slot: its old one, or the next. -/
def assign (t : SlotTable) (key : MemberKey) (origin : SlotOrigin) : SlotTable :=
  if (t.slotOf? key).isSome then t else ⟨t.slots ++ [⟨key, origin⟩]⟩

/-- The table in which all members of a list have slots. -/
def assignAll (t : SlotTable) (keys : List MemberKey) (origin : SlotOrigin) : SlotTable :=
  keys.foldl (fun t key => t.assign key origin) t

/-- The slot with a number. -/
def get? (t : SlotTable) (slot : Nat) : Option Slot := t.slots[slot]?

/-- The number of slots. -/
def size (t : SlotTable) : Nat := t.slots.length

end SlotTable

end LiveUpdate
