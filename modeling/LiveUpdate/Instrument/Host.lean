import LiveUpdate.Dispatch.Slot
import LiveUpdate.Instrument.Inherited
import LiveUpdate.Instrument.Relocate
import LiveUpdate.Names

/-!
# Host definitions of managed types

The class that the host defines for a managed type comes from a unit with generated
members for inherited methods.  Its protected and package members are public, because
generated code in other classes calls them, and each body begins with a check that names
the slot of its method.
-/

set_option autoImplicit false

namespace LiveUpdate

/-- The host definition of a managed type. -/
structure HostForm where
  unit : TypeUnit
  /-- The declared modifiers of members that were widened or generated. -/
  declaredAccess : Table MemberKey Modifiers
  slots : SlotTable
deriving Inhabited

namespace HostForm

/-- Whether the host makes a method public although it is not declared so. -/
def isWidened (m : MethodDef) : Bool :=
  (m.modifiers.visibility = .heirs || m.modifiers.visibility = .package) && !m.isStaticInit

/-- The method as the host declares it. -/
def widen (m : MethodDef) : MethodDef :=
  if isWidened m then { m with modifiers := m.modifiers.withVisibility .everyone } else m

/-- Whether the body of a method begins with a check. -/
def isChecked (m : MethodDef) : Bool :=
  !m.isStaticInit && !m.modifiers.contains .superDispatcherBit && !m.code.isEmpty

/-- The method with its check. -/
def addCheck (typeId : TypeId) (slots : SlotTable) (m : MethodDef) : MethodDef :=
  match slots.slotOf? m.key with
  | some slot =>
    if isChecked m then
      { m with code := relocate [.entryCheck typeId (UInt32.ofNat slot)] (fun i => [i]) m.code }
    else m
  | none => m

/-- The host definition of the managed type with a number, below a parent class. -/
def ofUnit (u : TypeUnit) (typeId : TypeId) (parent : Option Class) : HostForm :=
  let caught := (parent.map (catchers u)).getD []
  let dispatchers := (parent.map (superDispatchers u)).getD []
  let methods := u.methods ++ caught.map Catcher.method ++ dispatchers
  let slots :=
    (SlotTable.assignAll {} ((u.methods.filter fun m => !m.isStaticInit).map MethodDef.key)
      .declared).assignAll (caught.map fun c => c.method.key) .catcher
  let access : Table MemberKey Modifiers :=
    Table.putAll [] (caught.map fun c => (c.method.key, c.declared))
  { unit :=
      { u with methods := methods.map fun m => addCheck typeId slots (widen m) }.markInstrumented
    declaredAccess :=
      (methods.filter isWidened).foldl (fun t m => t.putNew m.key m.modifiers) access
    slots }

end HostForm

end LiveUpdate
