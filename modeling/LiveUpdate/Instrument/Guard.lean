import LiveUpdate.Instrument.Relocate
import LiveUpdate.Names
import LiveUpdate.Options.Basic
import LiveUpdate.Unit.Basic

/-!
# Guards

In every unit that enters a scope a guard stands in front of each invocation and each
field access.  It names the owner of the member by number.  Accesses of system types are
left alone.
-/

set_option autoImplicit false

namespace LiveUpdate

/-- The type whose member an instruction uses. -/
def Instr.owner? (instr : Instr) : Option String :=
  match instr with
  | .invoke _ m => some m.owner
  | .access _ f => some f.owner
  | _ => none

/-- The type that the guard of an instruction names, if the instruction gets one. -/
def guardedOwner? (options : Options) (instr : Instr) : Option String :=
  instr.owner?.filter fun owner => !options.isSystemType owner

/-- The guard in front of an instruction, with the number of the owner. -/
def guardWith (id : TypeId) (instr : Instr) : Instr :=
  match instr with
  | .access .. => .fieldCheck id
  | _ => .invokeCheck id

/-- The instruction with its guard, if it gets one, in front of it. -/
def withGuard (options : Options) (names : NameTable) (instr : Instr) : List Instr :=
  match guardedOwner? options instr with
  | some owner => [guardWith ((names.lookup owner).getD 0) instr, instr]
  | none => [instr]

/-- The table in which all names of a list have numbers. -/
def NameTable.addAll (names : NameTable) (added : List String) : NameTable :=
  added.foldl (fun t name => (t.idFor name).2) names

/-- The owners that the guards of a unit name, in the order of the code. -/
def TypeUnit.guardedOwners (options : Options) (u : TypeUnit) : List String :=
  u.methods.flatMap fun m => m.code.filterMap (guardedOwner? options)

/-- The unit with guards, when all the owners that they name have numbers. -/
def TypeUnit.withGuards (options : Options) (names : NameTable) (u : TypeUnit) : TypeUnit :=
  let guardMethod := fun (m : MethodDef) =>
    { m with code := relocate [] (withGuard options names) m.code }
  { u with methods := u.methods.map guardMethod }.markInstrumented

/-- The unit with guards, and the table in which the owners that they name have numbers. -/
def TypeUnit.guard (options : Options) (names : NameTable) (u : TypeUnit) :
    TypeUnit × NameTable :=
  let names := names.addAll (u.guardedOwners options)
  (u.withGuards options names, names)

end LiveUpdate
