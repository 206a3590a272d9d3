import LiveUpdate.Instrument.Guard
import LiveUpdate.Instrument.Inherited

/-!
# Executors

The concrete methods of a version are compiled into static methods of its executor.
There, what a method does with members of its own type becomes a privileged instruction
of the engine, which acts on the live version; so does a constructor call.  A non-virtual
call of an inherited method goes through the super-dispatcher of the host class where
there is one.  Everything else gets a guard, as in any other unit.
-/

set_option autoImplicit false

namespace LiveUpdate

/-- What an executor is compiled for. -/
structure ExecutorContext where
  typeName : String
  typeId : TypeId
  /-- The host class of the type. -/
  host : Class
  /-- The shape of the version. -/
  live : TypeShape
deriving Inhabited

namespace ExecutorContext

/-- A non-virtual call in the code of the version. -/
def specialCall (ctx : ExecutorContext) (m : MethodRef) : Instr :=
  if m.owner = ctx.typeName then .liveSpecial ctx.typeId m
  else if m.name = constructorName then .liveInit ctx.typeId m
  else
    let name := superDispatcherName ctx.typeName m.name
    if (ctx.host.method? ⟨name, m.sig⟩).isSome then .invoke .special ⟨ctx.typeName, name, m.sig⟩
    else .liveSuper ctx.typeId m

/-- The engine's instruction in the place of one that the version may execute and other
classes may not. -/
def privileged? (ctx : ExecutorContext) (instr : Instr) : Option Instr :=
  match instr with
  | .access a f => if f.owner = ctx.typeName then some (.liveAccess a ctx.typeId f) else none
  | .invoke .special m => some (ctx.specialCall m)
  | .invoke _ m =>
    if m.owner = ctx.typeName && (ctx.live.method? m.key).any fun d => d.modifiers.isPrivate then
      some (.liveSpecial ctx.typeId m)
    else none
  | _ => none

/-- The instructions of the executor in the place of one of the version. -/
def compileInstr (ctx : ExecutorContext) (options : Options) (names : NameTable)
    (instr : Instr) : List Instr :=
  match ctx.privileged? instr with
  | some replaced => [replaced]
  | none => withGuard options names instr

/-- The type that the guard of an instruction names, if the executor has one for it. -/
def guardedOwner? (ctx : ExecutorContext) (options : Options) (instr : Instr) : Option String :=
  if (ctx.privileged? instr).isSome then none else LiveUpdate.guardedOwner? options instr

/-- The methods of a unit that have bodies, with their shapes. -/
def concreteMethods (ctx : ExecutorContext) (u : TypeUnit) : List (MethodDef × MethodShape) :=
  (u.methods.zip ctx.live.methods).filter fun e => !e.1.code.isEmpty

/-- The executor's method for a method of the version. -/
def compileMethod (ctx : ExecutorContext) (options : Options) (names : NameTable)
    (m : MethodDef) (shape : MethodShape) : MethodDef :=
  let key := executorKey ctx.typeName shape
  { m with
    name := key.name
    sig := key.sig
    modifiers := .publicBit ||| .staticBit ||| .syntheticBit
    code := relocate [] (ctx.compileInstr options names) m.code }

/-- The executor with a number, when all the owners that its guards name have numbers. -/
def executorUnit (ctx : ExecutorContext) (options : Options) (names : NameTable) (number : Nat)
    (u : TypeUnit) : TypeUnit :=
  { TypeUnit.named (executorName ctx.typeName number) with
    flags := TypeUnit.instrumentedFlag ||| TypeUnit.executorFlag
    interfaces := [contractName ctx.typeName number]
    modifiers := .publicBit ||| .finalBit ||| .syntheticBit
    sourceFile := u.sourceFile
    methods := (ctx.concreteMethods u).map fun e => ctx.compileMethod options names e.1 e.2 }

/-- The executor with a number for the methods of a unit, and the table in which the
owners that its guards name have numbers. -/
def compile (ctx : ExecutorContext) (options : Options) (names : NameTable) (number : Nat)
    (u : TypeUnit) : TypeUnit × NameTable :=
  let owners := (ctx.concreteMethods u).flatMap fun e =>
    e.1.code.filterMap (ctx.guardedOwner? options)
  let names := names.addAll owners
  (ctx.executorUnit options names number u, names)

end ExecutorContext

/-- The contract with a number of a version: its concrete members, with the receiver as
an explicit parameter. -/
def contractUnit (typeName : String) (number : Nat) (live : TypeShape) : TypeUnit :=
  let member := fun (m : MethodShape) =>
    let key := executorKey typeName m
    MethodDef.make key.name key.sig (.publicBit ||| .abstractBit) []
  { TypeUnit.named (contractName typeName number) with
    flags := TypeUnit.instrumentedFlag ||| TypeUnit.contractFlag
    modifiers := .publicBit ||| .interfaceBit ||| .abstractBit ||| .syntheticBit
    methods := (live.methods.filter fun m => !m.isAbstract).map member }

/-- Whether an executor has a public static method under a key. -/
def implements (executor : TypeUnit) (key : MemberKey) : Bool :=
  (executor.method? key).any fun m => m.modifiers.contains (.publicBit ||| .staticBit)

/-- Check that an executor implements every member of a contract. -/
def checkConformity (contract executor : TypeUnit) : Except RunError Unit :=
  match contract.methods.find? fun m => !implements executor m.key with
  | some m =>
    .error (.link (.missingImplementation executor.name s!"{contract.name}.{m.key.text}"))
  | none => .ok ()

end LiveUpdate
