import LiveUpdate.Instruction.Opcode
import LiveUpdate.Unit.Basic

/-!
# Structural verification of units

A unit is accepted when its header is current, its members have distinct names and keys,
an interface declares only what interfaces may, and every body fits its method: jumps
and local slots are in range, returns agree with the signature, the last instruction
does not fall through, and a constructor of a type with a supertype calls a constructor.
The first thing wrong, in the order of the unit, is reported.
-/

set_option autoImplicit false

namespace LiveUpdate

/-- What is wrong between a method's modifiers and its body. -/
inductive BodyFault
  | abstractWithCode
  | abstractInConcrete
  | concreteWithoutCode
deriving DecidableEq, Inhabited

/-- The report of a body fault. -/
def BodyFault.reason : BodyFault → String
  | abstractWithCode => "abstract method has code"
  | abstractInConcrete => "abstract method in concrete type"
  | concreteWithoutCode => "concrete method has no code"

/-- Why a unit is refused.  Methods are given by the text of their keys. -/
inductive VerifyError
  | header (fault : String)
  | duplicateField (owner field : String)
  | duplicateMethod (owner method : String)
  /-- An interface declares something that only classes may declare. -/
  | interfaceMember (owner what : String)
  | bodyMismatch (owner method : String) (fault : BodyFault)
  | invalidJumpTarget (method : String) (target : UInt32) (index : Nat)
  | invalidLocal (method : String) (slot max : UInt16) (index : Nat)
  /-- The local slots cannot hold the receiver and the parameters. -/
  | tooFewLocals (method : String) (max : UInt16) (needed : Nat)
  | returnMismatch (method : String) (index : Nat)
  | fallOffEnd (method : String)
  /-- A constructor calls no constructor of the supertype or of the same type. -/
  | missingSuperInit (owner method : String)
  /-- An instruction of the engine in a unit that the engine did not write. -/
  | engineInstruction (method : String) (opcode : Opcode) (index : Nat)
deriving DecidableEq, Inhabited

/-- The report of a verification error. -/
def VerifyError.message : VerifyError → String
  | header fault => s!"Unit validation error: {fault}"
  | duplicateField owner field => s!"Duplicate field '{field}' in {owner}"
  | duplicateMethod owner method => s!"Duplicate method '{method}' in {owner}"
  | interfaceMember owner what => s!"Interface {owner} cannot declare {what}"
  | bodyMismatch owner method fault => s!"Method {method} in {owner}: {fault.reason}"
  | invalidJumpTarget method target index =>
    s!"Invalid jump target {target.toNat} at {index} in {method}"
  | invalidLocal method slot max index =>
    s!"Invalid local {slot.toNat} (max {max.toNat}) at {index} in {method}"
  | tooFewLocals method max needed =>
    s!"Method {method} declares {max.toNat} locals but needs {needed} for parameters"
  | returnMismatch method index => s!"Return mismatch at {index} in {method}"
  | fallOffEnd method => s!"Execution falls off end of {method}"
  | missingSuperInit owner method =>
    s!"Constructor {method} in {owner} never invokes a supertype or sibling constructor"
  | engineInstruction method opcode index =>
    s!"Engine-only instruction {opcode.name} at {index} in {method}"

namespace TypeUnit

/-- What one instruction of a body may be, by its place in the body. -/
def checkInstr (u : TypeUnit) (m : MethodDef) (index : Nat) (instr : Instr) :
    Except VerifyError Unit :=
  let name := m.key.text
  if instr.isEngineOnly && !u.isInstrumented then
    .error (.engineInstruction name instr.opcode index)
  else match instr with
    | .jump target | .jumpIf _ target =>
      if target < UInt32.ofNat m.code.length then .ok ()
      else .error (.invalidJumpTarget name target index)
    | .load slot | .store slot =>
      if slot < m.maxLocals then .ok () else .error (.invalidLocal name slot m.maxLocals index)
    | .ret => if m.sig.returnsValue then .error (.returnMismatch name index) else .ok ()
    | .retValue => if m.sig.returnsValue then .ok () else .error (.returnMismatch name index)
    | _ => .ok ()

/-- Check the instructions of a body from a place on. -/
def checkInstrs (u : TypeUnit) (m : MethodDef) : Nat → List Instr → Except VerifyError Unit
  | _, [] => .ok ()
  | index, instr :: rest => do
    u.checkInstr m index instr
    u.checkInstrs m (index + 1) rest

/-- Check the body of a concrete method. -/
def checkBody (u : TypeUnit) (m : MethodDef) : Except VerifyError Unit := do
  let name := m.key.text
  if m.maxLocals.toNat < m.paramSlots then
    throw (.tooFewLocals name m.maxLocals m.paramSlots)
  u.checkInstrs m 0 m.code
  if (m.code.getLast?.any Instr.isTerminator) = false then
    throw (.fallOffEnd name)
  if m.isConstructor && u.superName.isSome && !m.code.any Instr.callsConstructor then
    throw (.missingSuperInit u.name name)

/-- Check one method: an abstract one has no body and a place to be abstract in, a
concrete one has a body that fits. -/
def checkMethod (u : TypeUnit) (m : MethodDef) : Except VerifyError Unit :=
  let fault := fun f => Except.error (.bodyMismatch u.name m.key.text f)
  if m.modifiers.isAbstract then
    if !m.code.isEmpty then fault .abstractWithCode
    else if !u.isInterface && !u.modifiers.isAbstract then fault .abstractInConcrete
    else .ok ()
  else if m.code.isEmpty then fault .concreteWithoutCode
  else u.checkBody m

/-- Check the fields, given the names of those before them. -/
def checkFields (u : TypeUnit) : List String → List FieldDef → Except VerifyError Unit
  | _, [] => .ok ()
  | seen, f :: rest =>
    if f.name ∈ seen then .error (.duplicateField u.name f.name)
    else if u.isInterface && !f.isStatic then
      .error (.interfaceMember u.name s!"instance field '{f.name}'")
    else u.checkFields (f.name :: seen) rest

/-- Check the methods, given the keys of those before them. -/
def checkMethods (u : TypeUnit) : List MemberKey → List MethodDef → Except VerifyError Unit
  | _, [] => .ok ()
  | seen, m :: rest =>
    if m.key ∈ seen then .error (.duplicateMethod u.name m.key.text)
    else if u.isInterface && m.isConstructor then
      .error (.interfaceMember u.name "a constructor")
    else do
      u.checkMethod m
      u.checkMethods (m.key :: seen) rest

/-- Verify a unit. -/
def verify (u : TypeUnit) : Except VerifyError Unit := do
  if let some fault := u.headerFault? then
    throw (.header fault)
  u.checkFields [] u.fields
  u.checkMethods [] u.methods

end TypeUnit

end LiveUpdate
