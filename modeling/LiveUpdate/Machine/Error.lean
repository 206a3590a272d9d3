import LiveUpdate.Instruction.Description
import LiveUpdate.Shape.Basic

/-!
# Execution and linkage errors

What can go wrong while code runs or a class is linked, as causes, and how each is
reported.  Members are given by the text that names them in the report.
-/

set_option autoImplicit false

namespace LiveUpdate

/-- The two sorts of members. -/
inductive MemberSort
  | method
  | field
deriving DecidableEq, Inhabited

/-- The name of a sort of members. -/
def MemberSort.name : MemberSort → String
  | method => "method"
  | field => "field"

/-- How a class and a use of it disagree. -/
inductive ClassChange
  /-- A member is static and its use is not, or the other way round. -/
  | kind (member : String) (isStatic : Bool) (sort : MemberSort)
  /-- The executor's method takes another number of arguments. -/
  | shape (method : String)
  | notEnumeration (typeName : String)
deriving DecidableEq, Inhabited

/-- The report of a disagreement. -/
def ClassChange.reason : ClassChange → String
  | kind member isStatic sort =>
    member ++ (if isStatic then " is a static " else " is not a static ") ++ sort.name
  | shape method => s!"{method} changed shape"
  | notEnumeration typeName => s!"{typeName} is not an enumeration"

/-- Why a use of a member is not permitted. -/
inductive Denial
  /-- The member's visibility excludes the caller. -/
  | hidden (caller : String) (visibility : Visibility) (member : String)
  /-- Exactly this method may only be called by a caller that extends its owner. -/
  | nonVirtual (caller method : String)
deriving DecidableEq, Inhabited

/-- The report of a denial. -/
def Denial.reason : Denial → String
  | hidden caller visibility member => s!"{caller} cannot access {visibility.name} member {member}"
  | nonVirtual caller method => s!"{caller} cannot make a non-virtual call to {method}"

/-- Where an object was needed and there was none. -/
inductive NullUse
  | receiver (of : String)
  | fieldAccess (field : String)
  | fieldReceiver (field : String)
  | arrayLoad
  | arrayStore
  | arrayLength
deriving DecidableEq, Inhabited

/-- The report of a missing object. -/
def NullUse.reason : NullUse → String
  | receiver of => s!"receiver of {of}"
  | fieldAccess field => s!"field access {field}"
  | fieldReceiver field => s!"receiver of field {field}"
  | arrayLoad => "array load"
  | arrayStore => "array store"
  | arrayLength => "array length"

/-- Why a class cannot be linked. -/
inductive LinkFault
  | extendsInterface (name parent : String)
  | extendsFinal (name parent : String)
  | notInterface (name : String)
  | overridesFinal (method declaring : String)
  | missingExecutor (typeName : String) (version : Nat)
  | missingImplementation (executor method : String)
  /-- The class has no shape to answer reflection with. -/
  | undescribed (name : String) (error : ShapeError)
deriving DecidableEq, Inhabited

/-- The report of a link fault. -/
def LinkFault.reason : LinkFault → String
  | extendsInterface name parent => s!"{name} cannot extend interface {parent}"
  | extendsFinal name parent => s!"{name} cannot extend final {parent}"
  | notInterface name => s!"{name} is not an interface"
  | overridesFinal method declaring => s!"{method} overrides final method of {declaring}"
  | missingExecutor typeName version => s!"{typeName} version {version} has no executor"
  | missingImplementation executor method => s!"{executor} does not implement {method}"
  | undescribed name error => s!"cannot describe {name}: {error.message}"

/-- Code or calls that no verified unit contains. -/
inductive Malformation
  | argumentCount (method : String) (expected given : Nat)
  | fellOffEnd (method : String)
  | staticSlot (index : Nat) (className : String)
  /-- A check of an invocation in front of something else. -/
  | strayInvokeCheck (next : Instr)
  /-- A check of a field access in front of something else. -/
  | strayFieldCheck (next : Instr)
  /-- A check at the end of a body. -/
  | danglingCheck (method : String)
deriving DecidableEq, Inhabited

/-- The report of malformed code. -/
def Malformation.reason : Malformation → String
  | argumentCount method expected given => s!"{method} expects {expected} arguments, got {given}"
  | fellOffEnd method => s!"fell off the end of {method}"
  | staticSlot index className => s!"static slot {index} of {className}"
  | strayInvokeCheck next => s!"invoke check before {next.describe}"
  | strayFieldCheck next => s!"field check before {next.describe}"
  | danglingCheck method => s!"dangling guard in {method}"

/-- An execution or linkage error. -/
inductive RunError
  | classNotFound (name : String)
  | noSuchMethod (owner name sig : String)
  | noSuchField (owner name sig : String)
  | classChange (change : ClassChange)
  | illegalAccess (denial : Denial)
  | abstractMethod (method : String)
  | instantiation (typeName : String)
  | nullPointer (use : NullUse)
  | typeMismatch (expected found : String)
  | classCast (found target : String)
  | divisionByZero
  | indexOutOfBounds (index : Int) (length : Nat)
  | stackUnderflow (method : String)
  | invalidLocal (slot : Nat)
  | stackOverflow (depth : Nat)
  | duplicateClass (name : String)
  | link (fault : LinkFault)
  /-- A stored value that no longer fits the declared type of its field. -/
  | fieldTypeMismatch (owner name sig : String)
  | malformed (reason : Malformation)
deriving DecidableEq, Inhabited

/-- The report of an execution or linkage error. -/
def RunError.message : RunError → String
  | classNotFound name => s!"Class not found: {name}"
  | noSuchMethod owner name sig => s!"No such method: {owner}.{name}{sig}"
  | noSuchField owner name sig => s!"No such field: {owner}.{name}:{sig}"
  | classChange change => s!"Incompatible class change: {change.reason}"
  | illegalAccess denial => s!"Illegal access: {denial.reason}"
  | abstractMethod method => s!"Abstract method: {method}"
  | instantiation typeName => s!"Cannot instantiate {typeName}"
  | nullPointer use => s!"Null pointer: {use.reason}"
  | typeMismatch expected found => s!"Type mismatch: expected {expected}, found {found}"
  | classCast found target => s!"Class cast: {found} cannot be cast to {target}"
  | divisionByZero => "Arithmetic error: division by zero"
  | indexOutOfBounds index length => s!"Index {index} out of bounds for length {length}"
  | stackUnderflow method => s!"Stack underflow in {method}"
  | invalidLocal slot => s!"Invalid local {slot}"
  | stackOverflow depth => s!"Stack overflow (depth {depth})"
  | duplicateClass name => s!"Duplicate class: {name}"
  | link fault => s!"Link error: {fault.reason}"
  | fieldTypeMismatch owner name sig =>
    s!"Stored value for {owner}.{name} is not assignable to {sig}"
  | malformed reason => s!"Invalid instruction: {reason.reason}"

namespace RunError

/-- The error of a method that a symbolic reference does not find. -/
def methodMissing (m : MethodRef) : RunError := noSuchMethod m.owner m.name m.sig.text

/-- The error of a member that a type does not have. -/
def memberMissing (owner : String) (key : MemberKey) : RunError :=
  noSuchMethod owner key.name key.sig.text

/-- The error of a field that a symbolic reference does not find. -/
def fieldMissing (f : FieldRef) : RunError := noSuchField f.owner f.name f.sig.text

end RunError

end LiveUpdate
