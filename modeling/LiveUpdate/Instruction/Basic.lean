import LiveUpdate.Signature.Basic

/-!
# Instructions

Code is a list of instructions for a machine with local slots and an operand stack.
Jumps name an instruction by its index.  Operands that name members are symbolic: the
owner, the name and the signature that the instruction expects.

The last group is written by the engine alone: checks in front of calls, field accesses
and method bodies, and accesses on behalf of a managed type.
-/

set_option autoImplicit false

namespace LiveUpdate

/-- A field as an instruction names it. -/
structure FieldRef where
  owner : String
  name : String
  sig : TypeSig
deriving DecidableEq, Inhabited

/-- The text of a field reference. -/
def FieldRef.text (f : FieldRef) : String := s!"{f.owner}.{f.name}:{f.sig.text}"

/-- A method as an instruction names it. -/
structure MethodRef where
  owner : String
  name : String
  sig : MethodSig
deriving DecidableEq, Inhabited

namespace MethodRef

/-- What identifies the method within its type. -/
def key (m : MethodRef) : MemberKey := ⟨m.name, m.sig⟩

/-- The text of a method reference. -/
def text (m : MethodRef) : String := s!"{m.owner}.{m.name}{m.sig.text}"

end MethodRef

/-- How an invocation selects and calls its method. -/
inductive InvokeKind
  /-- By the class of the receiver. -/
  | virtual
  /-- By the class of the receiver, through an interface. -/
  | interface
  /-- Without a receiver. -/
  | static
  /-- Exactly the named method: constructors, private methods, super calls. -/
  | special
deriving DecidableEq, Inhabited

/-- What a field access does. -/
inductive FieldAccess
  | get
  | put
  | getStatic
  | putStatic
deriving DecidableEq, Inhabited

namespace FieldAccess

/-- Whether the access means a static field. -/
def isStatic : FieldAccess → Bool
  | getStatic | putStatic => true
  | get | put => false

/-- Whether the access writes. -/
def isWrite : FieldAccess → Bool
  | put | putStatic => true
  | get | getStatic => false

end FieldAccess

/-- Arithmetic on two numbers. -/
inductive ArithOp
  | add
  | sub
  | mul
  | div
  | rem
deriving DecidableEq, Inhabited

/-- Comparisons of two values. -/
inductive CompareOp
  | eq
  | ne
  | lt
  | le
  | gt
  | ge
deriving DecidableEq, Inhabited

/-- One instruction. -/
inductive Instr
  | nop
  | pop
  | dup
  | swap
  | constNull
  | constBool (b : Bool)
  | constInt (n : Int64)
  /-- A float by its bits. -/
  | constFloat (bits : UInt64)
  | constStr (s : String)
  | load (slot : UInt16)
  | store (slot : UInt16)
  | arith (op : ArithOp)
  | neg
  /-- Join the texts of two values. -/
  | concat
  | compare (op : CompareOp)
  | not
  | jump (target : UInt32)
  /-- Take a truth value off the stack and jump when it is `cond`. -/
  | jumpIf (cond : Bool) (target : UInt32)
  | ret
  | retValue
  | new (typeName : String)
  | newArray (element : TypeSig)
  | arrayLoad
  | arrayStore
  | arrayLength
  | instanceOf (typeName : String)
  | checkCast (typeName : String)
  | invoke (kind : InvokeKind) (method : MethodRef)
  | access (access : FieldAccess) (field : FieldRef)
  /-- In front of a method body: go on with what the slot now stands for. -/
  | entryCheck (typeId slot : UInt32)
  /-- In front of an invocation. -/
  | invokeCheck (typeId : UInt32)
  /-- In front of a field access. -/
  | fieldCheck (typeId : UInt32)
  /-- A field access on behalf of a managed type. -/
  | liveAccess (access : FieldAccess) (typeId : UInt32) (field : FieldRef)
  /-- A call of the live member of a managed type. -/
  | liveSpecial (typeId : UInt32) (method : MethodRef)
  /-- A call of the implementation that a managed type inherits. -/
  | liveSuper (typeId : UInt32) (method : MethodRef)
  /-- A constructor call of the supertype of a managed type. -/
  | liveInit (typeId : UInt32) (method : MethodRef)
deriving DecidableEq, Inhabited

namespace Instr

/-- Whether control never goes on to the next instruction. -/
def isTerminator : Instr → Bool
  | ret | retValue | jump _ => true
  | _ => false

/-- The target of a jump. -/
def jumpTarget? : Instr → Option UInt32
  | jump t | jumpIf _ t => some t
  | _ => none

/-- A jump with another target; any other instruction as it is. -/
def retarget (instr : Instr) (target : UInt32) : Instr :=
  match instr with
  | jump _ => jump target
  | jumpIf cond _ => jumpIf cond target
  | other => other

/-- Kind and method of an invocation. -/
def invocation? : Instr → Option (InvokeKind × MethodRef)
  | invoke kind m => some (kind, m)
  | _ => none

/-- Kind and field of a field access. -/
def fieldAccess? : Instr → Option (FieldAccess × FieldRef)
  | access a f => some (a, f)
  | _ => none

/-- Whether only the engine writes the instruction. -/
def isEngineOnly : Instr → Bool
  | entryCheck .. | invokeCheck _ | fieldCheck _ | liveAccess .. | liveSpecial .. | liveSuper ..
  | liveInit .. => true
  | _ => false

/-- Whether the instruction calls a constructor, of the supertype or of the same type. -/
def callsConstructor : Instr → Bool
  | invoke .special m | liveSpecial _ m | liveInit _ m => m.name = constructorName
  | _ => false

/-- Whether two instructions are equal when float constants are compared as numbers. -/
def agrees (x y : Instr) : Bool :=
  match x, y with
  | constFloat a, constFloat b => Float.ofBits a == Float.ofBits b
  | x, y => x = y

end Instr

end LiveUpdate
