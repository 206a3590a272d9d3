import LiveUpdate.Engine.Value

/-!
# Frames

A frame is one running call: the method, its local slots, its operand stack and the
place of the instruction that runs.  The operand stack grows at the front.
-/

set_option autoImplicit false

namespace LiveUpdate

/-- One running call. -/
structure Frame where
  /-- The class that the code belongs to. -/
  cls : ClassRef
  method : Method
  /-- The local slots; the receiver and the arguments come first. -/
  locals : List Value
  /-- The operand stack, the top first. -/
  stack : List Value
  /-- The place of the current instruction. -/
  pc : Nat
deriving DecidableEq, Inhabited

namespace Frame

/-- A frame at the start of a method, with the arguments in the first local slots. -/
def enter (cls : ClassRef) (method : Method) (args : List Value) : Frame where
  cls := cls
  method := method
  locals := args ++ List.replicate (method.maxLocals.toNat - args.length) .null
  stack := []
  pc := 0

/-- The error of a stack with too few values. -/
def underflow (f : Frame) : RunError := .stackUnderflow f.method.text

/-- Put a value onto the stack. -/
def push (f : Frame) (value : Value) : Frame := { f with stack := value :: f.stack }

/-- Take the top value off the stack. -/
def pop (f : Frame) : Except RunError (Value × Frame) :=
  match f.stack with
  | value :: rest => .ok (value, { f with stack := rest })
  | [] => .error f.underflow

/-- Take values off the stack; they come in the order in which they were put on. -/
def popMany (f : Frame) (count : Nat) : Except RunError (List Value × Frame) :=
  if f.stack.length < count then .error f.underflow
  else .ok ((f.stack.take count).reverse, { f with stack := f.stack.drop count })

/-- The value at a depth below the top of the stack. -/
def peek (f : Frame) (depth : Nat) : Except RunError Value :=
  match f.stack[depth]? with
  | some value => .ok value
  | none => .error f.underflow

/-- The value of a local slot. -/
def load (f : Frame) (slot : Nat) : Except RunError Value :=
  match f.locals[slot]? with
  | some value => .ok value
  | none => .error (.invalidLocal slot)

/-- Write a local slot. -/
def store (f : Frame) (slot : Nat) (value : Value) : Except RunError Frame :=
  if slot < f.locals.length then .ok { f with locals := f.locals.set slot value }
  else .error (.invalidLocal slot)

/-- The receiver and the arguments, as the local slots now hold them. -/
def arguments (f : Frame) : List Value := f.locals.take f.method.argCount

end Frame

end LiveUpdate
