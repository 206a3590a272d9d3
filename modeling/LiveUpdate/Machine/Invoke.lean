import LiveUpdate.Machine.Step

/-!
# Running methods

A call enters a method with its arguments, runs the instructions of its body one after
another, and ends with a value or an error.  Fuel bounds both the number of calls inside
each other and the number of instructions of each call; a computation that ends for some
fuel ends in the same way for more.
-/

set_option autoImplicit false

namespace LiveUpdate

namespace Frame

/-- The frame at its next instruction. -/
def goTo (f : Frame) (pc : Nat) : Frame := { f with pc }

/-- The instruction that runs. -/
def instr? (f : Frame) : Option Instr := f.method.code[f.pc]?

end Frame

namespace Machine

open Exec

variable (m : Machine)

/-- Run a frame to its end.  Code that runs out ends a method without a result. -/
def run : Nat → Frame → Run Value
  | 0, _ => throw .outOfFuel
  | n + 1, frame =>
    match frame.instr? with
    | none =>
      if frame.method.returnsValue then fail (.malformed (.fellOffEnd frame.method.text))
      else return .null
    | some instr => do
      let (flow, frame) ← m.execute instr frame
      match flow with
      | .next => run n (frame.goTo (frame.pc + 1))
      | .skip => run n (frame.goTo (frame.pc + 2))
      | .jump target => run n (frame.goTo target)
      | .ret value => return value

/-- Run the body of a call, which counts as a running call until it is over. -/
def counted (body : Run Value) : Run Value := do
  modify fun e => { e with depth := e.depth + 1 }
  try body
  finally modify fun e => { e with depth := e.depth - 1 }

/-- Call a method: check that it can be called, initialize its class when it is static,
and run its body as one more call. -/
def enter (fuel : Nat) (c : ClassRef) (method : Method) (args : List Value) : Run Value := do
  if method.isAbstract then fail (.abstractMethod method.text)
  if args.length ≠ method.argCount then
    fail (.malformed (.argumentCount method.text method.argCount args.length))
  if method.isStatic && !method.key.isStaticInit then
    m.ensureInitialized c
  let depth ← ask Engine.depth
  if (← ask fun e => (e.scopeAt m.scope).options.maxCallDepth) ≤ depth then
    fail (.stackOverflow depth)
  counted (m.run fuel (.enter c method args))

end Machine

/-- Call a method in a scope. -/
def invoke (s : ScopeRef) : Nat → ClassRef → Method → List Value → Run Value
  | 0, _, _, _ => throw .outOfFuel
  | n + 1, c, method, args => Machine.enter ⟨s, invoke s n⟩ n c method args

/-- The machine of a scope with so much fuel. -/
def Machine.of (s : ScopeRef) (fuel : Nat) : Machine := ⟨s, invoke s fuel⟩

end LiveUpdate
