import LiveUpdate.Engine.Basic

/-!
# Computations of the engine

A computation of the engine changes its state, also when it fails.  It stops early with
an error or because its fuel, the bound on the number of steps, was not enough; a
computation that stops for the second reason would go on with more fuel.
-/

set_option autoImplicit false

namespace LiveUpdate

/-- Why a computation stopped without a result. -/
inductive Stop (ε : Type)
  | error (e : ε)
  | outOfFuel
deriving DecidableEq, Inhabited

/-- Stop for a reason of another sort. -/
def Stop.map {ε δ : Type} (f : ε → δ) : Stop ε → Stop δ
  | error e => .error (f e)
  | outOfFuel => .outOfFuel

/-- A computation on the engine that may fail with an `ε`. -/
abbrev Exec (ε : Type) := EStateM (Stop ε) Engine

/-- A computation that runs code. -/
abbrev Run := Exec RunError

namespace Exec

variable {ε δ α : Type}

/-- Fail. -/
def fail (e : ε) : Exec ε α := throw (.error e)

/-- The answer of a pure computation. -/
def ofResult (x : Except ε α) : Exec ε α :=
  match x with
  | .ok a => pure a
  | .error e => fail e

/-- The answer of a question about the state. -/
def ask (f : Engine → α) : Exec ε α := do return f (← get)

/-- The answer of a question about the state that may fail. -/
def check (f : Engine → Except ε α) : Exec ε α := do ofResult (f (← get))

/-- The answer of a question about the state that may stop for want of fuel. -/
def resolve (f : Engine → Except (Stop ε) α) : Exec ε α := do
  match f (← get) with
  | .ok a => pure a
  | .error stop => throw stop

/-- The answer of a question about the state, or an error if there is none. -/
def require (f : Engine → Option α) (e : ε) : Exec ε α := do
  match f (← get) with
  | some a => pure a
  | none => fail e

/-- The computation with its errors as errors of another sort. -/
def mapError (f : ε → δ) (x : Exec ε α) : Exec δ α := fun e =>
  match x e with
  | .ok a e => .ok a e
  | .error stop e => .error (stop.map f) e

end Exec

end LiveUpdate
