import LiveUpdate.Machine.Error
import LiveUpdate.Unit.Verify

/-!
# Definition and reload errors

Why a unit cannot be defined in a scope, or cannot become the live version of its type.
-/

set_option autoImplicit false

namespace LiveUpdate

/-- A definition or reload error. -/
inductive ReloadError
  /-- The bytes are not a unit. -/
  | unit (error : UnitError)
  | verify (error : VerifyError)
  | shape (error : ShapeError)
  | run (error : RunError)
  /-- The unit defines another type. -/
  | nameMismatch (expected found : String)
  | notManaged (name : String)
  /-- An observer objected to the reload, or complained about it. -/
  | observer (typeName message : String)
  | scopeClosed
  | duplicateType (name : String)
deriving DecidableEq, Inhabited

/-- The report of a definition or reload error. -/
def ReloadError.message : ReloadError → String
  | unit e => s!"Malformed unit: {e.message}"
  | verify e => s!"Verification failed: {e.message}"
  | shape e => e.message
  | run e => e.message
  | nameMismatch expected found => s!"Reload of {expected} received a unit for {found}"
  | notManaged name => s!"{name} is not a managed type"
  | observer typeName message => s!"Observer failed during reload of {typeName}: {message}"
  | scopeClosed => "Scope is closed"
  | duplicateType name => s!"{name} is already registered"

end LiveUpdate
