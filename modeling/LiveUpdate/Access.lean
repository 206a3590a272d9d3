import LiveUpdate.Modifiers
import LiveUpdate.Signature.Basic

/-!
# Member access

Who may use a member follows from its visibility, the type that declares it and the type
whose code uses it.  Only for a protected member of another package does it matter
whether the user extends the declaring type.
-/

set_option autoImplicit false

namespace LiveUpdate.Access

/-- Whether two types are in one package. -/
def samePackage (a b : String) : Bool := packageOf a = packageOf b

/-- Whether the answer depends on what the caller extends. -/
def asksHeritage (caller declaring : String) (modifiers : Modifiers) : Bool :=
  modifiers.visibility = .heirs && !samePackage caller declaring

/-- Whether code of `caller` may use a member of `declaring`. -/
def permits (caller declaring : String) (modifiers : Modifiers) (callerExtends : Bool) : Bool :=
  match modifiers.visibility with
  | .everyone => true
  | .owner => caller = declaring
  | .package => samePackage caller declaring
  | .heirs => samePackage caller declaring || callerExtends

end LiveUpdate.Access
