import LiveUpdate.Live.Version

/-!
# Members of live versions

What a symbolic reference means now, when every managed type is what its live version
says it is.
-/

set_option autoImplicit false

namespace LiveUpdate

/-- A method as live versions declare it. -/
structure LiveMethod where
  declaring : String
  /-- The modifiers as declared, before any widening. -/
  modifiers : Modifiers
  /-- The declaring type, if it is managed. -/
  managed : Option TypeRef
  /-- The host class of the declaring type and its method, if it has one. -/
  host : Option (ClassRef × Method)
deriving DecidableEq, Inhabited

namespace LiveMethod

/-- Whether the method has no receiver. -/
def isStatic (m : LiveMethod) : Bool := m.modifiers.isStatic

/-- Whether the method has no body. -/
def isAbstract (m : LiveMethod) : Bool := m.modifiers.isAbstract

end LiveMethod

/-- A field as live versions declare it. -/
structure LiveField where
  declaring : String
  name : String
  sig : TypeSig
  modifiers : Modifiers
  /-- The declaring type, if it is managed. -/
  managed : Option TypeRef
  /-- The host class of the declaring type. -/
  cls : ClassRef
  placement : FieldPlacement
deriving DecidableEq, Inhabited

namespace LiveField

/-- Whether the field belongs to the type itself. -/
def isStatic (f : LiveField) : Bool := f.modifiers.isStatic

/-- The managed type that keeps the field in a store, if one does. -/
def storedBy? (f : LiveField) : Option TypeRef :=
  if f.placement = .store then f.managed else none

/-- The error of a field whose declaration has no slot behind it. -/
def missing (f : LiveField) : RunError := .noSuchField f.declaring f.name f.sig.text

end LiveField

/-- How a guarded invocation goes on. -/
inductive InvokeRoute
  /-- The host's instruction means the same member. -/
  | native
  /-- The engine makes the call. -/
  | dynamic (method : LiveMethod)
deriving DecidableEq, Inhabited

/-- How a guarded field access goes on. -/
inductive FieldRoute
  /-- The host's instruction reaches the same value. -/
  | native
  /-- The engine makes the access. -/
  | managed (field : LiveField)
deriving DecidableEq, Inhabited

/-- A remembered answer about an invocation. -/
structure CachedRoute where
  /-- The epoch in which the answer was found. -/
  epoch : Nat
  live : LiveMethod
  /-- Whether the host's instruction means the same member. -/
  nativeOk : Bool
deriving DecidableEq, Inhabited

end LiveUpdate
