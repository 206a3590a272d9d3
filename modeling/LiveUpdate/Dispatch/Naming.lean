import LiveUpdate.Shape.Basic

/-!
# Names of generated types and members

A version of a managed type whose behaviour differs from the first is compiled into an
executor, a class of static methods, and a contract, the interface of those methods.  In
the executor an instance method takes its receiver as its first parameter.
-/

set_option autoImplicit false

namespace LiveUpdate

/-- The name that constructors have in an executor. -/
def executorInitName : String := "___init___"

/-- The name that the static initializer has in an executor. -/
def executorStaticInitName : String := "___clinit___"

/-- The name of an executor. -/
def executorName (typeName : String) (number : Nat) : String := s!"{typeName}$$E{number}"

/-- The name of a contract. -/
def contractName (typeName : String) (number : Nat) : String := s!"{typeName}$$I{number}"

/-- The name under which a type reaches an inherited method.  It contains the qualified
name of the type, so that no other type declares it. -/
def superDispatcherName (typeName method : String) : String :=
  let flat := String.ofList (typeName.toList.map fun c => if c = '.' then '$' else c)
  s!"__super${flat}${method}"

/-- The member of an executor that stands for a method. -/
def executorKey (typeName : String) (m : MethodShape) : MemberKey :=
  if m.isConstructor then ⟨executorInitName, m.sig.withReceiver typeName⟩
  else if m.isStaticInit then ⟨executorStaticInitName, m.sig⟩
  else if m.isStatic then m.key
  else ⟨m.name, m.sig.withReceiver typeName⟩

end LiveUpdate
