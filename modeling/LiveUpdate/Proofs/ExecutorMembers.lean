import LiveUpdate.Instrument.Executor
import LiveUpdate.Proofs.Edit
import LiveUpdate.Proofs.Verified

/-!
# Members of executors

The methods of a version share one static namespace in its executor: an instance method or
a constructor takes its receiver first, and the two special names are replaced.  Two
methods of a unit can therefore be one member of the executor.  This module says which
pairs are, and that of such methods the executor has the code of the last.
-/

set_option autoImplicit false

namespace LiveUpdate

namespace MethodShape

/-- The name that a method has in an executor. -/
def memberName (m : MethodShape) : String :=
  if m.isConstructor then executorInitName
  else if m.isStaticInit then executorStaticInitName
  else m.name

/-- Whether a method has its receiver as the first parameter in an executor. -/
def takesReceiver (m : MethodShape) : Bool :=
  m.isConstructor || (!m.isStaticInit && !m.isStatic)

/-- Two methods of a type are folded into one member of its executor: a static method that
takes the type first stands beside one with a receiver, or a method has the name that the
executor gives to the constructors or to the static initializer. -/
def Clash (typeName : String) (a b : MethodShape) : Prop :=
  a.memberName = b.memberName ∧
    ((a.takesReceiver ∧ ¬ b.takesReceiver ∧ b.sig = a.sig.withReceiver typeName) ∨
      (b.takesReceiver ∧ ¬ a.takesReceiver ∧ a.sig = b.sig.withReceiver typeName) ∨
      (a.takesReceiver = b.takesReceiver ∧ a.name ≠ b.name ∧ a.sig = b.sig))

instance (typeName : String) (a b : MethodShape) : Decidable (Clash typeName a b) :=
  inferInstanceAs (Decidable (_ ∧ _))

end MethodShape

open MethodShape

/-- The executor's key of a method in terms of its name there and its receiver. -/
theorem executorKey_eq (typeName : String) (m : MethodShape) :
    executorKey typeName m =
      ⟨m.memberName, if m.takesReceiver then m.sig.withReceiver typeName else m.sig⟩ := by
  unfold executorKey memberName takesReceiver
  cases ctor : m.isConstructor with
  | true => rfl
  | false =>
    cases init : m.isStaticInit with
    | true => rfl
    | false => cases stat : m.isStatic <;> rfl

theorem withReceiver_inj {typeName : String} {a b : MethodSig}
    (same : a.withReceiver typeName = b.withReceiver typeName) : a = b := by
  obtain ⟨params, result⟩ := a
  obtain ⟨params', result'⟩ := b
  simpa [MethodSig.withReceiver] using same

/-- Two methods with different keys are one member of the executor exactly when they
clash. -/
theorem executorKey_eq_iff_clash {typeName : String} {a b : MethodShape} (apart : a.key ≠ b.key) :
    executorKey typeName a = executorKey typeName b ↔ Clash typeName a b := by
  rw [executorKey_eq, executorKey_eq, MemberKey.mk.injEq]
  unfold Clash
  refine and_congr_right fun names => ?_
  have other (sig : a.sig = b.sig) : a.name ≠ b.name := by
    intro name
    apply apart
    unfold MethodShape.key
    rw [name, sig]
  cases ra : a.takesReceiver with
  | true =>
    cases rb : b.takesReceiver with
    | true =>
      simp only [if_true, not_true_eq_false, false_and, and_false, false_or, true_and]
      exact ⟨fun same => ⟨other (withReceiver_inj same), withReceiver_inj same⟩,
        fun h => by rw [h.2]⟩
    | false => simp [eq_comm]
  | false =>
    cases rb : b.takesReceiver with
    | true => simp
    | false =>
      simp only [Bool.false_eq_true, if_false, false_and, false_or, true_and]
      exact ⟨fun same => ⟨other same, same⟩, fun h => h.2⟩

namespace TypeUnit

/-- The methods of a unit that have bodies. -/
def bodied (u : TypeUnit) : List MethodDef := u.methods.filter fun m => !m.code.isEmpty

/-- The last method with a body that has a member of the executor. -/
def memberSource? (u : TypeUnit) (typeName : String) (key : MemberKey) : Option MethodDef :=
  u.bodied.reverse.find? fun m => executorKey typeName (.ofDef m) = key

end TypeUnit

namespace ExecutorContext

variable {ctx : ExecutorContext} {u : TypeUnit}

/-- The methods that an executor is compiled from are those with bodies. -/
theorem concreteMethods_eq (live : ctx.live = .ofUnit u) :
    ctx.concreteMethods u = u.bodied.map fun m => (m, .ofDef m) := by
  have paired (methods : List MethodDef) :
      methods.zip (methods.map .ofDef) = methods.map fun m => (m, MethodShape.ofDef m) := by
    induction methods with
    | nil => rfl
    | cons m rest ih => rw [List.map_cons, List.zip_cons_cons, ih, List.map_cons]
  unfold concreteMethods TypeUnit.bodied
  rw [live, show (TypeShape.ofUnit u).methods = u.methods.map .ofDef from rfl, paired,
    List.filter_map]
  rfl

/-- Under every key an executor has the code of the last method with that member. -/
theorem methodsOf_spec (live : ctx.live = .ofUnit u) (options : Options) (names : NameTable)
    (number : Nat) (contract : ClassRef) (key : MemberKey) :
    (Class.methodsOf (ctx.spec options names number u contract)).get? key =
      (u.memberSource? ctx.typeName key).map fun m =>
        Class.bind (executorName ctx.typeName number) []
          (ctx.compileMethod options names m (.ofDef m)) := by
  let compiled := fun m => ctx.compileMethod options names m (.ofDef m)
  let bound := Class.bind (executorName ctx.typeName number) []
  have methods : (ctx.spec options names number u contract).unit.methods =
      u.bodied.map compiled := by
    show (ctx.concreteMethods u).map _ = _
    rw [concreteMethods_eq live, List.map_map]
    rfl
  have entries : Class.methodsOf (ctx.spec options names number u contract) =
      Table.putAll [] (u.bodied.map fun m =>
        (executorKey ctx.typeName (.ofDef m), bound (compiled m))) := by
    unfold Class.methodsOf
    rw [methods, List.map_map]
    rfl
  rw [entries, Table.get?_putAll_nil, ← List.map_reverse, List.find?_map, Option.map_map]
  unfold TypeUnit.memberSource?
  rfl

end ExecutorContext

end LiveUpdate
