import LiveUpdate.Proofs.Assembling
import LiveUpdate.Proofs.PrivateCalls
import LiveUpdate.Proofs.Selection

/-!
# Methods that interfaces declare with a body

A name means a method of an interface where no class of the chain has one.  A selecting call looks
for the method again in the chain of the receiver's class, and in no interface.  So where the chain
declares none, the call runs the method that it is linked to only if that is private, and it fails
as if the method had no body otherwise.
-/

set_option autoImplicit false

namespace LiveUpdate

open Exec

/-- What fails has no value. -/
theorem run'_of_error {α : Type} {x : Run α} {e e' : Engine} {stop : Stop RunError}
    (fails : x e = .error stop e') : x.run' e = none := by
  unfold EStateM.run' EStateM.run
  rw [fails]

namespace Engine

variable {e : Engine} {s : ScopeRef} {c caller : ClassRef} {key : MemberKey} {kind : InvokeKind}
  {ref : MethodRef} {o : ObjectRef} {linked : ClassRef × Method}

/-- No class of the chain of a class declares a method under a key, neither as it was defined nor
by its live version. -/
structure Undeclared (e : Engine) (s : ScopeRef) (c : ClassRef) (key : MemberKey) : Prop where
  defined : ∀ x ∈ c :: (e.classAt c).superclasses, (e.classAt x).method? key = none
  live : ∀ x ∈ (e.liveChain s c).classes, e.ownLiveMethod? s key x = none

/-- The owner of a selecting call on an object, which is of the owner's type, has a method with a
body and a receiver for it that the caller may use. -/
structure Resolves (e : Engine) (s : ScopeRef) (caller : ClassRef) (kind : InvokeKind)
    (ref : MethodRef) (o : ObjectRef) (linked : ClassRef × Method) : Prop where
  selects : kind.isSelecting = true
  owner : ∃ p, e.class? s ref.owner = some p ∧ e.hostMethod? p ref.key = some linked
  concrete : linked.2.isAbstract = false
  received : linked.2.isStatic = false
  permitted : e.mayUse s caller linked.2.declaring linked.2.declared = true
  subtype : (e.classOf o).isSubtypeOf ref.owner = true

/-- How a search for a method ends that comes to the end of the chain of a class. -/
def searchEnd (e : Engine) (s : ScopeRef) (c : ClassRef) (key : MemberKey) : Stop RunError :=
  match (e.liveChain s c).finish with
  | .top => .error (.abstractMethod s!"{e.nameOf c}.{key.text}")
  | .missing name => .error (.classNotFound name)
  | .endless => .outOfFuel

/-- Where a class declares no method now, live versions select none in it. -/
theorem selectIn?_of_ownLiveMethod? (absent : e.ownLiveMethod? s key c = none) :
    e.selectIn? s key c = none := by
  unfold ownLiveMethod? at absent
  unfold selectIn?
  dsimp only at absent ⊢
  split at absent
  all_goals
    rw [Option.map_eq_none_iff.1 absent]
    rfl

/-- What no class of a chain declares is not selected: the search comes to the end of the chain. -/
theorem Undeclared.callVirtual_eq (undeclared : e.Undeclared s c key) {m : Machine}
    (scope : m.scope = s) (args : List Value) :
    m.callVirtual c key args e = .error (e.searchEnd s c key) e := by
  subst scope
  have search : (e.liveChain m.scope c).classes.findSome? (e.selectIn? m.scope key) = none :=
    List.findSome?_eq_none_iff.2 fun x mem => selectIn?_of_ownLiveMethod? (undeclared.live x mem)
  unfold Machine.callVirtual Machine.dispatchVirtual selectVirtual LiveChain.findSome? searchEnd
  rw [bind_apply, bind_apply, resolve_apply, search]
  cases (e.liveChain m.scope c).finish <;> rfl

/-- Neither has the table an entry for it. -/
theorem Undeclared.get?_vtable (undeclared : e.Undeclared s c key) (described : e.Described) :
    (e.classAt c).vtable.get? key = none := by
  have none_ : e.nearestSelectable? c key = none := by
    refine List.findSome?_eq_none_iff.2 fun x mem => ?_
    unfold ownHostMethod?
    rw [undeclared.defined x mem]
    rfl
  rw [described.get?_vtable, none_]
  rfl

theorem Undeclared.callSelected_eq (undeclared : e.Undeclared s c key) (described : e.Described)
    {m : Machine} (scope : m.scope = s) (args : List Value) :
    m.callSelected c key args e = .error (e.searchEnd s c key) e := by
  rw [← undeclared.callVirtual_eq scope args]
  unfold Machine.callSelected
  rw [bind_apply, ask_apply]
  dsimp only
  rw [undeclared.get?_vtable described]

/-- The call that is linked to a method which the receiver's chain does not declare. -/
theorem Resolves.callNative_eq (resolves : e.Resolves s caller kind ref o linked)
    (described : e.Described) (undeclared : e.Undeclared s (e.objectAt o).cls ref.key)
    {m : Machine} (scope : m.scope = s) (rest : List Value) :
    m.callNative caller kind ref (.object o :: rest) e =
      if linked.2.modifiers.isPrivate then m.call linked.1 linked.2 (.object o :: rest) e
      else .error (e.searchEnd s (e.objectAt o).cls ref.key) e := by
  obtain ⟨p, known, means⟩ := resolves.owner
  have fits : checkInvokeKind kind ref linked.2.isStatic = .ok () := by
    have selects := resolves.selects
    rw [resolves.received]
    cases kind with
    | static | special => cases selects
    | virtual | interface => rfl
  have permitted := resolves.permitted
  rw [← undeclared.callSelected_eq described scope (.object o :: rest)]
  subst scope
  rw [Machine.callNative_object known means fits permitted resolves.selects o rest,
    if_pos resolves.subtype]

end Engine

/-- A selecting call whose method the receiver's chain does not declare runs the method that it is
linked to exactly if that is private.  Otherwise it comes to the end of the chain, whether the host
makes it or live versions do; at the top of the chain the method is said to be abstract. -/
theorem undeclared_call_runs_linked_iff {e : Engine} {s : ScopeRef} {caller : ClassRef}
    {kind : InvokeKind} {ref : MethodRef} {o : ObjectRef} {linked : ClassRef × Method}
    (assembled : e.Assembled) (resolves : e.Resolves s caller kind ref o linked)
    (undeclared : e.Undeclared s (e.objectAt o).cls ref.key) :
    ((∀ (m : Machine) (rest : List Value), m.scope = s →
        m.callNative caller kind ref (.object o :: rest) e =
          m.call linked.1 linked.2 (.object o :: rest) e) ↔
      linked.2.modifiers.isPrivate = true) ∧
    (linked.2.modifiers.isPrivate = false → ∀ (m : Machine) (rest : List Value), m.scope = s →
      m.callNative caller kind ref (.object o :: rest) e =
        .error (e.searchEnd s (e.objectAt o).cls ref.key) e) ∧
    ∀ (m : Machine) (live : LiveMethod) (rest : List Value), m.scope = s →
      live.modifiers.isPrivate = false →
      m.callDynamic caller kind ref live (.object o :: rest) e =
        .error (e.searchEnd s (e.objectAt o).cls ref.key) e := by
  have described := assembled.solid.orderly.described
  have calls {m : Machine} (rest : List Value) (scope : m.scope = s) :=
    resolves.callNative_eq described undeclared scope rest
  refine ⟨⟨fun runs => ?_, fun isPrivate m rest scope => ?_⟩, ?_, ?_⟩
  · -- a machine whose calls all succeed tells the two apart
    have same := runs ⟨s, fun _ _ _ => pure .null⟩ [] rfl
    rw [calls [] rfl] at same
    cases isPrivate : linked.2.modifiers.isPrivate with
    | true => rfl
    | false =>
      rw [isPrivate] at same
      cases same
  · rw [calls rest scope, if_pos isPrivate]
  · intro open_ m rest scope
    rw [calls rest scope, open_]
    rfl
  · intro m live rest scope open_
    rw [Machine.callDynamic_object resolves.selects, if_pos resolves.subtype, open_]
    exact undeclared.callVirtual_eq scope _

namespace Defaulted

/-- The method of the interface. -/
def key : MemberKey := ⟨"d", ⟨[], .int⟩⟩

/-- Its declaration, which has a body. -/
def declaration : MethodDef := .make key.name key.sig .publicBit [.constInt 5, .retValue]

/-- The call of the method by the interface's name. -/
def ref : MethodRef := ⟨"lib.I", key.name, key.sig⟩

/-- A class that implements the interface and has a method that makes the call, but none under the
key. -/
def implementer : TypeUnit :=
  (((TypeUnit.named "lib.T").implementing "lib.I").addDefaultConstructor).addMethod
    (.make "use" ⟨[.ref "lib.I"], .int⟩ (.publicBit ||| .staticBit)
      [.load 0, .invoke .interface ref, .retValue])

/-- A scope in which the interface was defined and the class. -/
def defined : Engine :=
  ((Engine.opened { included := ["app.*"] }).defining 4
    ((TypeUnit.interfaceNamed "lib.I").addMethod declaration)).defining 4 implementer

/-- The scope after an object of the class was made. -/
def engine : Engine :=
  ((Scope.Use.newInstance "lib.T" .void []).perform 60 0).final defined

/-- The method as it stands in the interface. -/
def method : Method := Class.bind "lib.I" [] declaration

set_option maxRecDepth 100000 in
theorem outcomes :
    ((Engine.opened { included := ["app.*"] }).defining 4
      ((TypeUnit.interfaceNamed "lib.I").addMethod declaration)).scopes.size = 1 ∧
    (engine.class? 0 "lib.I" = some 0 ∧ engine.hostMethod? 0 key = some (0, method)) ∧
    (engine.mayUse 0 1 "lib.I" .publicBit = true ∧ (engine.classOf 0).isSubtypeOf "lib.I" = true) ∧
    (engine.objectAt 0).cls = 1 ∧
    (∀ x ∈ 1 :: (engine.classAt 1).superclasses, (engine.classAt x).method? key = none) ∧
    (∀ x ∈ (engine.liveChain 0 1).classes, engine.ownLiveMethod? 0 key x = none) ∧
    engine.searchEnd 0 1 key = .error (.abstractMethod "lib.T.d()->i64") ∧
    ((Machine.of 0 8).call 0 method [.object 0]).run' engine = some (.int 5) := by
  decide +kernel

theorem reachable : engine.Reachable := by
  obtain ⟨one, -⟩ := outcomes
  have opened : (Engine.opened { included := ["app.*"] }).Reachable := Engine.reachable_opened _
  have all : defined.Reachable := (opened.defining 4 _ (by decide)).defining 4 _
    (by rw [one]; exact Nat.one_pos)
  exact all.step (.use 60 0 _)

theorem resolves : engine.Resolves 0 1 .interface ref 0 (0, method) := by
  obtain ⟨-, ⟨known, means⟩, ⟨permitted, subtype⟩, -⟩ := outcomes
  exact ⟨rfl, ⟨0, known, means⟩, by decide, by decide, permitted, subtype⟩

theorem undeclared : engine.Undeclared 0 (engine.objectAt 0).cls ref.key := by
  obtain ⟨-, -, -, cls, defined, live, -⟩ := outcomes
  rw [cls]
  exact ⟨defined, live⟩

end Defaulted

open Defaulted in
/-- A call of an interface's method on an object whose class has none of its own comes to the end
of the chain. -/
theorem undeclared_call_runs_linked_defaulted : engine.Resolves 0 1 .interface ref 0 (0, method) ∧
    ∀ n, (Machine.of 0 n).callNative 1 .interface ref [.object 0] engine =
      .error (.error (.abstractMethod "lib.T.d()->i64")) engine := by
  have outcome := undeclared_call_runs_linked_iff reachable.assembled resolves undeclared
  obtain ⟨-, -, -, cls, -, -, ends, -⟩ := outcomes
  refine ⟨resolves, fun n => ?_⟩
  rw [outcome.2.1 (by decide) (Machine.of 0 n) [] rfl, cls]
  exact congrArg (EStateM.Result.error · engine) ends

open Defaulted in
/-- It does not run the method that it is linked to, although that has a body and the caller may
use it. -/
theorem undeclared_call_misses_linked :
    ¬ ∀ (e : Engine) (s : ScopeRef) (caller : ClassRef) (kind : InvokeKind) (ref : MethodRef)
      (o : ObjectRef) (linked : ClassRef × Method), e.Reachable →
      e.Resolves s caller kind ref o linked → e.Undeclared s (e.objectAt o).cls ref.key →
      ∀ (n : Nat) (rest : List Value),
        (Machine.of s n).callNative caller kind ref (.object o :: rest) e =
          (Machine.of s n).call linked.1 linked.2 (.object o :: rest) e := by
  intro right
  obtain ⟨-, -, -, -, -, -, -, gives⟩ := outcomes
  obtain ⟨reachable, resolves, undeclared⟩ := And.intro reachable (And.intro resolves undeclared)
  -- What matters about the engine is known; its definition is not to be unfolded.
  generalize engine = e at *
  have described := reachable.assembled.solid.orderly.described
  have same := right e 0 1 .interface ref 0 (0, method) reachable resolves undeclared 8 []
  rw [resolves.callNative_eq described undeclared rfl [], if_neg (by decide)] at same
  rw [run'_of_error same.symm] at gives
  cases gives

end LiveUpdate
