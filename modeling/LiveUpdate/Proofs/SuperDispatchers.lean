import LiveUpdate.Proofs.Ancestry
import LiveUpdate.Proofs.Redirection
import LiveUpdate.Proofs.Routing

/-!
# Super-dispatchers

The host class of a managed type has a generated method for each method that its parent's
virtual calls select and that the type may call.  No check stands in front of its body, so a
call of it is the call of the parent's method as the host links it, one call deeper.
-/

set_option autoImplicit false

namespace LiveUpdate

open Exec

/-- The reference to the super-dispatcher of a type for a member. -/
def dispatcherRef (typeName : String) (key : MemberKey) : MethodRef :=
  ⟨typeName, superDispatcherName typeName key.name, key.sig⟩

/-- A super-dispatcher is for one member. -/
theorem dispatcherRef_injective {typeName : String} {a b : MemberKey}
    (same : (dispatcherRef typeName a).key = (dispatcherRef typeName b).key) : a = b := by
  obtain ⟨name, sig⟩ := a
  obtain ⟨name', sig'⟩ := b
  obtain ⟨names, sigs⟩ := MemberKey.mk.inj same
  have names : superDispatcherName typeName name = superDispatcherName typeName name' := names
  have sigs : sig = sig' := sigs
  have chars := congrArg String.toList names
  unfold superDispatcherName at chars
  simp only [String.toList_append, List.append_assoc, List.append_cancel_left_eq, toString] at chars
  rw [String.toList_injective chars, sigs]

/-- A dispatcher stands in the host class as it was generated. -/
theorem HostForm.addCheck_widen_dispatcher (id : TypeId) (slots : SlotTable) (name owner : String)
    (key : MemberKey) :
    addCheck id slots (widen (forwardingMethod name owner key .superDispatcherBit)) =
      forwardingMethod name owner key .superDispatcherBit := by
  have visible : (forwardingMethod name owner key .superDispatcherBit).modifiers.visibility =
      .everyone := by
    show (Modifiers.publicBit ||| .syntheticBit ||| .superDispatcherBit).visibility = _
    decide
  have public_ : isWidened (forwardingMethod name owner key .superDispatcherBit) = false := by
    unfold isWidened
    rw [visible]
    rfl
  have unchecked : isChecked (forwardingMethod name owner key .superDispatcherBit) = false := by
    have marked : (forwardingMethod name owner key .superDispatcherBit).modifiers.contains
        .superDispatcherBit = true := by
      show (Modifiers.publicBit ||| .syntheticBit ||| .superDispatcherBit).contains _ = true
      decide
    unfold isChecked
    rw [marked, Bool.not_true, Bool.and_false, Bool.false_and]
  unfold widen
  rw [if_neg (by simp [public_])]
  unfold addCheck
  split
  · rw [if_neg (by simp [unchecked])]
  · rfl

/-- What follows a check or is made public keeps its key. -/
theorem HostForm.key_addCheck_widen (id : TypeId) (slots : SlotTable) (m : MethodDef) :
    (addCheck id slots (widen m)).key = m.key := by
  have widened : (widen m).key = m.key := by
    unfold widen
    split <;> rfl
  unfold addCheck
  split
  · split <;> exact widened
  · exact widened

/-- The methods that a type may call are among the inherited ones. -/
theorem mem_inheritedMethods {typeName : String} {parent : Class} {key : MemberKey} {m : Method}
    (selected : parent.vtable.get? key = some m) (reachable : isReachable typeName key m = true) :
    (key, m) ∈ inheritedMethods typeName parent := by
  rw [Table.get?_eq_find?] at selected
  obtain ⟨entry, found, rfl⟩ := Option.map_eq_some_iff.1 selected
  have named : entry.1 = key := by simpa using List.find?_some found
  subst named
  exact List.mem_mergeSort.2 (List.mem_filter.2 ⟨List.mem_of_find?_eq_some found, reachable⟩)

/-- The last method that the host form has under the key of a dispatcher is the dispatcher. -/
theorem HostForm.find?_dispatcher (u : TypeUnit) (id : TypeId) {parent : Class} {key : MemberKey}
    {m : Method} (selected : parent.vtable.get? key = some m)
    (reachable : isReachable u.name key m = true)
    (free : u.method? (dispatcherRef u.name key).key = none) :
    (ofUnit u id (some parent)).unit.methods.reverse.find?
        (fun m => m.key = (dispatcherRef u.name key).key) =
      some (forwardingMethod (superDispatcherName u.name key.name) parent.name key
        .superDispatcherBit) := by
  let generated := forwardingMethod (superDispatcherName u.name key.name) parent.name key
    .superDispatcherBit
  let place (m : MethodDef) : MethodDef :=
    addCheck id (ofUnit u id (some parent)).slots (widen m)
  have placed (m : MethodDef) : (place m).key = m.key := key_addCheck_widen _ _ m
  have there : generated ∈ superDispatchers u parent := by
    refine List.mem_filterMap.2 ⟨(key, m), mem_inheritedMethods selected reachable, ?_⟩
    dsimp only
    rw [show u.method? ⟨superDispatcherName u.name key.name, key.sig⟩ = none from free]
    rfl
  have only (d : MethodDef) (mem : d ∈ superDispatchers u parent)
      (same : (place d).key = (dispatcherRef u.name key).key) : place d = generated := by
    obtain ⟨⟨k, m'⟩, -, made⟩ := List.mem_filterMap.1 mem
    dsimp only at made
    split at made
    · cases made
    · cases made
      obtain rfl : k = key := dispatcherRef_injective ((placed _).symm.trans same)
      exact addCheck_widen_dispatcher _ _ _ _ _
  -- the dispatchers stand behind all other methods
  obtain ⟨others, listed⟩ : ∃ others, (ofUnit u id (some parent)).unit.methods =
      (others ++ superDispatchers u parent).map place := ⟨_, rfl⟩
  rw [listed, List.map_append, List.reverse_append, List.find?_append]
  cases search : ((superDispatchers u parent).map place).reverse.find?
      (fun m => m.key = (dispatcherRef u.name key).key) with
  | none =>
    have missed := List.find?_eq_none.1 search (place generated)
      (List.mem_reverse.2 (List.mem_map_of_mem there))
    have same : (place generated).key = (dispatcherRef u.name key).key := placed generated
    simp [same] at missed
  | some d =>
    obtain ⟨d', mem, rfl⟩ := List.mem_map.1 (List.mem_reverse.1 (List.mem_of_find?_eq_some search))
    rw [only d' mem (by simpa using List.find?_some search)]
    rfl

namespace Engine

variable {e : Engine} {s : ScopeRef} {t : TypeRef} {native p : ClassRef} {key : MemberKey}

/-- The host class of a managed type has a generated super-dispatcher for a member: the parent
has a method for it that the type may call, and the type was not defined with a method of the
dispatcher's name. -/
structure Dispatches (e : Engine) (t : TypeRef) (native p : ClassRef) (key : MemberKey) : Prop where
  parent : (e.classAt native).parent = some p
  inherited : ∃ m, (e.classAt p).vtable.get? key = some m ∧
    isReachable (e.typeAt t).name key m = true
  free : (e.typeAt t).first.unit.method? (dispatcherRef (e.typeAt t).name key).key = none

/-- The super-dispatcher that the host class has for a member. -/
theorem Hosted.method?_dispatcher (hosted : e.Hosted t native)
    (named : (e.typeAt t).first.unit.name = (e.typeAt t).name)
    (dispatches : e.Dispatches t native p key) :
    ∃ d, (e.classAt native).method? (dispatcherRef (e.typeAt t).name key).key = some d ∧
      d.key = (dispatcherRef (e.typeAt t).name key).key ∧ d.isAbstract = false ∧
      d.isStatic = false ∧ d.declaring = (e.typeAt t).name ∧
      d.code = forwardingCode (e.nameOf p) key := by
  obtain ⟨names, parent, interfaces, -, -, -, described, -⟩ := hosted.form
  let u := (e.typeAt t).first.unit.withGuards (e.optionsOf t) names
  obtain rfl : parent = some p := described.parent_eq.symm.trans dispatches.parent
  obtain ⟨m, selected, reachable⟩ := dispatches.inherited
  have free : u.method? (dispatcherRef (e.typeAt t).name key).key = none := by
    have free := dispatches.free
    unfold TypeUnit.method? at free ⊢
    rw [List.find?_eq_none] at free ⊢
    intro m mem
    obtain ⟨m', mem', rfl⟩ := List.mem_map.1 mem
    exact free m' mem'
  rw [← named] at reachable free ⊢
  have selected : (e.classAt p).skeleton.vtable.get? key = some m := selected
  have found : (e.hostForm t names (some p)).unit.methods.reverse.find? (fun m =>
      m.key = (dispatcherRef (e.typeAt t).first.unit.name key).key) = some _ :=
    HostForm.find?_dispatcher u (e.typeAt t).id selected reachable free
  refine ⟨Class.bind _ (e.hostForm t names (some p)).declaredAccess (forwardingMethod _ _ key
    .superDispatcherBit), ?_, rfl, ?_, ?_, rfl, rfl⟩
  · unfold Class.method?
    rw [described.methods_eq]
    unfold Class.methodsOf
    rw [Table.get?_putAll_nil, ← List.map_reverse, List.find?_map]
    exact congrArg (Option.map Prod.snd ∘ Option.map _) found
  · show (Modifiers.publicBit ||| .syntheticBit ||| .superDispatcherBit).isAbstract = false
    decide
  · show (Modifiers.publicBit ||| .syntheticBit ||| .superDispatcherBit).isStatic = false
    decide

/-- A method that a class declares is the one that the host finds for it. -/
theorem Housed.hostMethod?_of_own (housed : e.Housed) {c : ClassRef} (home : e.Homes s c)
    {m : Method} (own : (e.classAt c).method? key = some m) :
    e.hostMethod? c key = some (c, m) := by
  have here : e.ownHostMethod? key c = some (c, m) := by
    unfold ownHostMethod?
    rw [own]
    rfl
  by_cases special : (key.isConstructor || key.isStaticInit) = true
  · unfold hostMethod?
    simp only [special, if_true, List.findSome?_singleton]
    exact here
  · obtain ⟨plain, plain'⟩ : key.isConstructor = false ∧ key.isStaticInit = false := by
      simpa using special
    refine housed.hostMethod?_of_superclass home plain plain' ?_
    rw [List.findSome?_cons, here]

/-- Code that acts for a type may use all members of the type and call them non-virtually. -/
theorem Hosted.permits_own (hosted : e.Hosted t native) (housed : e.Housed) {c : ClassRef}
    (acts : e.actingClass (e.typeAt t).scope c = native) :
    (∀ modifiers member, e.checkAccess (e.typeAt t).scope c (e.typeAt t).name modifiers member =
      .ok ()) ∧
    ∀ method : MethodRef, method.owner = (e.typeAt t).name →
      e.checkNonVirtual (e.typeAt t).scope c method = .ok () := by
  have name : e.nameOf native = (e.typeAt t).name := housed.name_eq hosted.known
  constructor
  · intro modifiers member
    have permitted := e.mayUse_own (s := (e.typeAt t).scope) c modifiers
    rw [acts, name] at permitted
    rw [checkAccess_eq, if_pos permitted]
  · intro method owner
    have itself : e.descendsFrom native (e.typeAt t).name = true := by
      have name : (e.classAt native).name = (e.typeAt t).name := name
      unfold descendsFrom ancestor?
      simp [name]
    rw [checkNonVirtual_eq_ok_iff, acts, owner]
    exact .inr itself

end Engine

namespace Machine

/-- A computation as one more call, unless too many calls are running. -/
def asCall (m : Machine) (x : Run Value) : Run Value := fun e =>
  if (e.scopeAt m.scope).options.maxCallDepth ≤ e.depth then
    .error (.error (.stackOverflow e.depth)) e
  else counted x e

variable {e : Engine} {t : TypeRef} {native p : ClassRef} {key : MemberKey}

/-- A call of a super-dispatcher by code that acts for the type is, one call deeper, the call of
the parent's method by the type. -/
theorem callNative_dispatcher (housed : e.Housed) (hosted : e.Hosted t native)
    (named : (e.typeAt t).first.unit.name = (e.typeAt t).name)
    (dispatches : e.Dispatches t native p key) {c : ClassRef}
    (acts : e.actingClass (e.typeAt t).scope c = native) {o : ObjectRef} {rest : List Value}
    (count : rest.length = key.sig.arity) (small : key.sig.arity < 65536) (n : Nat) :
    (Machine.of (e.typeAt t).scope (n + key.sig.arity + 4)).callNative c .special
        (dispatcherRef (e.typeAt t).name key) (.object o :: rest) e =
      (Machine.of (e.typeAt t).scope (n + key.sig.arity + 3)).asCall (taking key.sig
        ((Machine.of (e.typeAt t).scope (n + key.sig.arity + 3)).callNative native .special
          ⟨e.nameOf p, key.name, key.sig⟩ (.object o :: rest))) e := by
  obtain ⟨d, own, d_key, concrete, receives, declaring, code⟩ :=
    hosted.method?_dispatcher named dispatches
  have linked := housed.hostMethod?_of_own ⟨_, hosted.known⟩ own
  obtain ⟨permitted, nonVirtual⟩ := hosted.permits_own housed acts
  have length : (Value.object o :: rest).length = key.sig.arity + 1 := by
    rw [List.length_cons, count]
  have fits : (Value.object o :: rest).length = d.argCount := by
    unfold Method.argCount
    rw [length, d_key, receives]
    rfl
  have runs : (Machine.of (e.typeAt t).scope (n + key.sig.arity + 3)).run
      (n + key.sig.arity + 3) (.enter native d (.object o :: rest)) =
        taking key.sig ((Machine.of (e.typeAt t).scope (n + key.sig.arity + 3)).callNative native
          .special ⟨e.nameOf p, key.name, key.sig⟩ (.object o :: rest)) := by
    funext e'
    rw [show n + key.sig.arity + 3 = n + 2 + (Value.object o :: rest).length by
      rw [length]
      omega]
    exact run_forwardingCode (.enter native d (.object o :: rest)) (List.prefix_append _ _) length
      (by omega) rfl code n
  -- the host's instruction finds the dispatcher, and nothing forbids to call it
  have calls : (Machine.of (e.typeAt t).scope (n + key.sig.arity + 4)).callNative c .special
      (dispatcherRef (e.typeAt t).name key) (.object o :: rest) e =
        (Machine.of (e.typeAt t).scope (n + key.sig.arity + 3)).enter (n + key.sig.arity + 3)
          native d (.object o :: rest) e := by
    have known : e.class? (e.typeAt t).scope (dispatcherRef (e.typeAt t).name key).owner =
        some native := hosted.known
    have kind : checkInvokeKind .special (dispatcherRef (e.typeAt t).name key) false = .ok () := rfl
    unfold callNative Engine.requireClass
    rw [bind_apply, check_apply, scope_of, known]
    dsimp only
    rw [bind_apply, require_apply, linked]
    dsimp only
    rw [bind_apply, ofResult_apply, receives, kind]
    dsimp only
    rw [bind_apply, check_apply, declaring, permitted]
    dsimp only
    rw [bind_apply, check_apply, nonVirtual _ rfl]
    rfl
  rw [calls, enter_eq _ _ concrete fits]
  unfold enterBody
  simp only [receives, Bool.false_and, Bool.false_eq_true, if_false]
  show runDeeper _ _ _ e = _
  unfold runDeeper asCall
  rw [runs]

end Machine

end LiveUpdate
