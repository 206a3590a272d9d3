import LiveUpdate.Proofs.Stepping

/-!
# Bodies

What a call by live versions runs is found before anything runs: the body of a method of
some class, or nothing at all.  Here the calls that live versions make are reduced to the
body that each of them calls.
-/

set_option autoImplicit false

namespace LiveUpdate

open Exec

/-- A body of code: a method and the class that it belongs to. -/
structure Body where
  cls : ClassRef
  method : Method
deriving DecidableEq, Inhabited

namespace Engine

variable (e : Engine) (s : ScopeRef)

/-- The body that the live version of a managed type has for a member of its objects, if
any.  A static method is none: a call on an object passes it one argument too many. -/
def liveBody (t : TypeRef) (key : MemberKey) : Option Body :=
  match (e.typeAt t).native with
  | none => none
  | some native =>
    match (e.typeAt t).live.dispatch.lookup key with
    | some (.executor method) =>
      if ((e.typeAt t).live.shape.method? key).any MethodShape.isStatic then none
      else (e.typeAt t).live.executor?.map fun executor => ⟨executor, method⟩
    | some .abstract | some .deleted => none
    | some .host | none => ((e.classAt native).method? key).map fun m => ⟨native, m⟩

/-- The body of a member that was resolved. -/
def resolvedBody (live : LiveMethod) (key : MemberKey) : Option Body :=
  if live.isAbstract then none
  else match live.managed, live.host with
    | some t, _ => e.liveBody t key
    | none, some (c, method) => some ⟨c, method⟩
    | none, none => none

/-- The body that virtual calls by live versions select for a receiver of a class. -/
def selectedBody (c : ClassRef) (key : MemberKey) : Option Body :=
  match e.selectVirtual s c key with
  | .ok (some (.live t)) => e.liveBody t key
  | .ok (some (.host c method)) => some ⟨c, method⟩
  | .ok (some (.abstract _)) | .ok none | .error _ => none

/-- The body of a member that the live version of a managed type inherits. -/
def inheritedBody (t : TypeRef) (key : MemberKey) : Option Body :=
  match (e.typeAt t).live.shape.superName.bind (e.class? s) with
  | none => none
  | some parent =>
    match e.resolveMethod s parent key with
    | .ok (some live) => e.resolvedBody live key
    | .ok none | .error _ => none

/-- The method that code of a class calls non-virtually as the host links it. -/
def forwardedBody (c : ClassRef) (ref : MethodRef) : Option Body :=
  match e.class? s ref.owner with
  | none => none
  | some owner =>
    match e.hostMethod? owner ref.key with
    | none => none
    | some (declaring, found) =>
      if found.isStatic then none
      else match e.checkAccess s c found.declaring found.declared ref.text,
          e.checkNonVirtual s c ref with
        | .ok _, .ok _ => some ⟨declaring, found⟩
        | _, _ => none

/-- A call with a number of arguments passes too many or too few of them to the static
method that a version may have for a member. -/
def StaticMisfit (t : TypeRef) (key : MemberKey) (count : Nat) : Prop :=
  ∀ method, (e.typeAt t).live.dispatch.lookup key = some (.executor method) →
    ((e.typeAt t).live.shape.method? key).any MethodShape.isStatic = true →
    method.argCount ≠ count

/-- The static methods of versions of the types of a scope cannot be called like methods of
objects. -/
def StaticsMisfit : Prop := ∀ id t, e.typeWithId? s id = some t →
  ∀ key : MemberKey, key.isConstructor = false → e.StaticMisfit t key (key.sig.arity + 1)

variable {e s}

/-- The managed type that declares a method belongs to the scope. -/
theorem registered_of_ownLiveMethod? {key : MemberKey} {c : ClassRef} {live : LiveMethod}
    (own : e.ownLiveMethod? s key c = some live) {t : TypeRef} (managed : live.managed = some t) :
    ∃ id, e.typeWithId? s id = some t := by
  unfold ownLiveMethod? at own
  dsimp only at own
  split at own
  next t' known =>
    obtain ⟨m, -, rfl⟩ := Option.map_eq_some_iff.1 own
    cases managed
    obtain ⟨id, -, registered⟩ := Option.bind_eq_some_iff.1 known
    exact ⟨id, registered⟩
  · obtain ⟨m, -, rfl⟩ := Option.map_eq_some_iff.1 own
    cases managed

/-- The managed type that a resolved method is declared by belongs to the scope. -/
theorem registered_of_resolveMethod {c : ClassRef} {key : MemberKey} {live : LiveMethod}
    (resolved : e.resolveMethod s c key = .ok (some live)) {t : TypeRef}
    (managed : live.managed = some t) : ∃ id, e.typeWithId? s id = some t := by
  rcases resolveMethod_cases resolved with ⟨d, own⟩ | inherited
  · exact registered_of_ownLiveMethod? own managed
  · unfold interfaceMethod? at inherited
    split at inherited
    · split at inherited
      · cases inherited
        cases managed
      · cases inherited
    · cases inherited

/-- A managed type whose live member is selected belongs to the scope. -/
theorem registered_of_selectVirtual {c : ClassRef} {key : MemberKey} {t : TypeRef}
    (selects : e.selectVirtual s c key = .ok (some (.live t))) :
    ∃ id, e.typeWithId? s id = some t := by
  obtain ⟨d, -, held⟩ := exists_of_findSome? selects
  unfold selectIn? at held
  dsimp only at held
  split at held
  next t' known =>
    obtain ⟨m, -, same⟩ := Option.map_eq_some_iff.1 held
    split at same
    · cases same
    · cases same
      obtain ⟨id, -, registered⟩ := Option.bind_eq_some_iff.1 known
      exact ⟨id, registered⟩
  · obtain ⟨m, -, same⟩ := Option.map_eq_some_iff.1 held
    split at same <;> cases same

/-- Engines with as many classes and the same live parents have the same chains. -/
theorem liveChain_congr (e' e : Engine) (size : e'.classes.size = e.classes.size)
    (parents : ∀ c, e'.liveParent s c = e.liveParent s c) (c : ClassRef) :
    e'.liveChain s c = e.liveChain s c := by
  have within (n : Nat) (c : ClassRef) :
      e'.liveChainWithin s n c = e.liveChainWithin s n c := by
    induction n generalizing c with
    | zero => rfl
    | succ n ih => simp only [liveChainWithin, parents, ih]
  unfold liveChain
  rw [size]
  exact within _ c

variable (e s)

section Depth

/-! How many calls are running plays no part in what a member means. -/

variable (depth : Nat) (c : ClassRef) (key : MemberKey)

theorem liveChain_setDepth : ({ e with depth } : Engine).liveChain s c = e.liveChain s c :=
  liveChain_congr { e with depth } e rfl (fun _ => rfl) c

theorem resolveMethod_setDepth :
    ({ e with depth } : Engine).resolveMethod s c key = e.resolveMethod s c key := by
  unfold resolveMethod
  rw [liveChain_setDepth]
  rfl

theorem inheritedBody_setDepth (t : TypeRef) :
    ({ e with depth } : Engine).inheritedBody s t key = e.inheritedBody s t key := by
  have parent : ({ e with depth } : Engine).class? s = e.class? s := rfl
  have type : ({ e with depth } : Engine).typeAt t = e.typeAt t := rfl
  unfold inheritedBody
  rw [parent, type]
  cases (e.typeAt t).live.shape.superName.bind (e.class? s) with
  | none => rfl
  | some parent =>
    dsimp only
    rw [resolveMethod_setDepth]
    rfl

theorem selectedBody_setDepth :
    ({ e with depth } : Engine).selectedBody s c key = e.selectedBody s c key := by
  unfold selectedBody selectVirtual
  rw [liveChain_setDepth]
  rfl

end Depth

end Engine

/-- An invocation that has a receiver may mean any method that is not static. -/
theorem checkInvokeKind_of_receiver {kind : InvokeKind} (receives : kind ≠ .static)
    (ref : MethodRef) (isStatic : Bool) :
    checkInvokeKind kind ref isStatic =
      if isStatic then .error (.classChange (.kind ref.text isStatic .method)) else .ok () := by
  cases kind with
  | static => exact absurd rfl receives
  | _ => cases isStatic <;> rfl

/-- A computation failed. -/
def Fails {ε α : Type} (made : EStateM.Result (Stop ε) Engine α) : Prop :=
  ∃ stop e, made = .error stop e

namespace Machine

variable {s : ScopeRef} {n : Nat} {e : Engine}

/-- What was made is the call of a body with some arguments, or it failed. -/
def Calls (m : Machine) (e : Engine) (args : List Value)
    (made : EStateM.Result (Stop RunError) Engine Value) : Option Body → Prop
  | some b => made = m.call b.cls b.method args e
  | none => Fails made

/-- A call of an abstract method fails, and so does one with another number of arguments
than the method has. -/
theorem fails_call_refused (c : ClassRef) {method : Method} {args : List Value}
    (refused : method.isAbstract = true ∨ method.argCount ≠ args.length) (e : Engine) :
    Fails ((Machine.of s n).call c method args e) := by
  cases n with
  | zero => exact ⟨_, _, rfl⟩
  | succ n =>
    show Fails ((Machine.of s n).enter n c method args e)
    by_cases abstract : method.isAbstract = true
    · rw [enter_abstract n c args abstract]
      exact ⟨_, _, rfl⟩
    · have concrete : method.isAbstract = false := by simpa using abstract
      have misfit := refused.resolve_left abstract
      rw [enter_misfit n c concrete (Ne.symm misfit)]
      exact ⟨_, _, rfl⟩

/-- What the live version of a managed type runs for a member of an object.  Where there is no
body, the call fails because it does not fit a static method that there may be. -/
theorem calls_callLive {t : TypeRef} {key : MemberKey} {args : List Value}
    (statics : e.liveBody t key = none → e.StaticMisfit t key args.length) :
    (Machine.of s n).Calls e args ((Machine.of s n).callLive t key args e)
      (e.liveBody t key) := by
  let m := Machine.of s n
  -- what stands in the host class, when the version leaves the member to it
  have hosted (native : ClassRef) : m.Calls e args
      (m.callHosted native key (.memberMissing (e.typeAt t).name key) args e)
      (((e.classAt native).method? key).map fun method => Body.mk native method) := by
    unfold callHosted
    rw [bind_apply, ask_apply]
    cases (e.classAt native).method? key with
    | none => exact ⟨_, _, rfl⟩
    | some method => rfl
  unfold Engine.liveBody at statics ⊢
  unfold callLive
  rw [bind_apply, ask_apply]
  dsimp only
  cases hosts : (e.typeAt t).native with
  | none => exact ⟨_, _, rfl⟩
  | some native =>
    rw [hosts] at statics
    dsimp only at statics ⊢
    cases entry : (e.typeAt t).live.dispatch.lookup key with
    | none => exact hosted native
    | some found =>
      cases found with
      | host => exact hosted native
      | deleted => exact ⟨_, _, rfl⟩
      | abstract => exact ⟨_, _, rfl⟩
      | executor method =>
        dsimp only
        cases (e.typeAt t).live.executor? with
        | none =>
          by_cases receives :
              ((e.typeAt t).live.shape.method? key).any MethodShape.isStatic = true
          · rw [if_pos receives]
            exact ⟨_, _, rfl⟩
          · rw [if_neg receives]
            exact ⟨_, _, rfl⟩
        | some executor =>
          dsimp only
          by_cases receives :
              ((e.typeAt t).live.shape.method? key).any MethodShape.isStatic = true
          · rw [if_pos receives, if_pos receives, bind_apply]
            rw [entry] at statics
            have misfits := statics (if_pos receives) method entry receives
            cases m.ensureInitialized native e with
            | ok done e' => exact fails_call_refused executor (.inr misfits) e'
            | error stop e' => exact ⟨_, _, rfl⟩
          · rw [if_neg receives, if_neg receives]
            rfl

/-- A call of a member that was resolved. -/
theorem calls_callResolved {live : LiveMethod} {key : MemberKey} {args : List Value}
    (statics : e.resolvedBody live key = none →
      ∀ t ∈ live.managed, e.StaticMisfit t key args.length) :
    (Machine.of s n).Calls e args ((Machine.of s n).callResolved live key args e)
      (e.resolvedBody live key) := by
  unfold Engine.resolvedBody at statics ⊢
  unfold callResolved
  by_cases abstract : live.isAbstract = true
  · rw [if_pos abstract, if_pos abstract]
    exact ⟨_, _, rfl⟩
  · rw [if_neg abstract] at statics
    rw [if_neg abstract, if_neg abstract]
    cases managed : live.managed with
    | some t =>
      rw [managed] at statics
      exact calls_callLive fun none => statics none t rfl
    | none =>
      cases live.host with
      | none => exact ⟨_, _, rfl⟩
      | some found => rfl

theorem scope_of (s : ScopeRef) (n : Nat) : (Machine.of s n).scope = s := rfl

/-- A call of what the live version of a managed type inherits. -/
theorem calls_callInherited {t : TypeRef} {key : MemberKey} {args : List Value}
    (statics : e.inheritedBody s t key = none →
      ∀ id t, e.typeWithId? s id = some t → e.StaticMisfit t key args.length) :
    (Machine.of s n).Calls e args ((Machine.of s n).callInherited t key args e)
      (e.inheritedBody s t key) := by
  unfold Engine.inheritedBody at statics ⊢
  unfold callInherited
  rw [bind_apply, ask_apply]
  dsimp only
  cases extends_ : (e.typeAt t).live.shape.superName with
  | none => exact ⟨_, _, rfl⟩
  | some superName =>
    rw [extends_, Option.bind_some] at statics
    dsimp only [Option.bind_some]
    rw [bind_apply, check_apply, scope_of]
    unfold Engine.requireClass
    cases known : e.class? s superName with
    | none => exact ⟨_, _, rfl⟩
    | some parent =>
      rw [known] at statics
      dsimp only at statics ⊢
      rw [bind_apply, resolve_apply]
      cases resolved : e.resolveMethod s parent key with
      | error stop => exact ⟨_, _, rfl⟩
      | ok found =>
        rw [resolved] at statics
        cases found with
        | none => exact ⟨_, _, rfl⟩
        | some live =>
          refine calls_callResolved fun none t managed => ?_
          obtain ⟨id, registered⟩ := Engine.registered_of_resolveMethod resolved managed
          exact statics none id t registered

/-- A virtual call by live versions. -/
theorem calls_callVirtual {c : ClassRef} {key : MemberKey} {args : List Value}
    (statics : ∀ id t, e.typeWithId? s id = some t → e.StaticMisfit t key args.length) :
    (Machine.of s n).Calls e args ((Machine.of s n).callVirtual c key args e)
      (e.selectedBody s c key) := by
  unfold Engine.selectedBody callVirtual dispatchVirtual
  rw [bind_apply, bind_apply, resolve_apply, scope_of]
  cases selects : e.selectVirtual s c key with
  | error stop => exact ⟨_, _, rfl⟩
  | ok selection =>
    cases selection with
    | none => exact ⟨_, _, rfl⟩
    | some selected =>
      cases selected with
      | live t =>
        obtain ⟨id, registered⟩ := Engine.registered_of_selectVirtual selects
        have calls := calls_callLive (s := s) (n := n) fun _ => statics id t registered
        dsimp only
        rw [map_apply]
        cases found : e.liveBody t key with
        | some b =>
          rw [found] at calls
          have same : (Machine.of s n).callLive t key args e =
            (Machine.of s n).call b.cls b.method args e := calls
          show _ = (Machine.of s n).call b.cls b.method args e
          rw [← same]
          cases (Machine.of s n).callLive t key args e <;> rfl
        | none =>
          rw [found] at calls
          obtain ⟨stop, e', fails⟩ := calls
          rw [fails]
          exact ⟨_, _, rfl⟩
      | host d method =>
        dsimp only
        rw [map_apply]
        show _ = (Machine.of s n).call d method args e
        cases (Machine.of s n).call d method args e <;> rfl
      | abstract d => exact ⟨_, _, rfl⟩

end Machine

end LiveUpdate
