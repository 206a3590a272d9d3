import LiveUpdate.Machine.Step
import LiveUpdate.Proofs.Stepping

/-!
# Where members are refused

A member is refused to a caller by its visibility alone.  Of the parts of the machine only
the check of access does that: the rest of a call or of a field access, after the check,
fails for other reasons or because a call that it makes does.
-/

set_option autoImplicit false

namespace LiveUpdate

/-- Whether an error is the refusal of a member that its visibility hides from the caller. -/
def RunError.isRefusal : RunError → Bool
  | .illegalAccess (.hidden ..) => true
  | _ => false

namespace Engine

/-- Whether code of a class may use a member with these modifiers. -/
def mayUse (e : Engine) (s : ScopeRef) (caller : ClassRef) (declaring : String)
    (modifiers : Modifiers) : Bool :=
  let acting := e.actingClass s caller
  Access.permits (e.nameOf acting) declaring modifiers (e.descendsFrom acting declaring)

/-- The error of a use that is not permitted. -/
def refusal (e : Engine) (s : ScopeRef) (caller : ClassRef) (modifiers : Modifiers)
    (member : String) : RunError :=
  .illegalAccess (.hidden (e.nameOf (e.actingClass s caller)) modifiers.visibility member)

variable {e e' : Engine} {s : ScopeRef}

theorem checkAccess_eq (caller : ClassRef) (declaring : String) (modifiers : Modifiers)
    (member : String) : e.checkAccess s caller declaring modifiers member =
      if e.mayUse s caller declaring modifiers then .ok ()
      else .error (e.refusal s caller modifiers member) :=
  rfl

/-- Code may use whatever goes by the name of the type that it acts for. -/
theorem mayUse_own (caller : ClassRef) (modifiers : Modifiers) :
    e.mayUse s caller (e.nameOf (e.actingClass s caller)) modifiers = true := by
  unfold mayUse Access.permits Access.samePackage
  cases modifiers.visibility <;> simp

end Engine

namespace Exec

variable {α β : Type}

/-- A question that has an answer or fails otherwise than by refusing a member. -/
def AnswerSpares {α : Type} (x : Except RunError α) : Prop :=
  ∀ error, x = .error error → error.isRefusal = false

/-- A computation that, however it ends, refuses no member. -/
def Spares (x : Run α) : Prop :=
  ∀ e error e', x e = .error (.error error) e' → error.isRefusal = false

theorem spares_pure (a : α) : Spares (pure a) := fun _ _ _ stops => nomatch stops

theorem spares_fail {error : RunError} (other : error.isRefusal = false) :
    Spares (fail error : Run α) := by
  intro e error' e' stops
  cases stops
  exact other

theorem spares_ask (f : Engine → α) : Spares (ask f) := fun _ _ _ stops => nomatch stops

/-- What goes on with an answer about the state need only spare members for real answers. -/
theorem spares_ask_bind {g : Engine → α} {f : α → Run β} (hf : ∀ e, Spares (f (g e))) :
    Spares (ask g >>= f) := by
  intro e error e' stops
  rw [bind_apply, ask_apply] at stops
  exact hf e _ _ _ stops

theorem spares_get : Spares (get : Run Engine) := fun _ _ _ stops => nomatch stops

theorem spares_modify (f : Engine → Engine) : Spares (modify f) :=
  fun _ _ _ stops => nomatch stops

theorem spares_modifyGet (f : Engine → α × Engine) : Spares (modifyGet f) :=
  fun _ _ _ stops => nomatch stops

theorem spares_check {f : Engine → Except RunError α} (other : ∀ e, AnswerSpares (f e)) :
    Spares (check f) := by
  intro e error e' stops
  rw [check_apply] at stops
  cases answer : f e with
  | ok a =>
    rw [answer] at stops
    cases stops
  | error error' =>
    rw [answer] at stops
    cases stops
    exact other e _ answer

theorem spares_ofResult {x : Except RunError α} (other : AnswerSpares x) : Spares (ofResult x) :=
  spares_check (f := fun _ => x) fun _ => other

theorem spares_resolve {f : Engine → Except (Stop RunError) α}
    (other : ∀ e error, f e = .error (.error error) → error.isRefusal = false) :
    Spares (resolve f) := by
  intro e error e' stops
  rw [resolve_apply] at stops
  cases answer : f e with
  | ok a =>
    rw [answer] at stops
    cases stops
  | error stop =>
    rw [answer] at stops
    cases stops
    exact other e _ answer

theorem spares_bind {x : Run α} {f : α → Run β} (hx : Spares x) (hf : ∀ a, Spares (f a)) :
    Spares (x >>= f) := by
  intro e error e' stops
  rw [bind_apply] at stops
  cases run : x e with
  | ok a e₁ =>
    rw [run] at stops
    exact hf a _ _ _ stops
  | error stop e₁ =>
    rw [run] at stops
    cases stops
    exact hx _ _ _ run

theorem spares_map (f : α → β) {x : Run α} (hx : Spares x) : Spares (f <$> x) := by
  intro e error e' stops
  rw [map_apply] at stops
  cases run : x e with
  | ok a e₁ =>
    rw [run] at stops
    cases stops
  | error stop e₁ =>
    rw [run] at stops
    cases stops
    exact hx _ _ _ run

theorem spares_discard {x : Run α} (hx : Spares x) : Spares (discard x) := spares_map _ hx

theorem spares_finally_modify {x : Run α} (hx : Spares x) (f : Engine → Engine) :
    Spares (tryFinally x (modify f)) := by
  intro e error e' stops
  rw [finally_modify_apply] at stops
  cases run : x e with
  | ok a e₁ =>
    rw [run] at stops
    cases stops
  | error stop e₁ =>
    rw [run] at stops
    cases stops
    exact hx _ _ _ run

end Exec

open Exec

/-! ### Questions about the engine -/

section Questions

variable {e : Engine} {missing : RunError}

theorem spares_requireClass (s : ScopeRef) (name : String) : AnswerSpares (e.requireClass s name) := by
  intro error stops
  unfold Engine.requireClass at stops
  split at stops <;> cases stops
  rfl

theorem spares_readSlot (other : missing.isRefusal = false) (o : ObjectRef)
    (declaring name : String) : AnswerSpares (e.readSlot o declaring name missing) := by
  intro error stops
  unfold Engine.readSlot at stops
  split at stops <;> cases stops
  exact other

theorem spares_instanceSlot (other : missing.isRefusal = false) (o : ObjectRef)
    (declaring name : String) : AnswerSpares (e.instanceSlot o declaring name missing) := by
  intro error stops
  unfold Engine.instanceSlot at stops
  split at stops <;> cases stops
  exact other

theorem spares_staticSlot (other : missing.isRefusal = false) (c : ClassRef) (name : String) :
    AnswerSpares (e.staticSlot c name missing) := by
  intro error stops
  unfold Engine.staticSlot at stops
  split at stops <;> cases stops
  exact other

theorem spares_readStatic (other : missing.isRefusal = false) (c : ClassRef) (index : Nat) :
    AnswerSpares (e.readStatic c index missing) := by
  intro error stops
  unfold Engine.readStatic at stops
  split at stops <;> cases stops
  exact other

theorem spares_checkSlot (o : ObjectRef) (index : Nat) : AnswerSpares (e.checkSlot o index) := by
  intro error stops
  unfold Engine.checkSlot at stops
  dsimp only at stops
  split at stops <;> cases stops
  rfl

theorem spares_checkStatic (c : ClassRef) (index : Nat) : AnswerSpares (e.checkStatic c index) := by
  intro error stops
  unfold Engine.checkStatic at stops
  split at stops <;> cases stops
  rfl

theorem spares_checkConforms (value : Value) (sig : TypeSig) :
    AnswerSpares (value.checkConforms e sig) := by
  intro error stops
  unfold Value.checkConforms at stops
  split at stops <;> cases stops
  rfl

theorem spares_readStore (store : FieldStore) (policy : FieldPolicy) (f : LiveField)
    (inherited : Option Value) : AnswerSpares (e.readStore store policy f inherited).1 := by
  intro error stops
  unfold Engine.readStore FieldStore.get at stops
  dsimp only at stops
  split at stops <;> cases stops
  rfl

theorem spares_fieldReceiver (receiver : Value) (f : FieldRef) :
    AnswerSpares (fieldReceiver receiver f) := by
  intro error stops
  unfold fieldReceiver at stops
  split at stops <;> cases stops
  rfl

theorem spares_receiverOf (args : List Value) (what : String) : AnswerSpares (receiverOf args what) := by
  intro error stops
  unfold receiverOf at stops
  split at stops <;> cases stops
  rfl

theorem spares_checkNonVirtual (s : ScopeRef) (caller : ClassRef) (method : MethodRef) :
    AnswerSpares (e.checkNonVirtual s caller method) := by
  intro error stops
  unfold Engine.checkNonVirtual at stops
  dsimp only at stops
  split at stops <;> cases stops
  rfl

/-- A search along a chain fails only where the chain does. -/
theorem isRefusal_findSome? {α : Type} {chain : LiveChain} {f : ClassRef → Option α}
    {error : RunError} (stops : chain.findSome? f = .error (.error error)) :
    error.isRefusal = false := by
  unfold LiveChain.findSome? at stops
  split at stops
  · cases stops
  · split at stops <;> cases stops
    rfl

end Questions

/-! ### Calls and field accesses -/

/-- The calls of a machine refuse no member. -/
def Machine.Spares (m : Machine) : Prop := ∀ c method args, Exec.Spares (m.call c method args)

namespace Machine

variable {m : Machine} (hm : m.Spares)

include hm

theorem spares_runStaticInit (c : ClassRef) : Exec.Spares (m.runStaticInit c) := by
  refine spares_bind (spares_ask _) fun init => ?_
  cases init with
  | none => exact spares_pure _
  | some init => exact spares_discard (hm c init [])

theorem spares_initializeAll (classes : List ClassRef) :
    Exec.Spares (m.initializeAll classes) := by
  -- The classes above come first, so the hypothesis is used before the class's own code runs.
  induction classes with
  | nil => exact spares_pure _
  | cons c above ih =>
    refine spares_bind (spares_ask _) fun progress => ?_
    split
    · exact spares_pure _
    · refine spares_bind ih fun _ => spares_bind (spares_modifyGet _) fun begun => ?_
      split
      · exact spares_finally_modify (spares_runStaticInit hm c) _
      · exact spares_pure _

theorem spares_ensureInitialized (c : ClassRef) : Exec.Spares (m.ensureInitialized c) :=
  spares_bind (spares_ask _) fun _ => spares_initializeAll hm _

omit hm in
theorem spares_writeStatic (c : ClassRef) (index : Nat) (value : Value) :
    Exec.Spares (writeStatic c index value) :=
  spares_bind (spares_check fun _ => spares_checkStatic c index) fun _ => spares_modify _

omit hm in
theorem spares_writeSlot {missing : RunError} (other : missing.isRefusal = false) (o : ObjectRef)
    (declaring name : String) (value : Value) :
    Exec.Spares (writeSlot o declaring name value missing) :=
  spares_bind (spares_check fun _ => spares_instanceSlot other o declaring name) fun _ =>
    spares_bind (spares_check fun _ => spares_checkSlot o _) fun _ => spares_modify _

theorem spares_readStored (f : LiveField) (t : TypeRef) (receiver : Option ObjectRef) :
    Exec.Spares (m.readStored f t receiver) := by
  refine spares_bind (spares_ask _) fun policy => ?_
  cases receiver with
  | none =>
    refine spares_bind (spares_ensureInitialized hm _) fun _ => spares_ask_bind fun e => ?_
    have read := spares_readStore (e := e) (e.typeAt t).statics policy f none
    exact spares_bind (spares_modify _) fun _ => spares_ofResult read
  | some o =>
    refine spares_ask_bind fun e => ?_
    have read := spares_readStore (e := e) (e.storeOf o) policy f
      (e.inheritedValue? m.scope o f.name f.sig)
    exact spares_bind (spares_modify _) fun _ => spares_ofResult read

theorem spares_readField (f : LiveField) (receiver : Option ObjectRef) :
    Exec.Spares (m.readField f receiver) := by
  unfold readField
  split
  · exact spares_readStored hm f _ _
  · exact spares_bind (spares_ensureInitialized hm _) fun _ =>
      spares_bind (spares_check fun _ => spares_staticSlot rfl _ _) fun _ =>
        spares_check fun _ => spares_readStatic rfl _ _
  · exact spares_check fun _ => spares_readSlot rfl _ _ _

theorem spares_writeField (f : LiveField) (receiver : Option ObjectRef) (value : Value) :
    Exec.Spares (m.writeField f receiver value) := by
  refine spares_bind (spares_check fun _ => spares_checkConforms value f.sig) fun _ => ?_
  split
  · exact spares_bind (spares_ensureInitialized hm _) fun _ => spares_modify _
  · exact spares_modify _
  · exact spares_bind (spares_ensureInitialized hm _) fun _ =>
      spares_bind (spares_check fun _ => spares_staticSlot rfl _ _) fun _ =>
        spares_writeStatic _ _ value
  · exact spares_writeSlot rfl _ _ _ value

theorem spares_callHosted {missing : RunError} (other : missing.isRefusal = false)
    (native : ClassRef) (key : MemberKey) (args : List Value) :
    Exec.Spares (m.callHosted native key missing args) := by
  refine spares_bind (spares_ask _) fun method => ?_
  cases method with
  | none => exact spares_fail other
  | some method => exact hm _ method args

theorem spares_callLive (t : TypeRef) (key : MemberKey) (args : List Value) :
    Exec.Spares (m.callLive t key args) := by
  refine spares_bind (spares_ask _) fun type => ?_
  split
  · split
    · split
      · split
        · exact spares_bind (spares_ensureInitialized hm _) fun _ => hm _ _ args
        · exact hm _ _ args
      · exact spares_fail rfl
    · exact spares_fail rfl
    · exact spares_fail rfl
    all_goals exact spares_callHosted hm rfl _ key args
  · exact spares_fail rfl

theorem spares_callResolved (live : LiveMethod) (key : MemberKey) (args : List Value) :
    Exec.Spares (m.callResolved live key args) := by
  unfold callResolved
  split
  · exact spares_fail rfl
  · split
    · exact spares_callLive hm _ key args
    · exact hm _ _ args
    · exact spares_fail rfl

theorem spares_callVirtual (receiver : ClassRef) (key : MemberKey) (args : List Value) :
    Exec.Spares (m.callVirtual receiver key args) := by
  have selected : Exec.Spares (m.dispatchVirtual receiver key args) := by
    refine spares_bind (spares_resolve fun _ _ => isRefusal_findSome?) fun selection => ?_
    split
    · exact spares_map _ (spares_callLive hm _ key args)
    · exact spares_map _ (hm _ _ args)
    · exact spares_bind spares_get fun _ => spares_fail rfl
    · exact spares_pure _
  refine spares_bind selected fun answer => ?_
  cases answer with
  | none => exact spares_bind spares_get fun _ => spares_fail rfl
  | some value => exact spares_pure _

omit hm in
theorem spares_checkReceiverClass (receiver : ClassRef) (owner : String) :
    Exec.Spares (checkReceiverClass receiver owner) := by
  refine spares_bind (spares_ask _) fun cls => ?_
  split
  · exact spares_pure _
  · exact spares_fail rfl

omit hm in
theorem spares_nativeReceiver (method : MethodRef) (args : List Value) :
    Exec.Spares (nativeReceiver method args) := by
  unfold nativeReceiver
  split
  · exact spares_ask _
  · exact spares_fail rfl
  · exact spares_fail rfl
  · exact spares_bind spares_get fun _ => spares_fail rfl

theorem spares_callSelected (receiver : ClassRef) (key : MemberKey) (args : List Value) :
    Exec.Spares (m.callSelected receiver key args) := by
  refine spares_bind (spares_ask _) fun selected => ?_
  split
  · split
    · exact spares_callVirtual hm receiver key args
    · refine spares_bind (spares_check fun e => ?_) fun c => hm c _ args
      split
      · exact fun _ stops => nomatch stops
      · exact spares_requireClass _ _
  · exact spares_callVirtual hm receiver key args

/-- A call by live versions refuses nothing: the guard has checked access. -/
theorem spares_callDynamic (caller : ClassRef) (kind : InvokeKind) (method : MethodRef)
    (live : LiveMethod) (args : List Value) :
    Exec.Spares (m.callDynamic caller kind method live args) := by
  have selecting : Exec.Spares (do
      let o ← ofResult (receiverOf args method.text)
      let receiver ← ask fun e => (e.objectAt o).cls
      checkReceiverClass receiver method.owner
      if live.modifiers.isPrivate then m.callResolved live method.key args
      else m.callVirtual receiver method.key args) := by
    refine spares_bind (spares_ofResult (spares_receiverOf args _)) fun o =>
      spares_bind (spares_ask _) fun receiver =>
        spares_bind (spares_checkReceiverClass receiver _) fun _ => ?_
    split
    · exact spares_callResolved hm live _ args
    · exact spares_callVirtual hm receiver _ args
  cases kind with
  | static => exact spares_callResolved hm live _ args
  | special =>
    exact spares_bind (spares_check fun _ => spares_checkNonVirtual _ caller method) fun _ =>
      spares_bind (spares_discard (spares_ofResult (spares_receiverOf args _))) fun _ =>
        spares_callResolved hm live _ args
  | virtual => exact selecting
  | interface => exact selecting

end Machine

/-- Whether something ended with the refusal of a member. -/
def refuses {α : Type} : EStateM.Result (Stop RunError) Engine α → Bool
  | .error (.error error) _ => error.isRefusal
  | _ => false

theorem Exec.Spares.refuses_eq {α : Type} {x : Run α} (spares : Exec.Spares x) (e : Engine) :
    refuses (x e) = false := by
  cases run : x e with
  | ok a e' => rfl
  | error stop e' =>
    cases stop with
    | outOfFuel => rfl
    | error error => exact spares e error e' run

/-! ### Inside a frame -/

namespace Step

variable {α β : Type}

/-- A computation inside a frame that, however it ends, refuses no member. -/
def Spares (x : Step α) : Prop := ∀ f, Exec.Spares (x f)

theorem Spares.refuses_eq {x : Step α} (spares : Spares x) (f : Frame) (e : Engine) :
    refuses (x f e) = false :=
  Exec.Spares.refuses_eq (spares f) e

theorem spares_pure (a : α) : Spares (pure a : Step α) := fun _ => Exec.spares_pure _

theorem spares_bind {x : Step α} {g : α → Step β} (hx : Spares x) (hg : ∀ a, Spares (g a)) :
    Spares (x >>= g) :=
  fun f => Exec.spares_bind (hx f) fun r => hg r.1 r.2

theorem spares_lift {x : Run α} (hx : Exec.Spares x) : Spares (liftM x : Step α) :=
  fun _ => Exec.spares_bind hx fun _ => Exec.spares_pure _

theorem spares_check {g : Engine → Except RunError α} (other : ∀ e, AnswerSpares (g e)) :
    Spares (check g) :=
  spares_lift (Exec.spares_check other)

theorem spares_onFrame {g : Frame → Except RunError (α × Frame)}
    (other : ∀ f, AnswerSpares (g f)) : Spares (onFrame g) :=
  fun f => Exec.spares_bind (spares_lift (spares_ofResult (other f)) f) fun _ =>
    Exec.spares_pure _

theorem spares_push (value : Value) : Spares (push value) := fun _ => Exec.spares_pure _

theorem spares_pop : Spares pop := by
  refine spares_onFrame fun f error stops => ?_
  unfold Frame.pop at stops
  split at stops <;> cases stops
  rfl

theorem spares_popMany (count : Nat) : Spares (popMany count) := by
  refine spares_onFrame fun f error stops => ?_
  unfold Frame.popMany at stops
  split at stops <;> cases stops
  rfl

theorem spares_pushResult (sig : MethodSig) (value : Value) : Spares (pushResult sig value) := by
  unfold pushResult
  split
  · exact spares_push value
  · exact spares_pure _

end Step

namespace Machine

variable {m : Machine} {e : Engine} (hm : m.Spares)

open Step (spares_lift spares_push spares_pop)

include hm

/-- A field access by live versions refuses nothing: the guard has checked access. -/
theorem spares_accessLive (access : FieldAccess) (field : FieldRef) (live : LiveField) :
    Step.Spares (m.accessLive access field live) := by
  have receives (receiver : Value) : Step.Spares (Step.check fun _ => fieldReceiver receiver field) :=
    Step.spares_check fun _ => spares_fieldReceiver receiver field
  cases access with
  | get =>
    exact Step.spares_bind spares_pop fun _ => Step.spares_bind (receives _) fun _ =>
      Step.spares_bind (spares_lift (spares_readField hm live _)) fun _ => spares_push _
  | put =>
    exact Step.spares_bind spares_pop fun _ => Step.spares_bind spares_pop fun _ =>
      Step.spares_bind (receives _) fun _ => spares_lift (spares_writeField hm live _ _)
  | getStatic =>
    exact Step.spares_bind (spares_lift (spares_readField hm live _)) fun _ => spares_push _
  | putStatic =>
    exact Step.spares_bind spares_pop fun _ => spares_lift (spares_writeField hm live _ _)

omit hm in
/-- A field access as the host links it is refused only where the field is. -/
theorem refuses_accessHost {access : FieldAccess} {field : FieldRef} {f : Frame}
    (hm : refuses (m.hostField f.cls access field e) = false → m.Spares) :
    refuses (m.accessHost access field f e) = refuses (m.hostField f.cls access field e) := by
  unfold accessHost
  rw [Step.get_bind, Step.lift_bind]
  cases linked : m.hostField f.cls access field e with
  | error stop e' => cases stop <;> rfl
  | ok host e' =>
    have calls : m.Spares := hm (by rw [linked]; rfl)
    have receives (receiver : Value) :
        Step.Spares (Step.check fun _ => fieldReceiver receiver field) :=
      Step.spares_check fun _ => spares_fieldReceiver receiver field
    have conforms (value : Value) :
        Step.Spares (Step.check fun e => value.checkConforms e host.slot.sig) :=
      Step.spares_check fun _ => spares_checkConforms value _
    dsimp only
    show _ = false
    cases access with
    | get =>
      refine Step.Spares.refuses_eq ?_ f e'
      exact Step.spares_bind spares_pop fun _ => Step.spares_bind (receives _) fun _ =>
        Step.spares_bind (Step.spares_check fun _ => spares_readSlot rfl _ _ _) fun _ =>
          spares_push _
    | put =>
      refine Step.Spares.refuses_eq ?_ f e'
      exact Step.spares_bind spares_pop fun _ => Step.spares_bind spares_pop fun _ =>
        Step.spares_bind (receives _) fun _ => Step.spares_bind (conforms _) fun _ =>
          spares_lift (spares_writeSlot rfl _ _ _ _)
    | getStatic =>
      refine Step.Spares.refuses_eq ?_ f e'
      exact Step.spares_bind (spares_lift (spares_ensureInitialized calls _)) fun _ =>
        Step.spares_bind (Step.spares_check fun _ => spares_readStatic rfl _ _) fun _ =>
          spares_push _
    | putStatic =>
      refine Step.Spares.refuses_eq ?_ f e'
      exact Step.spares_bind spares_pop fun _ => Step.spares_bind (conforms _) fun _ =>
        Step.spares_bind (spares_lift (spares_ensureInitialized calls _)) fun _ =>
          spares_lift (spares_writeStatic _ _ _)

omit hm in
/-- A call as the host links it is refused only where the method that it is linked to is. -/
theorem refuses_callNative {owner declaring caller : ClassRef} {found : Method} {kind : InvokeKind}
    {method : MethodRef}
    (hm : e.mayUse m.scope caller found.declaring found.declared = true → m.Spares)
    (known : e.class? m.scope method.owner = some owner)
    (linked : e.hostMethod? owner method.key = some (declaring, found))
    (fits : checkInvokeKind kind method found.isStatic = .ok ()) (args : List Value) :
    refuses (m.callNative caller kind method args e) =
      !e.mayUse m.scope caller found.declaring found.declared := by
  unfold callNative
  rw [bind_apply, check_apply]
  unfold Engine.requireClass
  rw [known]
  dsimp only
  rw [bind_apply, require_apply, linked]
  dsimp only
  rw [bind_apply, ofResult_apply, fits]
  dsimp only
  rw [bind_apply, check_apply, Engine.checkAccess_eq]
  cases permitted : e.mayUse m.scope caller found.declaring found.declared with
  | false => rfl
  | true =>
    have calls := hm permitted
    have selecting : Exec.Spares (do
        let receiver ← nativeReceiver method args
        checkReceiverClass receiver method.owner
        if found.modifiers.isPrivate then m.call declaring found args
        else m.callSelected receiver method.key args) := by
      refine spares_bind (spares_nativeReceiver method args) fun receiver =>
        spares_bind (spares_checkReceiverClass receiver _) fun _ => ?_
      split
      · exact calls _ _ args
      · exact spares_callSelected calls receiver _ args
    simp only [if_true, Bool.not_true]
    cases kind with
    | static => exact (calls _ _ args).refuses_eq e
    | special =>
      refine Exec.Spares.refuses_eq ?_ e
      refine spares_bind (spares_check fun _ => spares_checkNonVirtual _ caller method) fun _ => ?_
      split
      · exact spares_bind (spares_fail rfl) fun _ => calls _ _ args
      · exact calls _ _ args
    | virtual => exact selecting.refuses_eq e
    | interface => exact selecting.refuses_eq e

end Machine

end LiveUpdate
