import LiveUpdate.Proofs.Stepping

/-!
# More fuel

A computation completes another one when it does the same wherever that does not run out of
fuel.  Every function of the machine completes itself when the calls it makes are completed.
-/

set_option autoImplicit false

namespace LiveUpdate

namespace Exec

variable {ε α β : Type}

/-- An outcome other than being out of fuel. -/
def Settled (outcome : EStateM.Result (Stop ε) Engine α) : Prop :=
  match outcome with
  | .error .outOfFuel _ => False
  | _ => True

theorem settled_ok (a : α) (e : Engine) : Settled (.ok a e : EStateM.Result (Stop ε) Engine α) :=
  trivial

/-- Whether an outcome without a result is settled depends on the reason alone. -/
theorem settled_error_iff {stop : Stop ε} {e e' : Engine} :
    Settled (.error stop e : EStateM.Result (Stop ε) Engine α) ↔
      Settled (.error stop e' : EStateM.Result (Stop ε) Engine β) := by
  cases stop <;> rfl

/-- The first computation does what the second does, unless that runs out of fuel. -/
def Completes (y x : Exec ε α) : Prop := ∀ e, Settled (x e) → y e = x e

theorem completes_refl (x : Exec ε α) : Completes x x := fun _ _ => rfl

/-- What runs out of fuel is completed by anything. -/
theorem completes_outOfFuel (y : Exec ε α) : Completes y (throw .outOfFuel) :=
  fun _ settled => settled.elim

theorem completes_bind {x y : Exec ε α} {f g : α → Exec ε β} (hx : Completes y x)
    (hf : ∀ a, Completes (g a) (f a)) : Completes (y >>= g) (x >>= f) := by
  intro e settled
  have first := hx e
  rw [bind_apply] at settled ⊢
  rw [bind_apply]
  cases run : x e with
  | ok a e' =>
    rw [run] at settled first
    rw [first (settled_ok a e')]
    exact hf a e' settled
  | error stop e' =>
    rw [run] at settled first
    cases stop with
    | error error => rw [first trivial]
    | outOfFuel => exact settled.elim

theorem completes_map (f : α → β) {x y : Exec ε α} (hx : Completes y x) :
    Completes (f <$> y) (f <$> x) := by
  intro e settled
  have first := hx e
  rw [map_apply] at settled ⊢
  rw [map_apply]
  cases run : x e with
  | ok a e' =>
    rw [run] at first
    rw [first (settled_ok a e')]
  | error stop e' =>
    rw [run] at settled first
    cases stop with
    | error error => rw [first trivial]
    | outOfFuel => exact settled.elim

theorem completes_finally_modify {x y : Exec ε α} (hx : Completes y x) (f : Engine → Engine) :
    Completes (tryFinally y (modify f)) (tryFinally x (modify f)) := by
  intro e settled
  have first := hx e
  rw [finally_modify_apply] at settled ⊢
  rw [finally_modify_apply]
  cases run : x e with
  | ok a e' =>
    rw [run] at first
    rw [first (settled_ok a e')]
  | error stop e' =>
    rw [run] at settled first
    cases stop with
    | error error => rw [first trivial]
    | outOfFuel => exact settled.elim

end Exec

open Exec

/-- The machine with another way of calling methods. -/
def Machine.withCall (m : Machine) (call : ClassRef → Method → List Value → Run Value) : Machine :=
  { m with call }

/-- A way of calling methods completes that of a machine. -/
def Machine.CompletedBy (m : Machine) (call : ClassRef → Method → List Value → Run Value) : Prop :=
  ∀ c method args, Completes (call c method args) (m.call c method args)

namespace Machine

variable {m : Machine} {call : ClassRef → Method → List Value → Run Value}

theorem completes_runStaticInit (h : m.CompletedBy call) (c : ClassRef) :
    Completes ((m.withCall call).runStaticInit c) (m.runStaticInit c) := by
  refine completes_bind (completes_refl _) fun init => ?_
  cases init with
  | none => exact completes_refl _
  | some init => exact completes_map _ (h c init [])

theorem completes_initializeAll (h : m.CompletedBy call) (classes : List ClassRef) :
    Completes ((m.withCall call).initializeAll classes) (m.initializeAll classes) := by
  -- along the superclasses, which are initialized first
  induction classes with
  | nil => exact completes_refl _
  | cons c above ih =>
    refine completes_bind (completes_refl _) fun progress => ?_
    split
    · exact completes_refl _
    · refine completes_bind ih fun _ => completes_bind (completes_refl _) fun begun => ?_
      cases begun with
      | true => exact completes_finally_modify (completes_runStaticInit h c) _
      | false => exact completes_refl _

theorem completes_ensureInitialized (h : m.CompletedBy call) (c : ClassRef) :
    Completes ((m.withCall call).ensureInitialized c) (m.ensureInitialized c) :=
  completes_bind (completes_refl _) fun _ => completes_initializeAll h _

theorem completes_instantiate (h : m.CompletedBy call) (typeName : String) :
    Completes ((m.withCall call).instantiate typeName) (m.instantiate typeName) := by
  refine completes_bind (completes_refl _) fun c => completes_bind (completes_refl _)
    fun isAbstract => ?_
  cases isAbstract with
  | true => exact completes_refl _
  | false => exact completes_bind (completes_ensureInitialized h c) fun _ => completes_refl _

section Fields

theorem completes_readStored (h : m.CompletedBy call) (f : LiveField) (t : TypeRef)
    (receiver : Option ObjectRef) :
    Completes ((m.withCall call).readStored f t receiver) (m.readStored f t receiver) := by
  refine completes_bind (completes_refl _) fun policy => ?_
  cases receiver with
  | none => exact completes_bind (completes_ensureInitialized h _) fun _ => completes_refl _
  | some o => exact completes_refl _

theorem completes_readField (h : m.CompletedBy call) (f : LiveField) (receiver : Option ObjectRef) :
    Completes ((m.withCall call).readField f receiver) (m.readField f receiver) := by
  unfold readField
  cases f.storedBy? with
  | some t => exact completes_readStored h f t receiver
  | none =>
    cases receiver with
    | none => exact completes_bind (completes_ensureInitialized h _) fun _ => completes_refl _
    | some o => exact completes_refl _

theorem completes_writeField (h : m.CompletedBy call) (f : LiveField) (receiver : Option ObjectRef)
    (value : Value) :
    Completes ((m.withCall call).writeField f receiver value) (m.writeField f receiver value) := by
  refine completes_bind (completes_refl _) fun _ => ?_
  cases f.storedBy? with
  | some t =>
    cases receiver with
    | none => exact completes_bind (completes_ensureInitialized h _) fun _ => completes_refl _
    | some o => exact completes_refl _
  | none =>
    cases receiver with
    | none => exact completes_bind (completes_ensureInitialized h _) fun _ => completes_refl _
    | some o => exact completes_refl _

end Fields

section Calls

theorem completes_callHosted (h : m.CompletedBy call) (native : ClassRef) (key : MemberKey)
    (missing : RunError) (args : List Value) :
    Completes ((m.withCall call).callHosted native key missing args)
      (m.callHosted native key missing args) := by
  refine completes_bind (completes_refl _) fun method => ?_
  cases method with
  | none => exact completes_refl _
  | some method => exact h native method args

theorem completes_callLive (h : m.CompletedBy call) (t : TypeRef) (key : MemberKey)
    (args : List Value) :
    Completes ((m.withCall call).callLive t key args) (m.callLive t key args) := by
  refine completes_bind (completes_refl _) fun type => ?_
  cases type.native with
  | none => exact completes_refl _
  | some native =>
    have host := completes_callHosted h native key (.memberMissing type.name key) args
    cases type.live.dispatch.lookup key with
    | none => exact host
    | some entry =>
      cases entry with
      | host => exact host
      | deleted => exact completes_refl _
      | abstract => exact completes_refl _
      | executor method =>
        cases type.live.executor? with
        | none => exact completes_refl _
        | some executor =>
          dsimp only
          split
          · exact completes_bind (completes_ensureInitialized h native) fun _ => h _ _ args
          · exact h _ _ args

theorem completes_callResolved (h : m.CompletedBy call) (live : LiveMethod) (key : MemberKey)
    (args : List Value) :
    Completes ((m.withCall call).callResolved live key args) (m.callResolved live key args) := by
  unfold callResolved
  split
  · exact completes_refl _
  · cases live.managed with
    | some t => exact completes_callLive h t key args
    | none =>
      cases live.host with
      | some host => exact h _ _ args
      | none => exact completes_refl _

theorem completes_dispatchVirtual (h : m.CompletedBy call) (start : ClassRef) (key : MemberKey)
    (args : List Value) :
    Completes ((m.withCall call).dispatchVirtual start key args)
      (m.dispatchVirtual start key args) := by
  refine completes_bind (completes_refl _) fun selection => ?_
  cases selection with
  | none => exact completes_refl _
  | some selected =>
    cases selected with
    | live t => exact completes_map _ (completes_callLive h t key args)
    | host c method => exact completes_map _ (h c method args)
    | abstract c => exact completes_refl _

theorem completes_callVirtual (h : m.CompletedBy call) (receiver : ClassRef) (key : MemberKey)
    (args : List Value) :
    Completes ((m.withCall call).callVirtual receiver key args) (m.callVirtual receiver key args) :=
  completes_bind (completes_dispatchVirtual h receiver key args) fun _ => completes_refl _

theorem completes_callInherited (h : m.CompletedBy call) (t : TypeRef) (key : MemberKey)
    (args : List Value) :
    Completes ((m.withCall call).callInherited t key args) (m.callInherited t key args) := by
  refine completes_bind (completes_refl _) fun type => ?_
  cases type.live.shape.superName with
  | none => exact completes_refl _
  | some superName =>
    refine completes_bind (completes_refl _) fun parent => completes_bind (completes_refl _)
      fun live => ?_
    cases live with
    | none => exact completes_refl _
    | some live => exact completes_callResolved h live key args

theorem completes_callPrivileged (h : m.CompletedBy call) (t : TypeRef) (method : MethodRef)
    (args : List Value) :
    Completes ((m.withCall call).callPrivileged t method args)
      (m.callPrivileged t method args) := by
  refine completes_bind (completes_refl _) fun shape => ?_
  split
  · exact completes_callLive h t _ args
  · exact completes_bind (completes_refl _) fun _ => completes_callLive h t _ args

theorem completes_callSelected (h : m.CompletedBy call) (receiver : ClassRef) (key : MemberKey)
    (args : List Value) :
    Completes ((m.withCall call).callSelected receiver key args)
      (m.callSelected receiver key args) := by
  refine completes_bind (completes_refl _) fun selected => ?_
  cases selected with
  | none => exact completes_callVirtual h receiver key args
  | some selected =>
    dsimp only
    split
    · exact completes_callVirtual h receiver key args
    · exact completes_bind (completes_refl _) fun c => h c _ args

theorem completes_callNative (h : m.CompletedBy call) (caller : ClassRef) (kind : InvokeKind)
    (method : MethodRef) (args : List Value) :
    Completes ((m.withCall call).callNative caller kind method args)
      (m.callNative caller kind method args) := by
  refine completes_bind (completes_refl _) fun owner => completes_bind (completes_refl _)
    fun found => completes_bind (completes_refl _) fun _ => completes_bind (completes_refl _)
      fun _ => ?_
  -- a virtual call and a call of an interface method are the same
  have selecting : Completes (do
      let receiver ← nativeReceiver method args
      checkReceiverClass receiver method.owner
      if found.2.modifiers.isPrivate then call found.1 found.2 args
      else (m.withCall call).callSelected receiver method.key args) (do
      let receiver ← nativeReceiver method args
      checkReceiverClass receiver method.owner
      if found.2.modifiers.isPrivate then m.call found.1 found.2 args
      else m.callSelected receiver method.key args) := by
    refine completes_bind (completes_refl _) fun receiver => completes_bind (completes_refl _)
      fun _ => ?_
    split
    · exact h _ _ args
    · exact completes_callSelected h receiver _ args
  cases kind with
  | static => exact h _ _ args
  | special =>
    refine completes_bind (completes_refl _) fun _ => ?_
    dsimp only
    split
    · exact completes_refl _
    · exact h _ _ args
  | virtual => exact selecting
  | interface => exact selecting

theorem completes_callDynamic (h : m.CompletedBy call) (caller : ClassRef) (kind : InvokeKind)
    (method : MethodRef) (live : LiveMethod) (args : List Value) :
    Completes ((m.withCall call).callDynamic caller kind method live args)
      (m.callDynamic caller kind method live args) := by
  have selecting : Completes (do
      let o ← ofResult (receiverOf args method.text)
      let receiver ← ask fun e => (e.objectAt o).cls
      checkReceiverClass receiver method.owner
      if live.modifiers.isPrivate then (m.withCall call).callResolved live method.key args
      else (m.withCall call).callVirtual receiver method.key args) (do
      let o ← ofResult (receiverOf args method.text)
      let receiver ← ask fun e => (e.objectAt o).cls
      checkReceiverClass receiver method.owner
      if live.modifiers.isPrivate then m.callResolved live method.key args
      else m.callVirtual receiver method.key args) := by
    refine completes_bind (completes_refl _) fun o => completes_bind (completes_refl _)
      fun receiver => completes_bind (completes_refl _) fun _ => ?_
    split
    · exact completes_callResolved h live _ args
    · exact completes_callVirtual h receiver _ args
  cases kind with
  | static => exact completes_callResolved h live _ args
  | special =>
    exact completes_bind (completes_refl _) fun _ => completes_bind (completes_refl _) fun _ =>
      completes_callResolved h live _ args
  | virtual => exact selecting
  | interface => exact selecting

end Calls

end Machine

end LiveUpdate
