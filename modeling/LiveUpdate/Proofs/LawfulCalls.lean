import LiveUpdate.Proofs.Laws

/-!
# Calls and field accesses obey

Initializations, field accesses and calls obey every law that the calls of the machine obey.
Wherever a method is called, it is one that a class, a dispatch table or a resolution leads to,
so it is one that may run.
-/

set_option autoImplicit false

namespace LiveUpdate

open Exec

namespace Machine

variable {law : Law} {m : Machine}

section Initialization

variable (hm : m.Obeys law)
include hm

theorem obeys_runStaticInit (c : ClassRef) :
    Exec.Obeys law.holds (m.runStaticInit c) fun _ => True := by
  refine obeys_ask_bind fun e he => ?_
  cases declared : (e.classAt c).method? .staticInit with
  | none => exact obeys_pure True.intro
  | some init => exact obeys_discard (hm c init [] (law.declared he declared))

theorem obeys_initializeAll (classes : List ClassRef) :
    Exec.Obeys law.holds (m.initializeAll classes) fun _ => True := by
  induction classes with
  | nil => exact obeys_pure True.intro
  | cons c above ih =>
    refine obeys_ask_bind fun e _ => ?_
    split
    · exact obeys_pure True.intro
    · have begins : Exec.Obeys law.holds (modifyGet fun e => e.beginInit c : Run Bool)
          fun _ => True :=
        Law.obeys_writesGet (fun e => e.writes_beginInit c) fun e => by
          unfold Engine.beginInit
          split <;> rfl
      refine obeys_bind ih fun _ _ => obeys_bind begins fun begun _ => ?_
      split
      · exact obeys_finally_modify (obeys_runStaticInit hm c)
          fun e he => ⟨law.writes (e.writes_finishInit c) he, rfl⟩
      · exact obeys_pure True.intro

theorem obeys_ensureInitialized (c : ClassRef) :
    Exec.Obeys law.holds (m.ensureInitialized c) fun _ => True :=
  obeys_ask_bind fun _ _ => obeys_initializeAll hm _

theorem obeys_instantiate (typeName : String) :
    Exec.Obeys law.holds (m.instantiate typeName) fun _ => True := by
  have allocate (c : ClassRef) : Exec.Obeys law.holds (do
      m.ensureInitialized c
      modifyGet fun e => e.newObject c : Run ObjectRef) fun _ => True :=
    obeys_bind (obeys_ensureInitialized hm c) fun _ _ =>
      Law.obeys_writesGet (fun e => e.writes_newObject c) fun _ => rfl
  refine obeys_bind (obeys_check fun _ _ _ _ => True.intro) fun c _ => obeys_ask_bind fun _ _ => ?_
  split
  · exact obeys_bind (obeys_fail _) fun _ (_ : True) => allocate c
  · exact allocate c

end Initialization

section Fields

theorem obeys_writeStatic (c : ClassRef) (index : Nat) (value : Value) :
    Exec.Obeys law.holds (writeStatic c index value) fun _ => True :=
  obeys_bind obeys_checked fun _ _ =>
    Law.obeys_writes (fun e => e.writes_updateClass c fun _ => rfl) fun _ => rfl

theorem obeys_putSlot (o : ObjectRef) (index : Nat) (value : Value) :
    Exec.Obeys law.holds (putSlot o index value) fun _ => True :=
  obeys_bind obeys_checked fun _ _ =>
    Law.obeys_writes (fun e => e.writes_updateObject o _) fun _ => rfl

theorem obeys_writeSlot (o : ObjectRef) (declaring name : String) (value : Value)
    (missing : RunError) :
    Exec.Obeys law.holds (writeSlot o declaring name value missing) fun _ => True :=
  obeys_bind obeys_checked fun _ _ => obeys_putSlot o _ value

theorem obeys_readStored (hm : m.Obeys law) (f : LiveField) (t : TypeRef)
    (receiver : Option ObjectRef) :
    Exec.Obeys law.holds (m.readStored f t receiver) fun _ => True := by
  refine obeys_ask_bind fun _ _ => ?_
  cases receiver with
  | none =>
    refine obeys_bind (obeys_ensureInitialized hm _) fun _ _ => obeys_ask_bind fun _ _ => ?_
    exact obeys_bind (Law.obeys_writes (fun e => e.writes_updateType t fun _ => rfl) fun _ => rfl)
      fun _ _ => obeys_examined
  | some o =>
    refine obeys_ask_bind fun _ _ => ?_
    exact obeys_bind (Law.obeys_writes (fun e => e.writes_updateObject o _) fun _ => rfl)
      fun _ _ => obeys_examined

theorem obeys_readField (hm : m.Obeys law) (f : LiveField) (receiver : Option ObjectRef) :
    Exec.Obeys law.holds (m.readField f receiver) fun _ => True := by
  unfold readField
  split
  · exact obeys_readStored hm f _ _
  · exact obeys_bind (obeys_ensureInitialized hm _) fun _ _ =>
      obeys_bind obeys_checked fun _ _ => obeys_checked
  · exact obeys_checked

theorem obeys_writeField (hm : m.Obeys law) (f : LiveField) (receiver : Option ObjectRef)
    (value : Value) : Exec.Obeys law.holds (m.writeField f receiver value) fun _ => True := by
  refine obeys_bind obeys_checked fun _ _ => ?_
  split
  next t _ =>
    exact obeys_bind (obeys_ensureInitialized hm _) fun _ _ =>
      Law.obeys_writes (fun e => e.writes_updateType t fun _ => rfl) fun _ => rfl
  next o _ => exact Law.obeys_writes (fun e => e.writes_updateObject o _) fun _ => rfl
  · exact obeys_bind (obeys_ensureInitialized hm _) fun _ _ =>
      obeys_bind obeys_checked fun _ _ => obeys_writeStatic _ _ value
  · exact obeys_writeSlot _ _ _ value _

theorem obeys_liveField (owner : ClassRef) (access : FieldAccess) (f : FieldRef) :
    Exec.Obeys law.holds (m.liveField owner access f) fun _ => True := by
  refine obeys_bind (obeys_resolve fun _ _ _ _ => True.intro) fun live _ => ?_
  cases live with
  | none => exact obeys_fail _
  | some live => exact obeys_bind obeys_examined fun _ _ => obeys_pure True.intro

theorem obeys_hostField (caller : ClassRef) (access : FieldAccess) (f : FieldRef) :
    Exec.Obeys law.holds (m.hostField caller access f) fun _ => True :=
  obeys_bind obeys_checked fun _ _ => obeys_bind (obeys_require fun _ _ _ _ => True.intro)
    fun _ _ => obeys_bind obeys_examined fun _ _ => obeys_bind obeys_checked fun _ _ =>
      obeys_pure True.intro

theorem obeys_routeField (caller : ClassRef) (access : FieldAccess) (f : FieldRef) :
    Exec.Obeys law.holds (m.routeField caller access f) fun _ => True := by
  refine obeys_ask_bind fun scope _ => ?_
  split
  · exact obeys_pure True.intro
  · split
    · exact obeys_bind (obeys_liveField _ access f) fun _ _ => obeys_bind obeys_checked fun _ _ =>
        obeys_ask_bind fun _ _ => obeys_pure True.intro
    · exact obeys_pure True.intro

end Fields

section Calls

variable (hm : m.Obeys law)

/-- Call the method that the host class of a managed type has. -/
def callHosted (m : Machine) (native : ClassRef) (key : MemberKey) (missing : RunError)
    (args : List Value) : Run Value := do
  match ← ask fun e => (e.classAt native).method? key with
  | some method => m.call native method args
  | none => fail missing

theorem obeys_checkReceiverClass (receiver : ClassRef) (owner : String) :
    Exec.Obeys law.holds (checkReceiverClass receiver owner) fun _ => True := by
  refine obeys_ask_bind fun _ _ => ?_
  split
  · exact obeys_pure True.intro
  · exact obeys_fail _

theorem obeys_nativeReceiver (method : MethodRef) (args : List Value) :
    Exec.Obeys law.holds (nativeReceiver method args) fun _ => True := by
  unfold nativeReceiver
  split
  · exact obeys_ask fun _ _ => True.intro
  · exact obeys_fail _
  · exact obeys_fail _
  · exact obeys_bind obeys_get fun _ _ => obeys_fail _

include hm

theorem obeys_callHosted (native : ClassRef) (key : MemberKey) (missing : RunError)
    (args : List Value) :
    Exec.Obeys law.holds (m.callHosted native key missing args) fun _ => True := by
  refine obeys_ask_bind fun e he => ?_
  cases declared : (e.classAt native).method? key with
  | none => exact obeys_fail _
  | some method => exact hm _ method args (law.declared he declared)

theorem obeys_callLive (t : TypeRef) (key : MemberKey) (args : List Value) :
    Exec.Obeys law.holds (m.callLive t key args) fun _ => True := by
  refine obeys_ask_bind fun e he => ?_
  split
  · split
    next method entry =>
      have runs := Law.runs_lookup he entry
      split
      · split
        · exact obeys_bind (obeys_ensureInitialized hm _) fun _ _ => hm _ method args runs
        · exact hm _ method args runs
      · exact obeys_fail _
    · exact obeys_fail _
    · exact obeys_fail _
    all_goals exact obeys_callHosted hm _ key _ args
  · exact obeys_fail _

theorem obeys_callResolved {live : LiveMethod} (hosts : live.Hosts law.runs) (key : MemberKey)
    (args : List Value) : Exec.Obeys law.holds (m.callResolved live key args) fun _ => True := by
  unfold callResolved
  split
  · exact obeys_fail _
  · split
    · exact obeys_callLive hm _ key args
    next c method _ host => exact hm c method args (hosts c method host)
    · exact obeys_fail _

theorem obeys_dispatchVirtual (start : ClassRef) (key : MemberKey) (args : List Value) :
    Exec.Obeys law.holds (m.dispatchVirtual start key args) fun _ => True := by
  have selects : Exec.Obeys law.holds (resolve fun e => e.selectVirtual m.scope start key)
      fun selection => ∀ c method, selection = some (.host c method) → law.runs method :=
    obeys_resolve fun e he selection selects c method same =>
      Law.runs_selectVirtual he (same ▸ selects)
  refine obeys_bind selects fun selection runs => ?_
  split
  · exact obeys_map (obeys_callLive hm _ key args)
  · exact obeys_map (hm _ _ args (runs _ _ rfl))
  · exact obeys_bind obeys_get fun _ _ => obeys_fail _
  · exact obeys_pure True.intro

theorem obeys_callVirtual (receiver : ClassRef) (key : MemberKey) (args : List Value) :
    Exec.Obeys law.holds (m.callVirtual receiver key args) fun _ => True := by
  refine obeys_bind (obeys_dispatchVirtual hm receiver key args) fun answer _ => ?_
  cases answer with
  | none => exact obeys_bind obeys_get fun _ _ => obeys_fail _
  | some value => exact obeys_pure True.intro

theorem obeys_callInherited (t : TypeRef) (key : MemberKey) (args : List Value) :
    Exec.Obeys law.holds (m.callInherited t key args) fun _ => True := by
  refine obeys_ask_bind fun type _ => ?_
  split
  · have resolves (parent : ClassRef) :
        Exec.Obeys law.holds (resolve fun e => e.resolveMethod m.scope parent key)
          fun found => ∀ live, found = some live → live.Hosts law.runs :=
      obeys_resolve fun e he found resolved live same => Law.hosts_resolved he (same ▸ resolved)
    refine obeys_bind obeys_checked fun parent _ => obeys_bind (resolves parent)
      fun found hosts => ?_
    cases found with
    | none => exact obeys_fail _
    | some live => exact obeys_callResolved hm (hosts live rfl) key args
  · exact obeys_fail _

theorem obeys_callPrivileged (t : TypeRef) (method : MethodRef) (args : List Value) :
    Exec.Obeys law.holds (m.callPrivileged t method args) fun _ => True := by
  refine obeys_bind (obeys_require fun _ _ _ _ => True.intro) fun shape _ => ?_
  split
  · exact obeys_callLive hm t _ args
  · exact obeys_bind (obeys_discard obeys_examined) fun _ _ => obeys_callLive hm t _ args

theorem obeys_callSelected (receiver : ClassRef) (key : MemberKey) (args : List Value) :
    Exec.Obeys law.holds (m.callSelected receiver key args) fun _ => True := by
  refine obeys_ask_bind fun e he => ?_
  split
  next selected entry =>
    split
    · exact obeys_callVirtual hm receiver key args
    · exact obeys_bind obeys_checked fun c _ => hm c _ args (law.selected he entry)
  · exact obeys_callVirtual hm receiver key args

theorem obeys_callNative (caller : ClassRef) (kind : InvokeKind) (method : MethodRef)
    (args : List Value) :
    Exec.Obeys law.holds (m.callNative caller kind method args) fun _ => True := by
  have finds (owner : ClassRef) :
      Exec.Obeys law.holds (require (fun e => e.hostMethod? owner method.key)
        (RunError.methodMissing method)) fun found => law.runs found.2 :=
    obeys_require fun e he found answer => Law.runs_hostMethod he answer
  refine obeys_bind obeys_checked fun owner _ => obeys_bind (finds owner) fun found runs =>
    obeys_bind obeys_examined fun _ _ => obeys_bind obeys_checked fun _ _ => ?_
  have selecting : Exec.Obeys law.holds (do
      let receiver ← nativeReceiver method args
      checkReceiverClass receiver method.owner
      if found.2.modifiers.isPrivate then m.call found.1 found.2 args
      else m.callSelected receiver method.key args) fun _ => True := by
    refine obeys_bind (obeys_nativeReceiver method args) fun receiver _ =>
      obeys_bind (obeys_checkReceiverClass receiver _) fun _ _ => ?_
    split
    · exact hm _ _ args runs
    · exact obeys_callSelected hm receiver _ args
  cases kind with
  | static => exact hm _ _ args runs
  | special =>
    refine obeys_bind obeys_checked fun _ _ => ?_
    split
    · exact obeys_bind (obeys_fail _) fun _ (_ : True) => hm _ _ args runs
    · exact hm _ _ args runs
  | virtual => exact selecting
  | interface => exact selecting

theorem obeys_callDynamic (caller : ClassRef) (kind : InvokeKind) (method : MethodRef)
    {live : LiveMethod} (hosts : live.Hosts law.runs) (args : List Value) :
    Exec.Obeys law.holds (m.callDynamic caller kind method live args) fun _ => True := by
  have selecting : Exec.Obeys law.holds (do
      let o ← ofResult (receiverOf args method.text)
      let receiver ← ask fun e => (e.objectAt o).cls
      checkReceiverClass receiver method.owner
      if live.modifiers.isPrivate then m.callResolved live method.key args
      else m.callVirtual receiver method.key args) fun _ => True := by
    refine obeys_bind obeys_examined fun o _ => obeys_ask_bind fun e _ =>
      obeys_bind (obeys_checkReceiverClass _ _) fun _ _ => ?_
    split
    · exact obeys_callResolved hm hosts _ args
    · exact obeys_callVirtual hm _ _ args
  cases kind with
  | static => exact obeys_callResolved hm hosts _ args
  | special =>
    exact obeys_bind obeys_checked fun _ _ =>
      obeys_bind (obeys_discard obeys_examined) fun _ _ => obeys_callResolved hm hosts _ args
  | virtual => exact selecting
  | interface => exact selecting

end Calls

end Machine

end LiveUpdate
