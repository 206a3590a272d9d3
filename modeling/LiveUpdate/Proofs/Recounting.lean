import LiveUpdate.Proofs.Accounts

/-!
# Every run has an account

What a function of the machine does besides calling and initializing leaves the outline of the
engine alone, so that its accounts can be put together from those of its parts.  By induction on
the fuel every call has an account.
-/

set_option autoImplicit false

namespace LiveUpdate

open Exec

namespace Engine

variable (e : Engine)

/-- A change of one class that leaves its progress alone leaves all progress alone. -/
theorem progress_updateClass (c : ClassRef) {f : Class → Class} (same : ∀ cls, (f cls).init = cls.init) :
    (e.updateClass c f).progress = e.progress := by
  funext d
  have at_ := getD_map (e.updateClass c f).classes Class.init d default
  have before := getD_map e.classes Class.init d default
  rw [updateClass, map_modify_of_eq _ _ _ _ same] at at_
  exact at_.symm.trans before

theorem outline_updateClass (c : ClassRef) {f : Class → Class}
    (skeleton : ∀ cls, (f cls).skeleton = cls.skeleton) (init : ∀ cls, (f cls).init = cls.init) :
    (e.updateClass c f).outline = e.outline :=
  Prod.ext (e.skeleton_updateClass c f skeleton) (e.progress_updateClass c init)

theorem outline_updateType (t : TypeRef) {f : ManagedType → ManagedType}
    (skeleton : ∀ type, (f type).skeleton = type.skeleton) :
    (e.updateType t f).outline = e.outline :=
  Prod.ext (e.skeleton_updateType t f skeleton) rfl

theorem outline_updateScope (s : ScopeRef) {f : Scope → Scope}
    (skeleton : ∀ scope, (f scope).skeleton = scope.skeleton) :
    (e.updateScope s f).outline = e.outline :=
  Prod.ext (e.skeleton_updateScope s f skeleton) rfl

end Engine

/-- In every engine a routine has an account. -/
def Recounts (s : ScopeRef) (call : Calling) (told : Accounts) {α : Type} (x : Routine α) : Prop :=
  ∀ e, ∃ account, Passes s call told x e account

section Recounts

variable {s : ScopeRef} {call : Calling} {told : Accounts} {α β : Type}

/-- What calls nothing has an account with nothing in it. -/
theorem recounts_keeps {x : Run α} (keeps : Keeps Engine.outline x) :
    Recounts s call told fun _ => x :=
  fun e => ⟨[], .quiet (fun _ => rfl) (keeps e)⟩

theorem recounts_bind {x : Routine α} {f : α → Routine β} (hx : Recounts s call told x)
    (hf : ∀ a, Recounts s call told (f a)) :
    Recounts s call told fun call => x call >>= fun a => f a call := by
  intro e
  obtain ⟨account, first⟩ := hx e
  cases run : x call e with
  | ok a e' =>
    obtain ⟨rest, next⟩ := hf a e'
    exact ⟨_, .goesOn run first next⟩
  | error stop e' => exact ⟨_, .stops run first⟩

theorem recounts_map (g : α → β) {x : Routine α} (hx : Recounts s call told x) :
    Recounts s call told fun call => g <$> x call := by
  have bound (call : Calling) : (g <$> x call) = x call >>= fun a => pure (g a) := by
    funext e
    rw [map_apply, bind_apply]
    cases x call e <;> rfl
  simp only [bound]
  exact recounts_bind hx fun a => recounts_keeps (keeps_pure (g a))

/-- A question of which the answer does not depend on calls decides between two routines. -/
theorem recounts_ite {x y : Routine α} (p : Prop) [Decidable p] (hx : Recounts s call told x)
    (hy : Recounts s call told y) : Recounts s call told fun call => if p then x call else y call := by
  by_cases h : p
  · simp only [if_pos h]
    exact hx
  · simp only [if_neg h]
    exact hy

theorem recounts_forwarding {x : Routine Value} (hx : Recounts s call told x) :
    Recounts s call told fun call => Machine.forwarding (x call) :=
  fun e => (hx { e with depth := e.depth - 1 }).imp fun _ inner => .forwards inner

theorem recounts_fail (error : RunError) : Recounts s call told fun _ => (fail error : Run α) :=
  recounts_keeps (keeps_fail error)

theorem recounts_pure (a : α) : Recounts s call told fun _ => (pure a : Run α) :=
  recounts_keeps (keeps_pure a)

theorem recounts_ofResult (x : Except RunError α) :
    Recounts s call told fun _ => (ofResult x : Run α) :=
  recounts_keeps (keeps_ofResult x)

theorem recounts_require (g : Engine → Option α) (error : RunError) :
    Recounts s call told fun _ => (require g error : Run α) := by
  refine recounts_keeps fun e => ?_
  rw [final, require_apply]
  cases g e <;> rfl

/-- What does the same however methods are called calls none. -/
theorem recounts_quiet {x : Routine α} (deaf : ∀ other, x other = x call)
    (keeps : Keeps Engine.outline (x call)) : Recounts s call told x :=
  fun e => ⟨[], .quiet (fun other => congrFun (deaf other) e) (keeps e)⟩

theorem recounts_ask {g : Calling → Engine → α} (deaf : ∀ other, g other = g call) :
    Recounts s call told fun call => (ask (g call) : Run α) :=
  recounts_quiet (fun other => congrArg ask (deaf other)) (keeps_ask _)

theorem recounts_check {g : Calling → Engine → Except RunError α}
    (deaf : ∀ other, g other = g call) : Recounts s call told fun call => (check (g call) : Run α) :=
  recounts_quiet (fun other => congrArg check (deaf other)) (keeps_check _)

theorem recounts_resolve {g : Calling → Engine → Except (Stop RunError) α}
    (deaf : ∀ other, g other = g call) :
    Recounts s call told fun call => (resolve (g call) : Run α) :=
  recounts_quiet (fun other => congrArg resolve (deaf other)) (keeps_resolve _)

end Recounts

namespace Machine

/-- All calls that a machine makes have accounts. -/
def Recounted (told : Accounts) : Prop := ∀ c method args e, ∃ account, told c method args e account

variable {s : ScopeRef} {call : Calling} {told : Accounts}

section Initialization

variable (total : Recounted told)
include total

theorem exists_initializes (m : Machine) (classes : List ClassRef) (e : Engine) :
    ∃ account, Initializes m told classes e account := by
  induction classes generalizing e with
  | nil => exact ⟨[], .top e⟩
  | cons c above ih =>
    by_cases done : e.progress c = .done
    · exact ⟨[], .finished done⟩
    · obtain ⟨account, before⟩ := ih e
      cases run : m.initializeAll above e with
      | error stop e' => exact ⟨account, .fails done run before⟩
      | ok u e' =>
        by_cases pending : e'.progress c ≠ .pending
        · exact ⟨account, .begun done run before pending⟩
        rcases Nat.lt_or_ge c e'.classes.size with exists_ | missing
        · have init : ∃ inside, told.ofStaticInit c (e'.beginInit c).2 inside := by
            unfold Accounts.ofStaticInit
            cases ((e'.beginInit c).2.classAt c).method? .staticInit with
            | none => exact ⟨[], rfl⟩
            | some init => exact total c init [] _
          obtain ⟨inside, init⟩ := init
          exact ⟨_, .runs done run before (Decidable.not_not.1 pending) exists_ init⟩
        · exact ⟨account, .missing done run before missing⟩

theorem recounts_ensureInitialized (c : ClassRef) :
    Recounts s call told fun call => ensureInitialized ⟨s, call⟩ c :=
  fun e => (exists_initializes total _ _ e).imp fun _ init => .initializes init

theorem recounts_instantiate (typeName : String) :
    Recounts s call told fun call => instantiate ⟨s, call⟩ typeName := by
  have allocate (c : ClassRef) : Recounts s call told fun call => (do
      ensureInitialized ⟨s, call⟩ c
      modifyGet fun e => e.newObject c : Run ObjectRef) :=
    recounts_bind (recounts_ensureInitialized total c) fun _ =>
      recounts_keeps (keeps_modifyGet fun _ => rfl)
  refine recounts_bind (recounts_check fun _ => rfl) fun c =>
    recounts_bind (recounts_ask fun _ => rfl) fun isAbstract => ?_
  cases isAbstract with
  | true => exact recounts_bind (recounts_fail _) fun _ => allocate c
  | false => exact allocate c

end Initialization

section Fields

theorem outlines_writeStatic (c : ClassRef) (index : Nat) (value : Value) :
    Keeps Engine.outline (writeStatic c index value) :=
  keeps_bind (keeps_check _) fun _ =>
    keeps_modify fun e => e.outline_updateClass c (fun _ => rfl) fun _ => rfl

theorem outlines_writeSlot (o : ObjectRef) (declaring name : String) (value : Value)
    (missing : RunError) : Keeps Engine.outline (writeSlot o declaring name value missing) :=
  keeps_bind (keeps_check _) fun _ => keeps_bind (keeps_check _) fun _ => keeps_modify fun _ => rfl

theorem recounts_liveField (owner : ClassRef) (access : FieldAccess) (f : FieldRef) :
    Recounts s call told fun call => liveField ⟨s, call⟩ owner access f := by
  refine recounts_bind (recounts_resolve fun _ => rfl) fun live => ?_
  cases live with
  | none => exact recounts_fail _
  | some live => exact recounts_bind (recounts_ofResult _) fun _ => recounts_pure _

theorem recounts_hostField (caller : ClassRef) (access : FieldAccess) (f : FieldRef) :
    Recounts s call told fun call => hostField ⟨s, call⟩ caller access f :=
  recounts_bind (recounts_check fun _ => rfl) fun _ => recounts_bind (recounts_require _ _) fun _ =>
    recounts_bind (recounts_ofResult _) fun _ => recounts_bind (recounts_check fun _ => rfl) fun _ =>
      recounts_pure _

theorem recounts_routeField (caller : ClassRef) (access : FieldAccess) (f : FieldRef) :
    Recounts s call told fun call => routeField ⟨s, call⟩ caller access f := by
  refine recounts_bind (recounts_ask fun _ => rfl) fun scope => recounts_ite _ (recounts_pure _) ?_
  cases scope.classes.get? f.owner with
  | none => exact recounts_pure _
  | some owner =>
    exact recounts_bind (recounts_liveField owner access f) fun _ =>
      recounts_bind (recounts_check fun _ => rfl) fun _ => recounts_bind (recounts_ask fun _ => rfl) fun _ =>
        recounts_pure _

variable (total : Recounted told)
include total

theorem recounts_readStored (f : LiveField) (t : TypeRef) (receiver : Option ObjectRef) :
    Recounts s call told fun call => readStored ⟨s, call⟩ f t receiver := by
  refine recounts_bind (recounts_ask fun _ => rfl) fun policy => ?_
  cases receiver with
  | none =>
    exact recounts_bind (recounts_ensureInitialized total f.cls) fun _ =>
      recounts_bind (recounts_ask fun _ => rfl) fun _ =>
        recounts_bind (recounts_keeps (keeps_modify fun e => e.outline_updateType t fun _ => rfl))
          fun _ => recounts_ofResult _
  | some o =>
    exact recounts_bind (recounts_ask fun _ => rfl) fun _ =>
      recounts_bind (recounts_keeps (keeps_modify fun _ => rfl)) fun _ => recounts_ofResult _

theorem recounts_readField (f : LiveField) (receiver : Option ObjectRef) :
    Recounts s call told fun call => readField ⟨s, call⟩ f receiver := by
  unfold readField
  cases f.storedBy? with
  | some t => exact recounts_readStored total f t receiver
  | none =>
    cases receiver with
    | none =>
      exact recounts_bind (recounts_ensureInitialized total f.cls) fun _ =>
        recounts_bind (recounts_check fun _ => rfl) fun _ => recounts_check fun _ => rfl
    | some o => exact recounts_check fun _ => rfl

theorem recounts_writeField (f : LiveField) (receiver : Option ObjectRef) (value : Value) :
    Recounts s call told fun call => writeField ⟨s, call⟩ f receiver value := by
  refine recounts_bind (recounts_check fun _ => rfl) fun _ => ?_
  cases f.storedBy? with
  | some t =>
    cases receiver with
    | none =>
      exact recounts_bind (recounts_ensureInitialized total f.cls) fun _ =>
        recounts_keeps (keeps_modify fun e => e.outline_updateType t fun _ => rfl)
    | some o => exact recounts_keeps (keeps_modify fun _ => rfl)
  | none =>
    cases receiver with
    | none =>
      exact recounts_bind (recounts_ensureInitialized total f.cls) fun _ =>
        recounts_bind (recounts_check fun _ => rfl) fun _ => recounts_keeps (outlines_writeStatic _ _ _)
    | some o => exact recounts_keeps (outlines_writeSlot _ _ _ _ _)

end Fields

section Calls

theorem recounts_checkReceiverClass (receiver : ClassRef) (owner : String) :
    Recounts s call told fun _ => checkReceiverClass receiver owner :=
  recounts_bind (recounts_ask fun _ => rfl) fun _ =>
    recounts_ite _ (recounts_pure _) (recounts_fail _)

theorem recounts_nativeReceiver (method : MethodRef) (args : List Value) :
    Recounts s call told fun _ => nativeReceiver method args := by
  unfold nativeReceiver
  split
  · exact recounts_ask fun _ => rfl
  · exact recounts_fail _
  · exact recounts_fail _
  · exact recounts_bind (recounts_keeps fun _ => rfl) fun _ => recounts_fail _

theorem recounts_routeInvoke (caller : ClassRef) (id : TypeId) (kind : InvokeKind)
    (method : MethodRef) :
    Recounts s call told fun call => routeInvoke ⟨s, call⟩ caller id kind method :=
  recounts_quiet (fun _ => rfl) (keeps_routeInvoke (fun e s _ _ =>
    e.outline_updateScope s fun _ => rfl) caller id kind method)

variable (total : Recounted told)
include total

theorem recounts_call (c : ClassRef) (method : Method) (args : List Value) :
    Recounts s call told fun call => call c method args :=
  fun e => (total c method args e).imp fun _ tells => .calls tells

theorem recounts_callHosted (native : ClassRef) (key : MemberKey) (missing : RunError)
    (args : List Value) :
    Recounts s call told fun call => callHosted ⟨s, call⟩ native key missing args := by
  refine recounts_bind (recounts_ask fun _ => rfl) fun method => ?_
  cases method with
  | none => exact recounts_fail _
  | some method => exact recounts_call total native method args

theorem recounts_callLive (t : TypeRef) (key : MemberKey) (args : List Value) :
    Recounts s call told fun call => callLive ⟨s, call⟩ t key args := by
  refine recounts_bind (recounts_ask fun _ => rfl) fun type => ?_
  cases type.native with
  | none => exact recounts_fail _
  | some native =>
    have hosted : Recounts s call told fun call =>
        callHosted ⟨s, call⟩ native key (.memberMissing type.name key) args :=
      recounts_callHosted total native key _ args
    dsimp only
    cases type.live.dispatch.lookup key with
    | none => exact hosted
    | some entry =>
      cases entry with
      | host => exact hosted
      | abstract => exact recounts_fail _
      | deleted => exact recounts_fail _
      | executor method =>
        cases type.live.executor? with
        | none => exact recounts_fail _
        | some executor =>
          exact recounts_ite _ (recounts_bind (recounts_ensureInitialized total native) fun _ =>
            recounts_call total executor method args) (recounts_call total executor method args)

theorem recounts_callResolved (live : LiveMethod) (key : MemberKey) (args : List Value) :
    Recounts s call told fun call => callResolved ⟨s, call⟩ live key args := by
  refine recounts_ite _ (recounts_fail _) ?_
  cases live.managed with
  | some t => exact recounts_callLive total t key args
  | none =>
    cases live.host with
    | none => exact recounts_fail _
    | some found => exact recounts_call total found.1 found.2 args

theorem recounts_dispatchVirtual (start : ClassRef) (key : MemberKey) (args : List Value) :
    Recounts s call told fun call => dispatchVirtual ⟨s, call⟩ start key args := by
  refine recounts_bind (recounts_resolve fun _ => rfl) fun selection => ?_
  cases selection with
  | none => exact recounts_pure _
  | some selection =>
    cases selection with
    | live t => exact recounts_map _ (recounts_callLive total t key args)
    | host c method => exact recounts_map _ (recounts_call total c method args)
    | abstract c => exact recounts_bind (recounts_keeps fun _ => rfl) fun _ => recounts_fail _

theorem recounts_callVirtual (receiver : ClassRef) (key : MemberKey) (args : List Value) :
    Recounts s call told fun call => callVirtual ⟨s, call⟩ receiver key args := by
  refine recounts_bind (recounts_dispatchVirtual total receiver key args) fun answer => ?_
  cases answer with
  | none => exact recounts_bind (recounts_keeps fun _ => rfl) fun _ => recounts_fail _
  | some value => exact recounts_pure _

theorem recounts_callInherited (t : TypeRef) (key : MemberKey) (args : List Value) :
    Recounts s call told fun call => callInherited ⟨s, call⟩ t key args := by
  refine recounts_bind (recounts_ask fun _ => rfl) fun type => ?_
  cases type.live.shape.superName with
  | none => exact recounts_fail _
  | some superName =>
    refine recounts_bind (recounts_check fun _ => rfl) fun parent =>
      recounts_bind (recounts_resolve fun _ => rfl) fun live => ?_
    cases live with
    | none => exact recounts_fail _
    | some live => exact recounts_callResolved total live key args

theorem recounts_callPrivileged (t : TypeRef) (method : MethodRef) (args : List Value) :
    Recounts s call told fun call => callPrivileged ⟨s, call⟩ t method args := by
  refine recounts_bind (recounts_require _ _) fun shape => ?_
  cases shape.isStatic with
  | true => exact recounts_callLive total t method.key args
  | false =>
    exact recounts_bind (recounts_map _ (recounts_ofResult _)) fun _ =>
      recounts_callLive total t method.key args

theorem recounts_callSelected (receiver : ClassRef) (key : MemberKey) (args : List Value) :
    Recounts s call told fun call => callSelected ⟨s, call⟩ receiver key args := by
  refine recounts_bind (recounts_ask fun _ => rfl) fun selected => ?_
  cases selected with
  | none => exact recounts_callVirtual total receiver key args
  | some selected =>
    exact recounts_ite _ (recounts_callVirtual total receiver key args)
      (recounts_bind (recounts_check fun _ => rfl) fun c => recounts_call total c selected args)

theorem recounts_callNative (caller : ClassRef) (kind : InvokeKind) (method : MethodRef)
    (args : List Value) :
    Recounts s call told fun call => callNative ⟨s, call⟩ caller kind method args := by
  refine recounts_bind (recounts_check fun _ => rfl) fun owner =>
    recounts_bind (recounts_require _ _) fun found => recounts_bind (recounts_ofResult _) fun _ =>
      recounts_bind (recounts_check fun _ => rfl) fun _ => ?_
  have itself : Recounts s call told fun call => call found.1 found.2 args :=
    recounts_call total found.1 found.2 args
  have selecting : Recounts s call told fun call => (do
      let receiver ← nativeReceiver method args
      checkReceiverClass receiver method.owner
      if found.2.modifiers.isPrivate then call found.1 found.2 args
      else callSelected ⟨s, call⟩ receiver method.key args) :=
    recounts_bind (recounts_nativeReceiver method args) fun receiver =>
      recounts_bind (recounts_checkReceiverClass receiver _) fun _ =>
        recounts_ite _ itself (recounts_callSelected total receiver _ args)
  cases kind with
  | static => exact itself
  | special =>
    exact recounts_bind (recounts_check fun _ => rfl) fun _ =>
      recounts_ite _ (recounts_bind (recounts_fail _) fun _ => itself) itself
  | virtual => exact selecting
  | interface => exact selecting

theorem recounts_callDynamic (caller : ClassRef) (kind : InvokeKind) (method : MethodRef)
    (live : LiveMethod) (args : List Value) :
    Recounts s call told fun call => callDynamic ⟨s, call⟩ caller kind method live args := by
  have itself : Recounts s call told fun call => callResolved ⟨s, call⟩ live method.key args :=
    recounts_callResolved total live method.key args
  have selecting : Recounts s call told fun call => (do
      let o ← ofResult (receiverOf args method.text)
      let receiver ← ask fun e => (e.objectAt o).cls
      checkReceiverClass receiver method.owner
      if live.modifiers.isPrivate then callResolved ⟨s, call⟩ live method.key args
      else callVirtual ⟨s, call⟩ receiver method.key args) :=
    recounts_bind (recounts_ofResult _) fun o => recounts_bind (recounts_ask fun _ => rfl) fun receiver =>
      recounts_bind (recounts_checkReceiverClass receiver _) fun _ =>
        recounts_ite _ itself (recounts_callVirtual total receiver _ args)
  cases kind with
  | static => exact itself
  | special =>
    exact recounts_bind (recounts_check fun _ => rfl) fun _ =>
      recounts_bind (recounts_map _ (recounts_ofResult _)) fun _ => itself
  | virtual => exact selecting
  | interface => exact selecting

end Calls

end Machine

namespace Step

/-- In every frame and in every engine a routine has an account. -/
def Recounts (s : ScopeRef) (call : Calling) (told : Accounts) {α : Type} (x : Calling → Step α) :
    Prop := ∀ f, LiveUpdate.Recounts s call told fun call => x call f

variable {s : ScopeRef} {call : Calling} {told : Accounts} {α β : Type}

theorem recounts_lift {x : Routine α} (hx : LiveUpdate.Recounts s call told x) :
    Recounts s call told fun call => liftM (x call) :=
  fun _ => recounts_bind hx fun _ => recounts_pure _

theorem recounts_bind {x : Calling → Step α} {g : α → Calling → Step β}
    (hx : Recounts s call told x) (hg : ∀ a, Recounts s call told (g a)) :
    Recounts s call told fun call => x call >>= fun a => g a call :=
  fun f => LiveUpdate.recounts_bind (hx f) fun next => hg next.1 next.2

theorem recounts_get_bind {g : Frame → Calling → Step β} (hg : ∀ f, Recounts s call told (g f)) :
    Recounts s call told fun call => get >>= fun f => g f call :=
  fun f => hg f f

theorem recounts_ite {x y : Calling → Step α} (p : Prop) [Decidable p]
    (hx : Recounts s call told x) (hy : Recounts s call told y) :
    Recounts s call told fun call => if p then x call else y call := by
  by_cases h : p
  · simp only [if_pos h]
    exact hx
  · simp only [if_neg h]
    exact hy

theorem recounts_pure (a : α) : Recounts s call told fun _ => (pure a : Step α) :=
  fun _ => LiveUpdate.recounts_pure _

theorem recounts_fail (error : RunError) : Recounts s call told fun _ => (fail error : Step α) :=
  recounts_lift (LiveUpdate.recounts_fail error)

theorem recounts_ask {g : Calling → Engine → α} (deaf : ∀ other, g other = g call) :
    Recounts s call told fun call => ask (g call) :=
  recounts_lift (LiveUpdate.recounts_ask deaf)

theorem recounts_check {g : Calling → Engine → Except RunError α}
    (deaf : ∀ other, g other = g call) : Recounts s call told fun call => check (g call) :=
  recounts_lift (LiveUpdate.recounts_check deaf)

theorem recounts_onFrame (g : Frame → Except RunError (α × Frame)) :
    Recounts s call told fun _ => onFrame g := by
  refine fun f => recounts_keeps fun e => ?_
  rw [final, onFrame_apply]
  cases g f <;> rfl

theorem recounts_push (value : Value) : Recounts s call told fun _ => push value :=
  fun _ => recounts_keeps fun _ => rfl

theorem recounts_pop : Recounts s call told fun _ => pop := recounts_onFrame _

theorem recounts_popMany (count : Nat) : Recounts s call told fun _ => popMany count :=
  recounts_onFrame _

theorem recounts_popInt : Recounts s call told fun _ => popInt :=
  recounts_bind recounts_pop fun _ => recounts_check fun _ => rfl

theorem recounts_popBool : Recounts s call told fun _ => popBool :=
  recounts_bind recounts_pop fun _ => recounts_check fun _ => rfl

theorem recounts_popArray (use : NullUse) : Recounts s call told fun _ => popArray use := by
  refine recounts_bind recounts_pop fun value => ?_
  cases value.array? with
  | none => exact recounts_fail _
  | some a => exact recounts_pure _

theorem recounts_pushResult (sig : MethodSig) (value : Value) :
    Recounts s call told fun _ => pushResult sig value :=
  recounts_ite _ (recounts_push _) (recounts_pure _)

theorem recounts_guarded : Recounts s call told fun _ => guarded := by
  refine recounts_get_bind fun f => ?_
  cases f.method.code[f.pc + 1]? with
  | none => exact recounts_fail _
  | some instr => exact recounts_pure _

end Step

namespace Machine

open Step (recounts_get_bind recounts_lift recounts_onFrame recounts_push recounts_pop
  recounts_popMany recounts_popInt recounts_popBool recounts_popArray recounts_pushResult
  recounts_guarded)

variable {s : ScopeRef} {call : Calling} {told : Accounts}

theorem recounts_arrayStore : Step.Recounts s call told fun _ => arrayStore :=
  Step.recounts_bind recounts_pop fun _ => Step.recounts_bind recounts_popInt fun _ =>
    Step.recounts_bind (recounts_popArray _) fun _ =>
      Step.recounts_bind (Step.recounts_check fun _ => rfl) fun _ =>
        Step.recounts_bind (Step.recounts_check fun _ => rfl) fun _ =>
          recounts_lift (recounts_keeps (keeps_modify fun _ => rfl))

theorem recounts_newArray (element : TypeSig) :
    Step.Recounts s call told fun _ => newArray element := by
  refine Step.recounts_bind recounts_popInt fun length => ?_
  have allocate : Step.Recounts s call told fun _ => (do
      let a ← modifyGetThe Engine fun e =>
        e.newArray ⟨element, Array.replicate length.toInt.toNat (.zeroOf element)⟩
      Step.push (.array a) : Step Unit) :=
    Step.recounts_bind (recounts_lift (recounts_keeps (keeps_modifyGet fun _ => rfl))) fun _ =>
      recounts_push _
  exact Step.recounts_ite _ (Step.recounts_bind (Step.recounts_fail _) fun _ => allocate) allocate

variable (total : Recounted told)
include total

theorem recounts_accessHost (access : FieldAccess) (f : FieldRef) :
    Step.Recounts s call told fun call => accessHost ⟨s, call⟩ access f := by
  refine recounts_get_bind fun frame =>
    Step.recounts_bind (recounts_lift (recounts_hostField _ access f)) fun host => ?_
  have ready : Recounts s call told fun call => ensureInitialized ⟨s, call⟩ host.cls :=
    recounts_ensureInitialized total host.cls
  cases access with
  | get =>
    exact Step.recounts_bind recounts_pop fun _ =>
      Step.recounts_bind (Step.recounts_check fun _ => rfl) fun _ =>
        Step.recounts_bind (Step.recounts_check fun _ => rfl) fun _ => recounts_push _
  | put =>
    exact Step.recounts_bind recounts_pop fun _ => Step.recounts_bind recounts_pop fun _ =>
      Step.recounts_bind (Step.recounts_check fun _ => rfl) fun _ =>
        Step.recounts_bind (Step.recounts_check fun _ => rfl) fun _ =>
          recounts_lift (recounts_keeps (outlines_writeSlot _ _ _ _ _))
  | getStatic =>
    exact Step.recounts_bind (recounts_lift ready) fun _ =>
      Step.recounts_bind (Step.recounts_check fun _ => rfl) fun _ => recounts_push _
  | putStatic =>
    exact Step.recounts_bind recounts_pop fun _ =>
      Step.recounts_bind (Step.recounts_check fun _ => rfl) fun _ =>
        Step.recounts_bind (recounts_lift ready) fun _ =>
          recounts_lift (recounts_keeps (outlines_writeStatic _ _ _))

theorem recounts_accessLive (access : FieldAccess) (f : FieldRef) (live : LiveField) :
    Step.Recounts s call told fun call => accessLive ⟨s, call⟩ access f live := by
  cases access with
  | get =>
    exact Step.recounts_bind recounts_pop fun _ =>
      Step.recounts_bind (Step.recounts_check fun _ => rfl) fun _ =>
        Step.recounts_bind (recounts_lift (recounts_readField total live _)) fun _ =>
          recounts_push _
  | put =>
    exact Step.recounts_bind recounts_pop fun _ => Step.recounts_bind recounts_pop fun _ =>
      Step.recounts_bind (Step.recounts_check fun _ => rfl) fun _ =>
        recounts_lift (recounts_writeField total live _ _)
  | getStatic =>
    exact Step.recounts_bind (recounts_lift (recounts_readField total live none)) fun _ =>
      recounts_push _
  | putStatic =>
    exact Step.recounts_bind recounts_pop fun _ =>
      recounts_lift (recounts_writeField total live none _)

theorem recounts_accessPrivileged (access : FieldAccess) (id : TypeId) (f : FieldRef) :
    Step.Recounts s call told fun call => accessPrivileged ⟨s, call⟩ access id f := by
  refine Step.recounts_bind (Step.recounts_check fun _ => rfl) fun type => ?_
  cases type.native with
  | none => exact Step.recounts_fail _
  | some owner =>
    exact Step.recounts_bind (recounts_lift (recounts_liveField owner access f)) fun live =>
      recounts_accessLive total access f live

theorem recounts_checkInvoke (id : TypeId) :
    Step.Recounts s call told fun call => checkInvoke ⟨s, call⟩ id := by
  refine Step.recounts_bind recounts_guarded fun instr => ?_
  cases instr with
  | invoke kind method =>
    refine recounts_get_bind fun frame =>
      Step.recounts_bind (recounts_lift (recounts_routeInvoke frame.cls id kind method))
        fun route => ?_
    cases route with
    | native => exact Step.recounts_pure _
    | dynamic live =>
      exact Step.recounts_bind (recounts_popMany _) fun args =>
        Step.recounts_bind (recounts_lift
          (recounts_callDynamic total frame.cls kind method live args)) fun _ =>
          Step.recounts_bind (recounts_pushResult _ _) fun _ => Step.recounts_pure _
  | _ => exact Step.recounts_fail _

theorem recounts_checkField : Step.Recounts s call told fun call => checkField ⟨s, call⟩ := by
  refine Step.recounts_bind recounts_guarded fun instr => ?_
  cases instr with
  | access access f =>
    refine recounts_get_bind fun frame =>
      Step.recounts_bind (recounts_lift (recounts_routeField frame.cls access f)) fun route => ?_
    cases route with
    | native => exact Step.recounts_pure _
    | managed live =>
      exact Step.recounts_bind (recounts_accessLive total access f live) fun _ =>
        Step.recounts_pure _
  | _ => exact Step.recounts_fail _

theorem recounts_checkEntry (id : TypeId) (slot : Nat) :
    Step.Recounts s call told fun call => checkEntry ⟨s, call⟩ id slot := by
  refine recounts_get_bind fun f => Step.recounts_bind (Step.recounts_ask fun _ => rfl) fun t => ?_
  cases t with
  | none => exact Step.recounts_pure _
  | some t =>
    refine Step.recounts_bind (Step.recounts_ask fun _ => rfl) fun type => ?_
    cases type.published with
    | none => exact Step.recounts_pure _
    | some version =>
      dsimp only
      cases version.dispatch.entry? slot with
      | none => exact Step.recounts_pure _
      | some entry =>
        cases entry with
        | host => exact Step.recounts_pure _
        | abstract => exact Step.recounts_fail _
        | executor method =>
          cases version.executor? with
          | none => exact Step.recounts_fail _
          | some executor =>
            have entered : Step.Recounts s call told fun call => (do
                return .ret (← forwarding (call executor method f.arguments)) : Step Flow) :=
              Step.recounts_bind (recounts_lift
                (recounts_forwarding (recounts_call total executor method f.arguments))) fun _ =>
                Step.recounts_pure _
            exact Step.recounts_ite _ (Step.recounts_bind (Step.recounts_fail _) fun _ => entered)
              entered
        | deleted =>
          have entered : Step.Recounts s call told fun call => (do
              return .ret (← forwarding
                (callInherited ⟨s, call⟩ t f.method.key f.arguments)) : Step Flow) :=
            Step.recounts_bind (recounts_lift
              (recounts_forwarding (recounts_callInherited total t f.method.key f.arguments)))
              fun _ => Step.recounts_pure _
          exact Step.recounts_ite _ (Step.recounts_bind (Step.recounts_fail _) fun _ => entered)
            entered

theorem recounts_callSpecialLive (id : TypeId) (method : MethodRef) :
    Step.Recounts s call told fun call => callSpecialLive ⟨s, call⟩ id method := by
  refine Step.recounts_bind (Step.recounts_check fun _ => rfl) fun t =>
    Step.recounts_bind (Step.recounts_ask fun _ => rfl) fun shape => ?_
  cases shape with
  | none => exact Step.recounts_fail _
  | some shape =>
    exact Step.recounts_bind (recounts_popMany _) fun args =>
      Step.recounts_bind (recounts_lift (recounts_callPrivileged total t method args)) fun _ =>
        recounts_pushResult _ _

theorem recounts_callSuperLive (id : TypeId) (method : MethodRef) :
    Step.Recounts s call told fun call => callSuperLive ⟨s, call⟩ id method :=
  Step.recounts_bind (Step.recounts_check fun _ => rfl) fun t =>
    Step.recounts_bind (recounts_popMany _) fun args =>
      Step.recounts_bind (recounts_lift (recounts_callInherited total t method.key args)) fun _ =>
        recounts_pushResult _ _

theorem recounts_invokeHost (kind : InvokeKind) (method : MethodRef) :
    Step.Recounts s call told fun call => invokeHost ⟨s, call⟩ kind method :=
  Step.recounts_bind (recounts_popMany _) fun args => recounts_get_bind fun f =>
    Step.recounts_bind (recounts_lift (recounts_callNative total f.cls kind method args)) fun _ =>
      recounts_pushResult _ _

theorem recounts_executePlain (instr : Instr) :
    Step.Recounts s call told fun call => executePlain ⟨s, call⟩ instr := by
  cases instr with
  | pop => exact Step.recounts_bind recounts_pop fun _ => Step.recounts_pure _
  | dup => exact Step.recounts_bind (recounts_onFrame _) fun _ => recounts_push _
  | swap =>
    exact Step.recounts_bind recounts_pop fun _ => Step.recounts_bind recounts_pop fun _ =>
      Step.recounts_bind (recounts_push _) fun _ => recounts_push _
  | load slot => exact Step.recounts_bind (recounts_onFrame _) fun _ => recounts_push _
  | store slot => exact Step.recounts_bind recounts_pop fun _ => recounts_onFrame _
  | arith op | compare op =>
    exact Step.recounts_bind recounts_pop fun _ => Step.recounts_bind recounts_pop fun _ =>
      Step.recounts_bind (Step.recounts_check fun _ => rfl) fun _ => recounts_push _
  | neg =>
    exact Step.recounts_bind recounts_pop fun _ =>
      Step.recounts_bind (Step.recounts_check fun _ => rfl) fun _ => recounts_push _
  | concat =>
    exact Step.recounts_bind recounts_pop fun _ => Step.recounts_bind recounts_pop fun _ =>
      Step.recounts_bind (Step.recounts_ask fun _ => rfl) fun _ => recounts_push _
  | not => exact Step.recounts_bind recounts_popBool fun _ => recounts_push _
  | new typeName =>
    exact Step.recounts_bind (recounts_lift (recounts_instantiate total typeName)) fun _ =>
      recounts_push _
  | newArray element => exact recounts_newArray element
  | arrayLoad =>
    exact Step.recounts_bind recounts_popInt fun _ => Step.recounts_bind (recounts_popArray _)
      fun _ => Step.recounts_bind (Step.recounts_check fun _ => rfl) fun _ =>
        Step.recounts_bind (Step.recounts_ask fun _ => rfl) fun _ => recounts_push _
  | arrayStore => exact recounts_arrayStore
  | arrayLength =>
    exact Step.recounts_bind (recounts_popArray _) fun _ =>
      Step.recounts_bind (Step.recounts_ask fun _ => rfl) fun _ => recounts_push _
  | instanceOf typeName =>
    exact Step.recounts_bind recounts_pop fun _ =>
      Step.recounts_bind (Step.recounts_ask fun _ => rfl) fun _ => recounts_push _
  | checkCast typeName =>
    exact Step.recounts_bind (recounts_onFrame _) fun _ => Step.recounts_check fun _ => rfl
  | invoke kind method => exact recounts_invokeHost total kind method
  | access access f => exact recounts_accessHost total access f
  | liveAccess access id f => exact recounts_accessPrivileged total access id f
  | liveSpecial id method => exact recounts_callSpecialLive total id method
  | liveSuper id method | liveInit id method => exact recounts_callSuperLive total id method
  | constNull | constBool _ | constInt _ | constFloat _ | constStr _ => exact recounts_push _
  | nop | jump _ | jumpIf _ _ | ret | retValue | entryCheck _ _ | invokeCheck _ | fieldCheck _ =>
    exact Step.recounts_pure _

theorem recounts_execute (instr : Instr) :
    Step.Recounts s call told fun call => execute ⟨s, call⟩ instr := by
  cases instr with
  | jump target => exact Step.recounts_pure _
  | jumpIf cond target => exact Step.recounts_bind recounts_popBool fun _ => Step.recounts_pure _
  | ret => exact Step.recounts_pure _
  | retValue => exact Step.recounts_bind recounts_pop fun _ => Step.recounts_pure _
  | entryCheck id slot => exact recounts_checkEntry total id _
  | invokeCheck id => exact recounts_checkInvoke total id
  | fieldCheck id => exact recounts_checkField total
  | _ => exact Step.recounts_bind (recounts_executePlain total _) fun _ => Step.recounts_pure _

theorem recounts_prepare (c : ClassRef) (method : Method) :
    Recounts s call told fun call => prepare ⟨s, call⟩ c method :=
  recounts_ite _ (recounts_ensureInitialized total c) (recounts_pure _)

theorem exists_runsFrame (n : Nat) (f : Frame) (e : Engine) :
    ∃ account, RunsFrame s call told n f e account := by
  induction n generalizing f e with
  | zero => exact ⟨[], .exhausted f e⟩
  | succ n ih =>
    cases here : f.instr? with
    | none => exact ⟨[], .ranOut here⟩
    | some instr =>
      obtain ⟨account, inside⟩ :
          ∃ account, Passes s call told (fun call => execute ⟨s, call⟩ instr f) e account :=
        recounts_execute total instr f e
      by_cases resumes : ∃ flow f' e' next, execute ⟨s, call⟩ instr f e = .ok (flow, f') e' ∧
          flow.resume? f' = some next
      · obtain ⟨flow, f', e', next, does, resumes⟩ := resumes
        obtain ⟨rest, onward⟩ := ih next e'
        exact ⟨_, .goesOn here does resumes inside onward⟩
      · refine ⟨_, .ends here (fun flow f' e' does => ?_) inside⟩
        cases resumed : flow.resume? f' with
        | none => rfl
        | some next => exact absurd ⟨flow, f', e', next, does, resumed⟩ resumes

theorem exists_entersMethod (n : Nat) (c : ClassRef) (method : Method) (args : List Value)
    (e : Engine) : ∃ account, EntersMethod s call told n c method args e account := by
  by_cases refused : method.isAbstract = true ∨ args.length ≠ method.argCount
  · exact ⟨[], .refused refused⟩
  obtain ⟨concrete, fits⟩ := not_or.1 refused
  have concrete : method.isAbstract = false := by simpa using concrete
  have fits : args.length = method.argCount := Decidable.not_not.1 fits
  obtain ⟨account, first⟩ :
      ∃ account, Passes s call told (fun call => prepare ⟨s, call⟩ c method) e account :=
    recounts_prepare total c method e
  cases made : prepare ⟨s, call⟩ c method e with
  | error stop e' => exact ⟨account, .unprepared concrete fits made first⟩
  | ok u e' =>
    by_cases full : (e'.scopeAt s).options.maxCallDepth ≤ e'.depth
    · exact ⟨account, .overflows concrete fits made first full⟩
    · obtain ⟨rest, body⟩ : ∃ rest, RunsFrame s call told n (.enter c method args)
          { e' with depth := e'.depth + 1 } rest := exists_runsFrame total n _ _
      exact ⟨_, .runs concrete fits made first (Nat.lt_of_not_le full) body⟩

end Machine

/-- Every call has an account. -/
theorem exists_account (s : ScopeRef) (n : Nat) : Machine.Recounted (Account s n) := by
  induction n with
  | zero => exact fun _ _ _ _ => ⟨[], rfl⟩
  | succ n ih => exact fun c method args e => Machine.exists_entersMethod ih n c method args e

end LiveUpdate
