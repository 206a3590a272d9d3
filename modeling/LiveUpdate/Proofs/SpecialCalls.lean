import LiveUpdate.Proofs.Bookkeeping
import LiveUpdate.Proofs.ConstructorCalls
import LiveUpdate.Proofs.SuperDispatchers

/-!
# Non-virtual calls in executors

A non-virtual call that a version makes of another type's method becomes, in the executor, a
call of the super-dispatcher of the host class if that has one, and else an instruction of the
engine that searches above the live version.  Neither keeps the type that the call names.  So
the executor runs the method that the host's instruction would run exactly when no nearer
ancestor of the type declares it.
-/

set_option autoImplicit false

namespace LiveUpdate

open Exec

namespace Engine

variable {e e' : Engine} {s : ScopeRef} {t : TypeRef} {native : ClassRef} {key : MemberKey}

/-- What a non-virtual call of a type's member means. -/
def specialTarget (e : Engine) (s : ScopeRef) (typeName : String) (key : MemberKey) :
    Except (Stop RunError) LiveMethod :=
  match e.class? s typeName with
  | none => .error (.error (.classNotFound typeName))
  | some c =>
    match e.resolveMethod s c key with
    | .ok (some live) => .ok live
    | .ok none => .error (.error (.memberMissing typeName key))
    | .error stop => .error stop

/-- What the live version of a managed type has from its supertype. -/
def inheritedTarget (e : Engine) (s : ScopeRef) (t : TypeRef) (key : MemberKey) :
    Except (Stop RunError) LiveMethod :=
  match (e.typeAt t).live.shape.superName with
  | none => .error (.error (.memberMissing (e.typeAt t).name key))
  | some superName => e.specialTarget s superName key

/-- The instruction that executors have in the place of a non-virtual call of a method. -/
def specialInstr (e : Engine) (t : TypeRef) (native : ClassRef) (ref : MethodRef) : Instr :=
  let dispatcher := dispatcherRef (e.typeAt t).name ref.key
  if ref.owner = (e.typeAt t).name then .liveSpecial (e.typeAt t).id ref
  else if ((e.classAt native).method? dispatcher.key).isSome then .invoke .special dispatcher
  else .liveSuper (e.typeAt t).id ref

/-- A target is what the search of a class for the member ends with. -/
theorem specialTarget_eq_ok_iff {typeName : String} {c : ClassRef} {live : LiveMethod}
    (known : e.class? s typeName = some c) :
    e.specialTarget s typeName key = .ok live ↔ e.resolveMethod s c key = .ok (some live) := by
  unfold specialTarget
  rw [known]
  dsimp only
  cases e.resolveMethod s c key with
  | error stop => simp
  | ok found => cases found <;> simp

end Engine

namespace Machine

variable {m : Machine} {e : Engine} {t : TypeRef} {key : MemberKey}

/-- Take a receiver and arguments off the stack and run on them the method that was found, if
one was. -/
def runTarget (m : Machine) (key : MemberKey) (found : Except (Stop RunError) LiveMethod) :
    Step Flow := do
  let args ← Step.popMany (key.sig.arity + 1)
  let live ← (resolve fun _ => found : Run LiveMethod)
  Step.pushResult key.sig (← m.callResolved live key args)
  return .next

/-- With its operands on the stack a method that was found is called. -/
theorem runTarget_apply {f f' : Frame} {args : List Value} {live : LiveMethod}
    (operands : f.popMany (key.sig.arity + 1) = .ok (args, f')) :
    m.runTarget key (.ok live) f e = match m.callResolved live key args e with
      | .ok value e' => (Step.pushResult key.sig value >>= fun _ => pure Flow.next) f' e'
      | .error stop e' => .error stop e' := by
  unfold runTarget Step.popMany
  rw [Step.onFrame_bind, operands]
  dsimp only
  rw [Step.lift_bind, resolve_apply]
  dsimp only
  rw [Step.lift_bind]
  cases m.callResolved live key args e <;> rfl

/-- The call of an inherited method runs the one that the live supertype has. -/
theorem callInherited_apply (t : TypeRef) (key : MemberKey) (args : List Value) (e : Engine) :
    m.callInherited t key args e = match e.inheritedTarget m.scope t key with
      | .ok live => m.callResolved live key args e
      | .error stop => .error stop e := by
  unfold callInherited Engine.inheritedTarget Engine.specialTarget
  rw [bind_apply, ask_apply]
  dsimp only
  cases (e.typeAt t).live.shape.superName with
  | none => rfl
  | some superName =>
    dsimp only
    rw [bind_apply, check_apply]
    unfold Engine.requireClass
    cases e.class? m.scope superName with
    | none => rfl
    | some parent =>
      dsimp only
      rw [bind_apply, resolve_apply]
      cases e.resolveMethod m.scope parent key with
      | error stop => rfl
      | ok found => cases found <;> rfl

/-- The engine's instruction for a non-virtual call runs what the live supertype has. -/
theorem execute_liveSuper {id : TypeId} (registered : e.typeWithId? m.scope id = some t)
    (ref : MethodRef) (f : Frame) :
    m.execute (.liveSuper id ref) f e =
      m.runTarget ref.key (e.inheritedTarget m.scope t ref.key) f e := by
  show (m.callSuperLive id ref >>= fun _ => pure Flow.next) f e = _
  have known : managedType e m.scope id = .ok t := by
    unfold managedType
    rw [registered]
  have count : InvokeKind.special.argCount ref = ref.key.sig.arity + 1 := rfl
  unfold callSuperLive runTarget Step.popMany
  rw [Step.bind_apply, Step.check_bind, known, count]
  dsimp only
  rw [Step.onFrame_bind, Step.onFrame_bind]
  cases f.popMany (ref.key.sig.arity + 1) with
  | error error => rfl
  | ok next =>
    obtain ⟨args, f'⟩ := next
    dsimp only
    rw [Step.lift_bind, callInherited_apply, Step.lift_bind, resolve_apply]
    cases e.inheritedTarget m.scope t ref.key with
    | error stop => rfl
    | ok live =>
      dsimp only
      rw [Step.lift_bind]
      cases m.callResolved live ref.key args e with
      | error stop e' => rfl
      | ok value e' =>
        dsimp only
        rw [Step.bind_apply]
        rfl

/-- A guard runs the live method itself where the host's instruction would mean another. -/
theorem guardedStep_dynamic {g g' : Frame} {x : ClassRef} {id : TypeId} {ref : MethodRef}
    {live : LiveMethod} (reloaded : (e.scopeAt m.scope).epoch ≠ 0)
    (next : g.method.code[g.pc + 1]? = some (.invoke .special ref))
    (known : e.class? m.scope ref.owner = some x)
    (found : e.resolveMethod m.scope x ref.key = .ok (some live)) (receives : live.isStatic = false)
    (remembers : m.Remembers e id x .special ref.key live)
    (permitted : e.mayUse m.scope g.cls live.declaring live.modifiers = true)
    (links : linksTo e x .special ref.key live = false)
    (inherits : e.checkNonVirtual m.scope g.cls ref = .ok ()) {o : ObjectRef} {rest : List Value}
    (operands : g.popMany (ref.key.sig.arity + 1) = .ok (.object o :: rest, g')) :
    ∃ e', e'.skeleton = e.skeleton ∧ m.guardedStep (.invokeCheck id) (.invoke .special ref) g e =
      (m.runTarget ref.key (.ok live) >>= fun _ => pure Flow.skip) g e' := by
  have fits : checkInvokeKind .special ref live.isStatic = .ok () := by
    rw [receives]
    rfl
  obtain ⟨e', same, guarded⟩ := guardedStep_invoke reloaded next known found fits remembers permitted
  refine ⟨e', same, ?_⟩
  -- the route is remembered in `e'`, where the check for the caller has the same answer
  have inherits' : e'.checkNonVirtual m.scope g.cls ref = .ok () :=
    (Engine.checkNonVirtual_of_skeleton_eq same _ _).trans inherits
  have called : m.callDynamic g.cls .special ref live (.object o :: rest) e' =
      m.callResolved live ref.key (.object o :: rest) e' := by
    unfold callDynamic
    dsimp only
    rw [bind_apply, check_apply, inherits']
    rfl
  have count : InvokeKind.special.argCount ref = ref.key.sig.arity + 1 := rfl
  have sig : ref.key.sig = ref.sig := rfl
  rw [guarded, links, Step.bind_apply, runTarget_apply operands, sig]
  simp only [Bool.false_eq_true, if_false]
  unfold calling Step.popMany
  rw [Step.onFrame_bind, count, operands]
  dsimp only
  rw [Step.lift_bind, called]
  cases m.callResolved live ref.key (.object o :: rest) e' with
  | error stop e'' => rfl
  | ok value e'' =>
    unfold Step.pushResult
    dsimp only
    cases ref.sig.returnsValue <;> rfl

end Machine

namespace Engine

variable {e e' : Engine} {s : ScopeRef} {t : TypeRef} {native p : ClassRef} {ref : MethodRef}

/-- The host class of a managed type is seen as that, and acts as itself. -/
theorem Hosted.host (hosted : e.Hosted t native) :
    e.managedOf? (e.typeAt t).scope native = some t ∧
      ∀ s, e.actingClass s native = native := by
  obtain ⟨names, parent, interfaces, -, -, -, described, -⟩ := hosted.form
  have managed : (e.classAt native).managed = some (e.typeAt t).id := described.managed_eq
  have plain : (e.classAt native).standsFor = none := described.standsFor_eq
  constructor
  · unfold managedOf?
    rw [managed]
    exact hosted.registered
  · intro s
    unfold actingClass
    rw [plain]
    rfl

/-- An executor acts as the host class of its type. -/
theorem Compiles.actingClass (hosted : e.Hosted t native) {u : TypeUnit} {shape : TypeShape}
    {a : Artifacts} (compiles : e.Compiles t u shape a) :
    e.actingClass (e.typeAt t).scope a.executor = native := by
  obtain ⟨native', names, number, -, -, -, described⟩ := compiles.executor
  have stands : (e.classAt a.executor).standsFor = some (e.typeAt t).id := described.standsFor_eq
  unfold Engine.actingClass
  rw [stands, Option.bind_some, hosted.registered, Option.bind_some, hosted.native]

/-- The body that a non-virtual call has as the host links it. -/
theorem forwardedBody_eq_some_iff {c : ClassRef} {b : Body} : e.forwardedBody s c ref = some b ↔
    ∃ x, e.class? s ref.owner = some x ∧ e.hostMethod? x ref.key = some (b.cls, b.method) ∧
      b.method.isStatic = false ∧
      e.mayUse s c b.method.declaring b.method.declared = true ∧
      e.checkNonVirtual s c ref = .ok () := by
  constructor
  · intro forwards
    unfold forwardedBody at forwards
    cases known : e.class? s ref.owner with
    | none =>
      rw [known] at forwards
      cases forwards
    | some x =>
      rw [known] at forwards
      dsimp only at forwards
      cases linked : e.hostMethod? x ref.key with
      | none =>
        rw [linked] at forwards
        cases forwards
      | some found =>
        obtain ⟨d, m⟩ := found
        rw [linked] at forwards
        simp only [checkAccess_eq] at forwards
        split at forwards
        · cases forwards
        next receives =>
          split at forwards
          next permitted inherits =>
            cases forwards
            refine ⟨x, rfl, linked, by simpa using receives, ?_, inherits⟩
            by_contra refused
            rw [if_neg refused] at permitted
            cases permitted
          · cases forwards
  · rintro ⟨x, known, linked, receives, permitted, inherits⟩
    unfold forwardedBody
    rw [known]
    dsimp only
    rw [linked]
    dsimp only
    rw [receives, checkAccess_eq, permitted, inherits]
    rfl

/-- In a method of an executor the non-virtual calls of its source are the instructions for
them, but for those of constructors. -/
def ReplacesSpecialCalls (e : Engine) (t : TypeRef) (native : ClassRef) (source : MethodDef)
    (m : Method) : Prop :=
  ∀ (index : Nat) (ref : MethodRef), ref.key.isConstructor = false →
    source.code[index]? = some (.invoke .special ref) →
    ∃ place : Nat, m.code[place]? = some (e.specialInstr t native ref)

theorem CompiledFrom.replaces_special {w : LiveVersion} {source : MethodDef} {m : Method}
    (compiled : e.CompiledFrom t w source m) (hosted : (e.typeAt t).native = some native) :
    e.ReplacesSpecialCalls t native source m := by
  intro index ref plain call
  let ctx := e.executorContext t native w.shape
  have plain : ref.key.name ≠ constructorName := by simpa [MemberKey.isConstructor] using plain
  have plain : ref.name ≠ constructorName := plain
  have made : ctx.specialCall ref = e.specialInstr t native ref := by
    unfold ExecutorContext.specialCall specialInstr
    rw [if_neg plain]
    rfl
  have linear : (e.specialInstr t native ref).jumpTarget? = none := by
    unfold specialInstr
    dsimp only
    split
    · rfl
    · split <;> rfl
  exact compiled.exists_privileged hosted call (congrArg some made) linear

/-- What the guard of a non-virtual call in code of a managed type does with a method that live
versions have and that the type may use.  Where the host links the call to the same type, the
host's instruction makes it.  Else the live method is run, if the type extends the one that the
call names. -/
structure GuardsSpecial (e : Engine) (t : TypeRef) (native : ClassRef) (ref : MethodRef)
    (x : ClassRef) (live : LiveMethod) : Prop where
  passes : ∀ (m : Machine) (g : Frame) (id : TypeId), m.scope = (e.typeAt t).scope →
    g.cls = native → g.method.code[g.pc + 1]? = some (.invoke .special ref) →
    m.Remembers e id x .special ref.key live → Machine.linksTo e x .special ref.key live = true →
    ∃ e', e'.skeleton = e.skeleton ∧ m.guardedStep (.invokeCheck id) (.invoke .special ref) g e =
      m.execute (.invoke .special ref) (g.goTo (g.pc + 1)) e'
  carriesOut : ∀ (m : Machine) (g g' : Frame) (id : TypeId) (o : ObjectRef) (rest : List Value),
    m.scope = (e.typeAt t).scope → g.cls = native →
    g.method.code[g.pc + 1]? = some (.invoke .special ref) →
    m.Remembers e id x .special ref.key live → Machine.linksTo e x .special ref.key live = false →
    e.descendsFrom native ref.owner = true →
    g.popMany (ref.key.sig.arity + 1) = .ok (.object o :: rest, g') →
    ∃ e', e'.skeleton = e.skeleton ∧ m.guardedStep (.invokeCheck id) (.invoke .special ref) g e =
      (m.runTarget ref.key (.ok live) >>= fun _ => pure Flow.skip) g e'

/-- What the instruction for a non-virtual call of the type's own method does: it runs the
method if the live version declares it, and it does not look for an inherited one. -/
structure RunsOwn (e : Engine) (t : TypeRef) (ref : MethodRef) : Prop where
  declared : ∀ (m : Machine) (f f' : Frame) (shape : MethodShape) (o : ObjectRef)
    (rest : List Value), m.scope = (e.typeAt t).scope →
    (e.typeAt t).live.shape.method? ref.key = some shape → shape.isStatic = false →
    shape.isAbstract = false →
    f.popMany (ref.key.sig.arity + 1) = .ok (.object o :: rest, f') →
    m.execute (.liveSpecial (e.typeAt t).id ref) f e =
      m.runTarget ref.key (e.specialTarget m.scope ref.owner ref.key) f e
  missing : ∀ (m : Machine) (f : Frame), m.scope = (e.typeAt t).scope →
    (e.typeAt t).live.shape.method? ref.key = none →
    m.execute (.liveSpecial (e.typeAt t).id ref) f e = .error (.error (.methodMissing ref)) e

/-- What the instruction for a non-virtual call does that searches above the live version: it
runs what the live supertype has.  That is what a live ancestor has exactly when no nearer one
declares the member. -/
structure SearchesAbove (e : Engine) (t : TypeRef) (native : ClassRef) (ref : MethodRef) :
    Prop where
  runs : ∀ (m : Machine) (f : Frame), m.scope = (e.typeAt t).scope →
    m.execute (.liveSuper (e.typeAt t).id ref) f e =
      m.runTarget ref.key (e.inheritedTarget m.scope t ref.key) f e
  means : ∀ (x : ClassRef) (live : LiveMethod), e.class? (e.typeAt t).scope ref.owner = some x →
    x ∈ (e.liveChain (e.typeAt t).scope native).classes.tail →
    (e.liveChain (e.typeAt t).scope native).finish ≠ .endless →
    ref.key.isStaticInit = false →
    (e.liveChain (e.typeAt t).scope x).findSome? (e.ownLiveMethod? (e.typeAt t).scope ref.key) =
      .ok (some live) →
    (e.inheritedTarget (e.typeAt t).scope t ref.key = .ok live ↔
      ∀ d ∈ e.nearerThan ref.owner (e.liveChain (e.typeAt t).scope native).classes.tail,
        e.ownLiveMethod? (e.typeAt t).scope ref.key d = none)

/-- What a non-virtual call does that goes through the super-dispatcher: one call deeper, the
type calls the method of the parent of its host class.  That is the body that the host's
instruction calls for a superclass exactly when no nearer one declares the member. -/
structure ForwardsAbove (e : Engine) (t : TypeRef) (executor native p : ClassRef)
    (ref : MethodRef) : Prop where
  runs : ∀ (n : Nat) (o : ObjectRef) (rest : List Value), rest.length = ref.sig.arity →
    (Machine.of (e.typeAt t).scope (n + ref.sig.arity + 4)).callNative executor .special
        (dispatcherRef (e.typeAt t).name ref.key) (.object o :: rest) e =
      (Machine.of (e.typeAt t).scope (n + ref.sig.arity + 3)).asCall (taking ref.sig
        ((Machine.of (e.typeAt t).scope (n + ref.sig.arity + 3)).callNative native .special
          ⟨e.nameOf p, ref.name, ref.sig⟩ (.object o :: rest))) e
  calls : ∀ (n : Nat) (owner : String) (o : ObjectRef) (rest : List Value),
    (Machine.of (e.typeAt t).scope n).Calls e (.object o :: rest)
      ((Machine.of (e.typeAt t).scope n).callNative native .special ⟨owner, ref.name, ref.sig⟩
        (.object o :: rest) e)
      (e.forwardedBody (e.typeAt t).scope native ⟨owner, ref.name, ref.sig⟩)
  means : ∀ (x : ClassRef) (b : Body), e.class? (e.typeAt t).scope ref.owner = some x →
    e.forwardedBody (e.typeAt t).scope native ref = some b →
    b.cls ∈ x :: (e.classAt x).superclasses → ref.key.isStaticInit = false →
    (e.forwardedBody (e.typeAt t).scope native ⟨e.nameOf p, ref.name, ref.sig⟩ = some b ↔
      ∀ d ∈ e.nearerThan ref.owner (e.classAt native).superclasses,
        (e.classAt d).method? ref.key = none)

theorem guardsSpecial (hosted : e.Hosted t native)
    (reloaded : (e.scopeAt (e.typeAt t).scope).epoch ≠ 0)
    {x : ClassRef} {live : LiveMethod} (known : e.class? (e.typeAt t).scope ref.owner = some x)
    (found : e.specialTarget (e.typeAt t).scope ref.owner ref.key = .ok live)
    (receives : live.isStatic = false)
    (permitted : e.mayUse (e.typeAt t).scope native live.declaring live.modifiers = true) :
    e.GuardsSpecial t native ref x live := by
  have found := (specialTarget_eq_ok_iff known).1 found
  constructor
  · intro m g id scope acts next remembers links
    rw [← scope] at reloaded known found permitted
    have fits : checkInvokeKind .special ref live.isStatic = .ok () := by
      rw [receives]
      rfl
    obtain ⟨e', same, guarded⟩ := Machine.guardedStep_invoke reloaded next known found fits remembers
      (acts ▸ permitted)
    rw [links, if_pos rfl] at guarded
    exact ⟨e', same, guarded⟩
  · intro m g g' id o rest scope acts next remembers links inherits operands
    have nonVirtual : e.checkNonVirtual m.scope g.cls ref = .ok () := by
      rw [checkNonVirtual_eq_ok_iff, acts, hosted.host.2]
      exact .inr inherits
    rw [← scope] at reloaded known found permitted
    exact Machine.guardedStep_dynamic reloaded next known found receives remembers
      (acts ▸ permitted) links nonVirtual operands

/-- The live method of a managed type that its host class finds for itself. -/
theorem Hosted.resolveMethod_own (hosted : e.Hosted t native) {shape : MethodShape}
    {key : MemberKey} (declares : (e.typeAt t).live.shape.method? key = some shape) :
    ∃ live, e.resolveMethod (e.typeAt t).scope native key = .ok (some live) ∧
      live.managed = some t ∧ live.modifiers = shape.modifiers ∧
      live.declaring = e.nameOf native := by
  obtain ⟨live, own, facts⟩ : ∃ live,
      e.ownLiveMethod? (e.typeAt t).scope key native = some live ∧ live.managed = some t ∧
        live.modifiers = shape.modifiers ∧ live.declaring = e.nameOf native := by
    unfold ownLiveMethod?
    rw [hosted.host.1]
    dsimp only
    rw [declares]
    exact ⟨_, rfl, rfl, rfl, rfl⟩
  refine ⟨live, ?_, facts⟩
  unfold resolveMethod
  split
  · rw [own]
  · obtain ⟨above, starts⟩ := liveChain_eq_cons e (e.typeAt t).scope native
    unfold LiveChain.findSome?
    rw [starts, List.findSome?_cons, own]
    rfl

theorem runsOwn (hosted : e.Hosted t native) (owns : ref.owner = (e.typeAt t).name) :
    e.RunsOwn t ref := by
  have registered (m : Machine) (scope : m.scope = (e.typeAt t).scope) :
      Machine.managedType e m.scope (e.typeAt t).id = .ok t := by
    unfold Machine.managedType
    rw [scope, hosted.registered]
  constructor
  · intro m f f' shape o rest scope declares receives concrete operands
    -- the named type is the managed one, so the search ends where it begins
    obtain ⟨live, found, managed, modifiers, -⟩ := hosted.resolveMethod_own declares
    have abstract_ : live.isAbstract = shape.isAbstract := congrArg Modifiers.isAbstract modifiers
    have known : e.class? m.scope ref.owner = some native := by
      rw [scope, owns]
      exact hosted.known
    rw [← scope] at found
    rw [(specialTarget_eq_ok_iff known).2 found, Machine.runTarget_apply operands]
    have called : m.callPrivileged t ref (.object o :: rest) e =
        m.callResolved live ref.key (.object o :: rest) e := by
      unfold Machine.callPrivileged Machine.callResolved
      rw [bind_apply, require_apply, declares]
      dsimp only
      rw [receives, abstract_, concrete, managed]
      rfl
    show (m.callSpecialLive (e.typeAt t).id ref >>= fun _ => pure Flow.next) f e = _
    unfold Machine.callSpecialLive Step.popMany
    rw [Step.bind_apply, Step.check_bind, registered m scope]
    dsimp only
    rw [Step.ask_bind, declares]
    dsimp only
    rw [receives]
    have count : InvokeKind.special.argCount ref = ref.key.sig.arity + 1 := rfl
    simp only [Bool.false_eq_true, if_false]
    rw [Step.onFrame_bind, count, operands]
    dsimp only
    rw [Step.lift_bind, called]
    cases m.callResolved live ref.key (.object o :: rest) e with
    | error stop e' => rfl
    | ok value e' =>
      dsimp only
      rw [Step.bind_apply]
      rfl
  · intro m f scope missing
    show (m.callSpecialLive (e.typeAt t).id ref >>= fun _ => pure Flow.next) f e = _
    unfold Machine.callSpecialLive
    rw [Step.bind_apply, Step.check_bind, registered m scope]
    dsimp only
    rw [Step.ask_bind, missing]
    rfl

theorem searchesAbove (housed : e.Housed) (hosted : e.Hosted t native)
    (plain : ref.key.isConstructor = false) : e.SearchesAbove t native ref := by
  constructor
  · intro m f scope
    refine Machine.execute_liveSuper ?_ ref f
    rw [scope]
    exact hosted.registered
  · intro x live known mem ends plain' declared
    have home : e.Homes (e.typeAt t).scope native := ⟨_, hosted.known⟩
    -- the chain goes on above the type, so its live supertype is defined
    obtain ⟨p, parent⟩ := exists_liveParent mem
    obtain ⟨superName, super, known_p⟩ := superName_of_liveParent hosted.host.1 parent
    unfold inheritedTarget
    rw [super]
    dsimp only
    rw [specialTarget_eq_ok_iff known_p]
    exact housed.resolveMethod_parent_iff home parent ends mem known plain plain' declared

theorem forwardsAbove (housed : e.Housed) (hosted : e.Hosted t native)
    (named : (e.typeAt t).first.unit.name = (e.typeAt t).name) {executor : ClassRef}
    (acts : e.actingClass (e.typeAt t).scope executor = native)
    (plain : ref.key.isConstructor = false) (other : ref.owner ≠ (e.typeAt t).name)
    (dispatches : e.Dispatches t native p ref.key) (small : ref.sig.arity < 65536) :
    e.ForwardsAbove t executor native p ref := by
  have home : e.Homes (e.typeAt t).scope native := ⟨_, hosted.known⟩
  have home_p := ((housed.superclasses_eq home).2 p dispatches.parent).2
  constructor
  · exact fun n o rest count => Machine.callNative_dispatcher housed hosted named dispatches acts
      count small n
  · exact fun n owner o rest => Machine.calls_callNative_special
  · intro x b known calls inChain plain'
    obtain ⟨x', known', linked, receives, permitted, inherits⟩ := forwardedBody_eq_some_iff.1 calls
    cases known.symm.trans known'
    have extends_ := (checkNonVirtual_eq_ok_iff.1 inherits).resolve_left (by simp [plain])
    rw [hosted.host.2] at extends_
    have mem := housed.mem_superclasses_of_descendsFrom home extends_ known
      fun same => other (same.symm.trans (housed.name_eq hosted.known))
    -- the checks of the call are the same for both owners; what differs is the linked method
    rw [← housed.hostMethod?_parent_iff home dispatches.parent mem known plain plain' linked
      inChain, forwardedBody_eq_some_iff]
    have known_p : e.class? (e.typeAt t).scope (e.nameOf p) = some p := by
      obtain ⟨name, known_p⟩ := home_p
      rw [housed.name_eq known_p]
      exact known_p
    constructor
    · rintro ⟨p', known_p', linked', -⟩
      cases known_p.symm.trans known_p'
      exact linked'
    · intro linked'
      refine ⟨p, known_p, linked', receives, permitted, ?_⟩
      rw [checkNonVirtual_eq_ok_iff, hosted.host.2]
      exact .inr (housed.descendsFrom_parent home dispatches.parent)

/-- While code runs, the scope of a type has seen a reload if a version of the type was
published. -/
theorem During.epoch_ne_zero {v : LiveVersion} (during : e.During e') (reachable : e.Reachable)
    (managed : e'.IsManaged t) (published : (e'.typeAt t).published = some v) :
    (e'.scopeAt (e'.typeAt t).scope).epoch ≠ 0 := by
  obtain ⟨managed₀, -, published₀⟩ := during.managed managed
  have scope : (e'.typeAt t).skeleton.scope = (e.typeAt t).skeleton.scope :=
    congrArg ManagedType.scope (during.typeAt t)
  have scope : (e'.typeAt t).scope = (e.typeAt t).scope := scope
  rw [during.epoch, scope]
  exact reachable.epoch_ne_zero managed₀ (published₀.symm.trans published)

end Engine

/-- In a reachable engine let the version in force of a managed type have an executor, which
was compiled from a version with the same digest, so from the same methods unless two
payloads have one digest.  In its methods every non-virtual call but of a constructor is one
instruction.  The host's instruction under its guard runs the live method of the type that the
call names, if the type may use it.  For the type's own method the executor's instruction runs
that too if the live version declares the method, and fails if it does not.  For a method of
another type it goes through the super-dispatcher if there is one, and else searches above the
live version; it runs the method that the call means exactly when no nearer ancestor declares
it. -/
theorem executor_special_calls_iff {e₀ e : Engine} {t : TypeRef} {v : LiveVersion} {a : Artifacts}
    (reachable : e₀.Reachable) (during : e₀.During e) (managed : e.IsManaged t)
    (published : (e.typeAt t).published = some v) (generated : v.artifacts = some a) :
    ∃ native, (e.typeAt t).native = some native ∧
      (∃ w ∈ (e.typeAt t).versions,
        (TypeUnit.DigestsCollide w.data v.data ∨ w.unit.methods = v.unit.methods) ∧
        ∀ key m, (e.classAt a.executor).method? key = some m →
          ∃ source ∈ w.unit.bodied, e.CompiledFrom t w source m ∧
            e.ReplacesSpecialCalls t native source m) ∧
      ∀ ref : MethodRef, ref.key.isConstructor = false →
        (∀ x live, e.class? (e.typeAt t).scope ref.owner = some x →
          e.specialTarget (e.typeAt t).scope ref.owner ref.key = .ok live →
          live.isStatic = false →
          e.mayUse (e.typeAt t).scope native live.declaring live.modifiers = true →
          e.GuardsSpecial t native ref x live) ∧
        (ref.owner = (e.typeAt t).name →
          e.specialInstr t native ref = .liveSpecial (e.typeAt t).id ref ∧ e.RunsOwn t ref) ∧
        (ref.owner ≠ (e.typeAt t).name →
          (e.classAt native).method? (dispatcherRef (e.typeAt t).name ref.key).key = none →
          e.specialInstr t native ref = .liveSuper (e.typeAt t).id ref ∧
            e.SearchesAbove t native ref) ∧
        ∀ p, ref.owner ≠ (e.typeAt t).name → e.Dispatches t native p ref.key →
          ref.sig.arity < 65536 →
          e.specialInstr t native ref =
              .invoke .special (dispatcherRef (e.typeAt t).name ref.key) ∧
            e.ForwardsAbove t a.executor native p ref := by
  have chronicled := during.chronicled reachable managed
  have recorded := chronicled.recorded published
  have housed := during.housed reachable.housed reachable.grounded
  have reloaded := during.epoch_ne_zero reachable managed published
  obtain ⟨native, hosted⟩ := housed.hosts t managed
  obtain ⟨w, mem, alike, -, compiles, sources⟩ := recorded.sources generated
  refine ⟨native, hosted.native, ⟨w, mem, alike, ?_⟩, fun ref plain => ⟨?_, ?_, ?_, ?_⟩⟩
  · intro key m found
    obtain ⟨source, inUnit, -, compiled⟩ := sources key m found
    exact ⟨source, inUnit, compiled, compiled.replaces_special hosted.native⟩
  · exact fun x live known found receives permitted =>
      Engine.guardsSpecial hosted reloaded known found receives permitted
  · intro owns
    refine ⟨?_, Engine.runsOwn hosted owns⟩
    unfold Engine.specialInstr
    rw [if_pos owns]
  · intro other missing
    refine ⟨?_, Engine.searchesAbove housed hosted plain⟩
    unfold Engine.specialInstr
    dsimp only
    rw [if_neg other, missing]
    rfl
  · intro p other dispatches small
    refine ⟨?_, Engine.forwardsAbove housed hosted chronicled.named
      (compiles.actingClass hosted) plain other dispatches small⟩
    obtain ⟨d, declared, -⟩ := hosted.method?_dispatcher chronicled.named dispatches
    unfold Engine.specialInstr
    dsimp only
    rw [if_neg other, declared]
    rfl

namespace Overriding

/-- The call of the method of the type farther up. -/
def call : MethodRef := ⟨"lib.G", "m", ⟨[], .int⟩⟩

/-- A type with a method that gives a number. -/
def numbered (typeName : String) (number : Int64) (constructing : List Instr) : TypeUnit :=
  ((TypeUnit.named typeName).addMethod
      (.make constructorName ⟨[], .void⟩ .publicBit constructing)).addMethod
    (.make "m" ⟨[], .int⟩ .publicBit [.constInt number, .retValue])

/-- The body of a constructor that calls that of the supertype. -/
def constructingAfter (superName : String) : List Instr :=
  [.load 0, .invoke .special (constructorRef superName ⟨[], .void⟩), .ret]

/-- The type farther up. -/
def far : TypeUnit := numbered "lib.G" 1 [.ret]

/-- The nearer type, which overrides the method. -/
def near : TypeUnit :=
  { numbered "lib.P" 2 (constructingAfter "lib.G") with superName := some "lib.G" }

/-- The method that calls the one of the type farther up. -/
def caller (rest : List Instr) : MethodDef :=
  .make "up" ⟨[], .int⟩ .publicBit (.load 0 :: .invoke .special call :: rest)

/-- A type below both that has the method. -/
def below (rest : List Instr) : TypeUnit :=
  { ((TypeUnit.named "app.T").addMethod (.make constructorName ⟨[], .void⟩ .publicBit
      (constructingAfter "lib.P"))).addMethod (caller rest) with superName := some "lib.P" }

/-- The body of the method after the reload. -/
def more : List Instr := [.constInt 0, .arith .add, .retValue]

/-- A scope in which all three were defined. -/
def defined : Engine :=
  (((Engine.opened { included := ["app.*"] }).defining 4 far).defining 4 near).defining 4
    (below [.retValue])

/-- The scope after a reload in which the body of the method is another. -/
def reloaded : Engine := defined.reloading 4 0 "again" (below more)

/-- The scope after an object of the type was made. -/
def engine : Engine :=
  ((Scope.Use.newInstance "app.T" ⟨[], .void⟩ []).perform 60 0).final reloaded

/-- The method of the host class, with guards. -/
def guarded : Method where
  key := ⟨"up", ⟨[], .int⟩⟩
  modifiers := .publicBit
  declared := .publicBit
  declaring := "app.T"
  maxLocals := 1
  code := [.entryCheck 1 1, .load 0, .invokeCheck 0, .invoke .special call,
    .retValue]

/-- The method of the executor. -/
def compiled : Method where
  key := ⟨"up", ⟨[.ref "app.T"], .int⟩⟩
  modifiers := .publicBit ||| .staticBit ||| .syntheticBit
  declared := .publicBit ||| .staticBit ||| .syntheticBit
  declaring := "app.T$$E1"
  maxLocals := 1
  code := .load 0 :: .invoke .special (dispatcherRef "app.T" call.key) :: more

/-- The method of the type farther up. -/
def farMethod : Method where
  key := ⟨"m", ⟨[], .int⟩⟩
  modifiers := .publicBit
  declared := .publicBit
  declaring := "lib.G"
  maxLocals := 1
  code := [.constInt 1, .retValue]

/-- A method of a class that has the object as its receiver and as its operand. -/
def frame (c : ClassRef) (m : Method) (pc : Nat) : Frame :=
  { cls := c, method := m, locals := [.object 0], stack := [.object 0], pc }

/-- The value on the stack after a step that was made. -/
def pushed (made : EStateM.Result (Stop RunError) Engine (Flow × Frame)) : Option Value :=
  match made with
  | .ok (_, f) _ => f.stack.head?
  | .error .. => none

set_option maxRecDepth 100000 in
theorem outcomes :
    (((Engine.opened { included := ["app.*"] }).defining 4 far).scopes.size = 1 ∧
      (((Engine.opened { included := ["app.*"] }).defining 4 far).defining 4 near).scopes.size = 1 ∧
      defined.types.size = 1) ∧
    (engine.IsManaged 0 ∧ (engine.typeAt 0).published.isSome ∧
      ((engine.typeAt 0).name, (engine.typeAt 0).scope) = ("app.T", 0) ∧
      (engine.typeAt 0).native = some 2 ∧ (engine.typeAt 0).live.artifacts = some ⟨3, 4⟩ ∧
      (engine.typeAt 0).live.unit = below more) ∧
    ((engine.classAt 2).parent = some 1 ∧
      ((engine.classAt 1).vtable.get? call.key).any (isReachable "app.T" call.key) = true ∧
      (engine.typeAt 0).first.unit.method? (dispatcherRef "app.T" call.key).key = none ∧
      engine.class? 0 "lib.G" = some 0 ∧
      engine.forwardedBody 0 2 call = some ⟨0, farMethod⟩ ∧ engine.nameOf 1 = "lib.P" ∧
      1 ∈ engine.nearerThan "lib.G" (engine.classAt 2).superclasses ∧
      ((engine.classAt 1).method? call.key).isSome) ∧
    engine.objects.size = 1 ∧ (engine.classAt 2).method? guarded.key = some guarded ∧
    (engine.classAt 4).method? (executorKey "app.T" (.ofDef (caller more))) = some compiled ∧
    engine.specialInstr 0 2 call = .invoke .special (dispatcherRef "app.T" call.key) ∧
    pushed ((Machine.of 0 8).guardedStep (.invokeCheck 0) (.invoke .special call)
      (frame 2 guarded 2) engine) = some (.int 1) ∧
    pushed ((Machine.of 0 8).execute (.invoke .special (dispatcherRef "app.T" call.key))
      (frame 4 compiled 1) engine) = some (.int 2) := by
  decide +kernel

theorem reachable : engine.Reachable := by
  obtain ⟨⟨one, two, three⟩, -⟩ := outcomes
  have opened : (Engine.opened { included := ["app.*"] }).Reachable := Engine.reachable_opened _
  have all : defined.Reachable :=
    ((opened.defining 4 far (by decide)).defining 4 near (by rw [one]; exact Nat.one_pos)).defining
      4 (below [.retValue]) (by rw [two]; exact Nat.one_pos)
  have again : reloaded.Reachable :=
    all.reloading 4 0 "again" (below more) (by rw [three]; exact Nat.one_pos)
  exact again.step (.use 60 0 _)

theorem published : (engine.typeAt 0).published = some (engine.typeAt 0).live :=
  ManagedType.published_eq_live outcomes.2.1.2.1

end Overriding

open Overriding in
/-- Through the super-dispatcher the call of the method farther up does not have the body that
the host's instruction calls. -/
theorem executor_special_calls_overridden :
    engine.specialInstr 0 2 call = .invoke .special (dispatcherRef "app.T" call.key) ∧
    engine.forwardedBody 0 2 call = some ⟨0, farMethod⟩ ∧
    engine.forwardedBody 0 2 ⟨"lib.P", call.name, call.sig⟩ ≠ some ⟨0, farMethod⟩ := by
  obtain ⟨-, ⟨managed, -, ids, hosted, generated, -⟩, links, -⟩ := outcomes
  obtain ⟨parent, selected, free, known, body, named, between, overrides⟩ := links
  obtain ⟨name, scope⟩ : _ = _ ∧ _ = _ := by simpa only [Prod.mk.injEq] using ids
  have reachable := reachable
  have published := published
  -- What matters about the engine is known; its definition is not to be unfolded.
  generalize engine = e at *
  obtain ⟨native, hosted', -, runs⟩ :=
    executor_special_calls_iff reachable (.refl e) managed published generated
  obtain rfl : 2 = native := Option.some.inj (hosted.symm.trans hosted')
  obtain ⟨-, -, -, forwards⟩ := runs call (by decide)
  have dispatches : e.Dispatches 0 2 1 call.key := by
    obtain ⟨m, selected, reachable⟩ := (Option.any_eq_true _ _).1 selected
    rw [← name] at reachable free
    exact ⟨parent, ⟨m, selected, reachable⟩, free⟩
  obtain ⟨instr, forwards⟩ := forwards 1 (by rw [name]; decide) dispatches (by decide)
  have means := forwards.means 0 ⟨0, farMethod⟩
  rw [scope, named] at means
  rw [name] at instr
  refine ⟨instr, body, fun same => ?_⟩
  have untouched := (means known body List.mem_cons_self (by decide)).1 same 1 between
  rw [untouched] at overrides
  cases overrides

open Overriding in
/-- The instruction that executors have for a non-virtual call does not run what the guarded
instruction of the host runs. -/
theorem executor_special_calls_misdirected :
    ¬ ∀ (e : Engine) (t : TypeRef) (v : LiveVersion) (a : Artifacts) (native : ClassRef),
      e.Reachable → e.IsManaged t → (e.typeAt t).native = some native →
      (e.typeAt t).published = some v → v.artifacts = some a →
      ∀ source ∈ v.unit.bodied, ∀ (m host : Method) (index place pc : Nat) (ref : MethodRef)
        (id : TypeId), ref.key.isConstructor = false →
        source.code[index]? = some (.invoke .special ref) →
        (e.classAt a.executor).method? (executorKey (e.typeAt t).name (.ofDef source)) = some m →
        m.code[place]? = some (e.specialInstr t native ref) →
        (e.classAt native).method? host.key = some host →
        host.code[pc]? = some (.invokeCheck id) →
        host.code[pc + 1]? = some (.invoke .special ref) →
        ∀ (fuel : Nat) (locals stack : List Value),
          pushed ((Machine.of (e.typeAt t).scope fuel).execute (e.specialInstr t native ref)
            ⟨a.executor, m, locals, stack, place⟩ e) =
          pushed ((Machine.of (e.typeAt t).scope fuel).guardedStep (.invokeCheck id)
            (.invoke .special ref) ⟨native, host, locals, stack, pc⟩ e) := by
  intro right
  obtain ⟨-, ⟨managed, -, ids, hosted, generated, unit_eq⟩, -, calls⟩ := outcomes
  obtain ⟨-, host, found, instr, means, runs⟩ := calls
  obtain ⟨name, scope⟩ : _ = _ ∧ _ = _ := by simpa only [Prod.mk.injEq] using ids
  have reachable := reachable
  have published := published
  generalize engine = e at *
  have right := right e 0 _ ⟨3, 4⟩ 2 reachable managed hosted published generated
  rw [unit_eq, name, scope] at right
  have inUnit : caller more ∈ (below more).bodied := by decide
  have same := right _ inUnit compiled guarded 1 1 2 call 0 (by decide) rfl found
    (by rw [instr]; rfl) host rfl rfl 8 [.object 0] [.object 0]
  rw [instr] at same
  have same : some (Value.int 2) = some (.int 1) := runs.symm.trans (same.trans means)
  cases same

end LiveUpdate
