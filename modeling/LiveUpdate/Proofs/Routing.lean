import LiveUpdate.Proofs.Bodies
import LiveUpdate.Proofs.Refusals

/-!
# How guards decide

A guard looks for what live versions make of the instruction behind it, checks its kind and
its access, and then either lets the instruction run or carries out the use itself.  What it
decides follows from the live member alone, as long as what it remembers is right.
-/

set_option autoImplicit false

namespace LiveUpdate

open Exec

namespace Engine

variable {e e' : Engine} {s : ScopeRef}

theorem actingClass_skeleton (c : ClassRef) : e.skeleton.actingClass s c = e.actingClass s c := by
  unfold actingClass typeWithId?
  simp only [classAt_skeleton, scopeAt_skeleton, typeAt_skeleton]
  rfl

theorem descendsFrom_skeleton (c : ClassRef) (name : String) :
    e.skeleton.descendsFrom c name = e.descendsFrom c name := by
  unfold descendsFrom ancestor?
  simp only [classAt_skeleton]
  rfl

/-- What a caller may use does not change while code runs. -/
theorem mayUse_of_skeleton_eq (same : e'.skeleton = e.skeleton) (caller : ClassRef)
    (declaring : String) (modifiers : Modifiers) :
    e'.mayUse s caller declaring modifiers = e.mayUse s caller declaring modifiers := by
  have skeleton (e : Engine) :
      e.skeleton.mayUse s caller declaring modifiers = e.mayUse s caller declaring modifiers := by
    unfold mayUse nameOf
    dsimp only
    rw [actingClass_skeleton, descendsFrom_skeleton, classAt_skeleton]
    rfl
  rw [← skeleton e', same, skeleton e]

/-- Code may call constructors and the methods of the types that its type extends
non-virtually. -/
theorem checkNonVirtual_eq_ok_iff {caller : ClassRef} {method : MethodRef} :
    e.checkNonVirtual s caller method = .ok () ↔ method.key.isConstructor = true ∨
      e.descendsFrom (e.actingClass s caller) method.owner = true := by
  rw [← Bool.or_eq_true]
  unfold checkNonVirtual
  dsimp only
  split
  next permitted => exact iff_of_true rfl permitted
  next refused => exact iff_of_false (fun permitted => by cases permitted) refused

/-- What a caller may call non-virtually does not change while code runs. -/
theorem checkNonVirtual_of_skeleton_eq (same : e'.skeleton = e.skeleton) (caller : ClassRef)
    (method : MethodRef) :
    e'.checkNonVirtual s caller method = e.checkNonVirtual s caller method := by
  have skeleton (e : Engine) :
      e.skeleton.checkNonVirtual s caller method = e.checkNonVirtual s caller method := by
    unfold checkNonVirtual nameOf
    dsimp only
    rw [actingClass_skeleton, descendsFrom_skeleton, classAt_skeleton]
    rfl
  rw [← skeleton e', same, skeleton e]

theorem hostMethod?_skeleton (e : Engine) (c : ClassRef) (key : MemberKey) :
    e.skeleton.hostMethod? c key = e.hostMethod? c key := by
  unfold hostMethod?
  simp only [classAt_skeleton]
  rfl

/-- What the host links a method to does not change while code runs. -/
theorem hostMethod?_of_skeleton_eq (same : e'.skeleton = e.skeleton) (c : ClassRef)
    (key : MemberKey) : e'.hostMethod? c key = e.hostMethod? c key := by
  rw [← hostMethod?_skeleton e', same, hostMethod?_skeleton e]

end Engine

namespace Machine

variable {m : Machine} {e : Engine} {f : Frame}

/-- The guard of a field access decides by the live field, if its access is permitted. -/
theorem routeField_apply {owner : ClassRef} {access : FieldAccess} {field : FieldRef}
    {live : LiveField} (reloaded : (e.scopeAt m.scope).epoch ≠ 0)
    (known : e.class? m.scope field.owner = some owner)
    (found : e.resolveField m.scope owner field.name = .ok (some live))
    (fits : checkFieldUse access field live.isStatic live.sig = .ok ()) (caller : ClassRef) :
    m.routeField caller access field e =
      if e.mayUse m.scope caller live.declaring live.modifiers then
        .ok (if reaches e owner live then .native else .managed live) e
      else .error (.error (e.refusal m.scope caller live.modifiers field.text)) e := by
  unfold routeField liveField
  rw [bind_apply, ask_apply]
  dsimp only
  rw [if_neg reloaded, show (e.scopeAt m.scope).classes.get? field.owner = some owner from known]
  dsimp only
  rw [bind_apply, bind_apply, resolve_apply, found]
  dsimp only
  rw [bind_apply, ofResult_apply, fits]
  dsimp only
  rw [Exec.pure_apply]
  dsimp only
  rw [bind_apply, check_apply, Engine.checkAccess_eq]
  cases e.mayUse m.scope caller live.declaring live.modifiers with
  | false => rfl
  | true =>
    simp only [if_true]
    rw [bind_apply, ask_apply]
    dsimp only
    split <;> rfl

/-- What the guards of a scope remember about an invocation, if they do, is what live
versions make of it. -/
def Remembers (m : Machine) (e : Engine) (id : TypeId) (owner : ClassRef) (kind : InvokeKind)
    (key : MemberKey) (live : LiveMethod) : Prop :=
  ∀ route, (e.scopeAt m.scope).routes.get? (id, kind, key) = some route →
    route.epoch = (e.scopeAt m.scope).epoch →
    route.live = live ∧ route.nativeOk = linksTo e owner kind key live

theorem liveTarget?_apply {owner : ClassRef} {id : TypeId} {kind : InvokeKind}
    {method : MethodRef} {live : LiveMethod} (known : e.class? m.scope method.owner = some owner)
    (found : e.resolveMethod m.scope owner method.key = .ok (some live))
    (remembers : m.Remembers e id owner kind method.key live) :
    ∃ e' epoch, e'.skeleton = e.skeleton ∧ m.liveTarget? id kind method e =
      .ok (some ⟨epoch, live, linksTo e owner kind method.key live⟩) e' := by
  have keeps : ((m.liveTarget? id kind method).final e).skeleton = e.skeleton :=
    keepsSkeleton_liveTarget? id kind method e
  suffices target : ∃ e' epoch, m.liveTarget? id kind method e =
      .ok (some ⟨epoch, live, linksTo e owner kind method.key live⟩) e' by
    obtain ⟨e', epoch, target⟩ := target
    unfold final at keeps
    rw [target] at keeps
    exact ⟨e', epoch, keeps, target⟩
  unfold liveTarget?
  rw [bind_apply, ask_apply]
  dsimp only
  cases known_route : ((e.scopeAt m.scope).routes.get? (id, kind, method.key)).filter
      fun r => r.epoch = (e.scopeAt m.scope).epoch with
  | some route =>
    obtain ⟨held, current⟩ := Option.filter_eq_some_iff.1 known_route
    obtain ⟨rfl, rfl'⟩ := remembers route held (of_decide_eq_true current)
    rw [← rfl']
    exact ⟨e, route.epoch, rfl⟩
  | none =>
    dsimp only
    rw [show (e.scopeAt m.scope).classes.get? method.owner = some owner from known]
    dsimp only
    rw [bind_apply, resolve_apply, found]
    exact ⟨_, _, rfl⟩

/-- The guard of an invocation decides by the live method, if its access is permitted. -/
theorem routeInvoke_apply {owner : ClassRef} {id : TypeId} {kind : InvokeKind}
    {method : MethodRef} {live : LiveMethod} (reloaded : (e.scopeAt m.scope).epoch ≠ 0)
    (known : e.class? m.scope method.owner = some owner)
    (found : e.resolveMethod m.scope owner method.key = .ok (some live))
    (fits : checkInvokeKind kind method live.isStatic = .ok ())
    (remembers : m.Remembers e id owner kind method.key live) (caller : ClassRef) :
    ∃ e', e'.skeleton = e.skeleton ∧ m.routeInvoke caller id kind method e =
      if e.mayUse m.scope caller live.declaring live.modifiers then
        .ok (if linksTo e owner kind method.key live then .native else .dynamic live) e'
      else .error (.error (e'.refusal m.scope caller live.modifiers method.text)) e' := by
  obtain ⟨e', epoch, same, target⟩ := liveTarget?_apply known found remembers
  refine ⟨e', same, ?_⟩
  unfold routeInvoke
  rw [bind_apply, ask_apply]
  dsimp only
  rw [if_neg reloaded, bind_apply, target]
  dsimp only
  rw [bind_apply, ofResult_apply, fits]
  dsimp only
  rw [bind_apply, check_apply, Engine.checkAccess_eq, Engine.mayUse_of_skeleton_eq same]
  cases e.mayUse m.scope caller live.declaring live.modifiers with
  | false => rfl
  | true =>
    simp only [if_true]
    split <;> rfl

/-- A guard, and then the instruction that it stands in front of unless the guard has carried
that out. -/
def guardedStep (m : Machine) (guard instr : Instr) : Step Flow := do
  match ← m.execute guard with
  | .next =>
    modify fun f => f.goTo (f.pc + 1)
    m.execute instr
  | flow => return flow

theorem guardedStep_apply (guard instr : Instr) (f : Frame) (e : Engine) :
    m.guardedStep guard instr f e = match m.execute guard f e with
      | .ok (.next, f') e' => m.execute instr (f'.goTo (f'.pc + 1)) e'
      | other => other := by
  unfold guardedStep
  rw [Step.bind_apply]
  cases m.execute guard f e with
  | error stop e' => rfl
  | ok next e' =>
    obtain ⟨flow, f'⟩ := next
    cases flow <;> rfl

/-- Take the operands of a call off the stack, make the call and put its result there. -/
def calling (kind : InvokeKind) (method : MethodRef) (call : List Value → Run Value)
    (flow : Flow) : Step Flow := do
  let args ← Step.popMany (kind.argCount method)
  Step.pushResult method.sig (← call args)
  return flow

/-- The instruction of a call takes its operands off the stack and makes the call. -/
theorem execute_invoke (kind : InvokeKind) (method : MethodRef) (f : Frame) (e : Engine) :
    m.execute (.invoke kind method) f e =
      calling kind method (m.callNative f.cls kind method) .next f e := by
  show (m.invokeHost kind method >>= fun _ => pure Flow.next) f e = _
  unfold invokeHost calling Step.popMany
  rw [Step.bind_apply, Step.onFrame_bind, Step.onFrame_bind]
  cases popped : f.popMany (kind.argCount method) with
  | error error => rfl
  | ok next =>
    obtain ⟨args, f'⟩ := next
    have acts : f'.cls = f.cls := by
      unfold Frame.popMany at popped
      split at popped
      · cases popped
      · cases popped
        rfl
    dsimp only
    rw [Step.get_bind, acts, Step.lift_bind, Step.lift_bind]
    cases m.callNative f.cls kind method args e with
    | error stop e' => rfl
    | ok value e' =>
      dsimp only
      rw [Step.bind_apply]

/-- The guard of an invocation refuses a member of another kind. -/
theorem guardedStep_invoke_misfit {g : Frame} {owner : ClassRef} {id : TypeId} {kind : InvokeKind}
    {method : MethodRef} {live : LiveMethod} {error : RunError}
    (reloaded : (e.scopeAt m.scope).epoch ≠ 0)
    (next : g.method.code[g.pc + 1]? = some (.invoke kind method))
    (known : e.class? m.scope method.owner = some owner)
    (found : e.resolveMethod m.scope owner method.key = .ok (some live))
    (misfit : checkInvokeKind kind method live.isStatic = .error error)
    (remembers : m.Remembers e id owner kind method.key live) :
    ∃ e', e'.skeleton = e.skeleton ∧
      m.guardedStep (.invokeCheck id) (.invoke kind method) g e = .error (.error error) e' := by
  obtain ⟨e', epoch, same, target⟩ := liveTarget?_apply known found remembers
  refine ⟨e', same, ?_⟩
  have routed : m.routeInvoke g.cls id kind method e = .error (.error error) e' := by
    unfold routeInvoke
    rw [bind_apply, ask_apply]
    dsimp only
    rw [if_neg reloaded, bind_apply, target]
    dsimp only
    rw [bind_apply, ofResult_apply, misfit]
  have guard : m.execute (.invokeCheck id) g e = m.checkInvoke id g e := rfl
  rw [guardedStep_apply, guard]
  unfold checkInvoke
  rw [Step.guarded_bind next]
  dsimp only
  rw [Step.get_bind, Step.lift_bind, routed]

/-- The guard of an invocation of a member that is permitted lets the host's instruction make
the call, or makes it by live versions. -/
theorem guardedStep_invoke {g : Frame} {owner : ClassRef} {id : TypeId} {kind : InvokeKind}
    {method : MethodRef} {live : LiveMethod} (reloaded : (e.scopeAt m.scope).epoch ≠ 0)
    (next : g.method.code[g.pc + 1]? = some (.invoke kind method))
    (known : e.class? m.scope method.owner = some owner)
    (found : e.resolveMethod m.scope owner method.key = .ok (some live))
    (fits : checkInvokeKind kind method live.isStatic = .ok ())
    (remembers : m.Remembers e id owner kind method.key live)
    (permitted : e.mayUse m.scope g.cls live.declaring live.modifiers = true) :
    ∃ e', e'.skeleton = e.skeleton ∧
      m.guardedStep (.invokeCheck id) (.invoke kind method) g e =
        if linksTo e owner kind method.key live then
          m.execute (.invoke kind method) (g.goTo (g.pc + 1)) e'
        else calling kind method (m.callDynamic g.cls kind method live) .skip g e' := by
  obtain ⟨e', same, routed⟩ := routeInvoke_apply reloaded known found fits remembers g.cls
  refine ⟨e', same, ?_⟩
  have guard : m.execute (.invokeCheck id) g e = m.checkInvoke id g e := rfl
  rw [guardedStep_apply, guard]
  unfold checkInvoke
  rw [Step.guarded_bind next]
  dsimp only
  rw [Step.get_bind, Step.lift_bind, routed, permitted]
  simp only [if_true]
  cases linksTo e owner kind method.key live with
  | true => rfl
  | false =>
    simp only [Bool.false_eq_true, if_false]
    unfold calling Step.popMany
    rw [Step.onFrame_bind]
    cases g.popMany (kind.argCount method) with
    | error error => rfl
    | ok next =>
      obtain ⟨args, g'⟩ := next
      dsimp only
      rw [Step.lift_bind]
      cases m.callDynamic g.cls kind method live args e' with
      | error stop e'' => rfl
      | ok value e'' =>
        unfold Step.pushResult
        dsimp only
        cases method.sig.returnsValue <;> rfl

end Machine

end LiveUpdate
