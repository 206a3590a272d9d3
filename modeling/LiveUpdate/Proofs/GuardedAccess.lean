import LiveUpdate.Proofs.Reachable
import LiveUpdate.Proofs.Routing
import LiveUpdate.Unit.Builder

/-!
# Access behind guards

A guard checks the access of the member that live versions declare.  If it then leaves the
work to the host's instruction, that checks the access again, of the member that the host
found and with the modifiers that it was defined with.  So a guarded use of a member is
refused when the live modifiers exclude the caller, and also when they permit it but the
instruction is the host's and the modifiers of the definition exclude the caller.
-/

set_option autoImplicit false

namespace LiveUpdate

open Exec

namespace Engine

variable {e e' : Engine} {s : ScopeRef}

/-- Whether the access of a field is denied to a caller behind a guard: the live modifiers
exclude the caller, or the host's instruction makes the access and the modifiers that the
field was defined with do. -/
def DeniesAccess (e : Engine) (s : ScopeRef) (caller owner : ClassRef) (field : FieldRef)
    (live : LiveField) : Prop :=
  e.mayUse s caller live.declaring live.modifiers = false ∨
    Machine.reaches e owner live = true ∧ ∃ host ∈ e.hostField? owner field.name,
      e.mayUse s caller host.slot.declaring host.slot.modifiers = false

/-- Whether an invocation is denied to a caller behind a guard: the live modifiers exclude the
caller, or the host's instruction makes the call and the modifiers that its method was defined
with do. -/
def DeniesCall (e : Engine) (s : ScopeRef) (caller owner : ClassRef) (kind : InvokeKind)
    (key : MemberKey) (live : LiveMethod) : Prop :=
  e.mayUse s caller live.declaring live.modifiers = false ∨
    Machine.linksTo e owner kind key live = true ∧ ∃ linked ∈ e.hostMethod? owner key,
      e.mayUse s caller linked.2.declaring linked.2.declared = false

/-- The field that a class has itself under a name has that name. -/
theorem name_of_ownField? {c : Class} {name : String} {index : Nat} {slot : FieldSlot}
    (own : c.ownField? name = some (index, slot)) : slot.name = name := by
  unfold Class.ownField? at own
  split at own
  next place static =>
    obtain ⟨slot', there, same⟩ := Option.map_eq_some_iff.1 own
    cases same
    obtain ⟨lt, named, -⟩ := List.findIdx?_eq_some_iff_getElem.1 static
    obtain ⟨-, rfl⟩ := List.getElem?_eq_some_iff.1 there
    exact of_decide_eq_true named
  next =>
    split at own
    · obtain ⟨place, placed, own⟩ := Option.bind_eq_some_iff.1 own
      obtain ⟨slot', there, same⟩ := Option.bind_eq_some_iff.1 own
      cases same
      obtain ⟨lt, named, -⟩ := List.findIdx?_eq_some_iff_getElem.1 placed
      obtain ⟨-, rfl⟩ := List.getElem?_eq_some_iff.1 there
      exact (of_decide_eq_true named).2
    · cases own

/-- The field that a name means has that name. -/
theorem name_of_resolveField {owner : ClassRef} {name : String} {live : LiveField}
    (found : e.resolveField s owner name = .ok (some live)) : live.name = name := by
  obtain ⟨c, -, here⟩ := exists_of_findSome? found
  rcases Option.or_eq_some_iff.1 (Option.orElse_eq_or.symm.trans here) with own | ⟨-, inherited⟩
  · unfold ownLiveField? at own
    dsimp only at own
    split at own
    all_goals
      obtain ⟨declared, -, rfl⟩ := Option.map_eq_some_iff.1 own
      rfl
  · obtain ⟨host, search, rfl⟩ := Option.map_eq_some_iff.1 inherited
    obtain ⟨i, -, search⟩ := List.exists_of_findSome?_eq_some search
    obtain ⟨d, -, search⟩ := List.exists_of_findSome?_eq_some search
    obtain ⟨⟨index, slot⟩, own, rfl⟩ := Option.map_eq_some_iff.1 search
    exact name_of_ownField? own

end Engine

namespace Machine

variable {m : Machine} {e : Engine} {f : Frame}

/-- What a guard carries out itself is all that happens. -/
theorem refuses_carriedOut {x : Step Unit} (spares : Step.Spares x) (f : Frame) (e : Engine)
    (behind : Frame → Engine → EStateM.Result (Stop RunError) Engine (Flow × Frame)) :
    refuses (match (x >>= fun _ => pure Flow.skip : Step Flow) f e with
      | .ok (.next, f') e' => behind f' e'
      | other => other) = false := by
  have spared := spares.refuses_eq f e
  rw [Step.bind_apply]
  cases run : x f e with
  | ok next e' => rfl
  | error stop e' =>
    rw [run] at spared
    cases stop with
    | outOfFuel => rfl
    | error error => exact spared

/-- An instruction that control goes on behind is refused where what it does is. -/
theorem refuses_execute_access (access : FieldAccess) (field : FieldRef) (f : Frame) (e : Engine) :
    refuses (m.execute (.access access field) f e) = refuses (m.accessHost access field f e) := by
  show refuses ((m.accessHost access field >>= fun _ => pure Flow.next) f e) = _
  rw [Step.bind_apply]
  cases m.accessHost access field f e with
  | error stop e' => cases stop <;> rfl
  | ok next e' => rfl

/-- The host's access of a field that it finds goes on if its access is permitted. -/
theorem hostField_apply {owner : ClassRef} {access : FieldAccess} {field : FieldRef}
    {host : HostField} (known : e.class? m.scope field.owner = some owner)
    (linked : e.hostField? owner field.name = some host)
    (fits : checkFieldUse access field host.slot.isStatic host.slot.sig = .ok ())
    (caller : ClassRef) : m.hostField caller access field e =
      if e.mayUse m.scope caller host.slot.declaring host.slot.modifiers then .ok host e
      else .error (.error (e.refusal m.scope caller host.slot.modifiers field.text)) e := by
  unfold hostField Engine.requireClass
  rw [bind_apply, check_apply, known]
  dsimp only
  rw [bind_apply, require_apply, linked]
  dsimp only
  rw [bind_apply, ofResult_apply, fits]
  dsimp only
  rw [bind_apply, check_apply, Engine.checkAccess_eq]
  cases e.mayUse m.scope caller host.slot.declaring host.slot.modifiers <;> rfl

/-- The host refuses a field that it shares with live versions by what it was defined with. -/
theorem refuses_hostField_of_reaches {owner : ClassRef} {access : FieldAccess} {field : FieldRef}
    {live : LiveField} (known : e.class? m.scope field.owner = some owner)
    (named : live.name = field.name)
    (fits : checkFieldUse access field live.isStatic live.sig = .ok ())
    (reach : reaches e owner live = true) (caller : ClassRef) :
    ∃ host, e.hostField? owner field.name = some host ∧
      refuses (m.hostField caller access field e) =
        !e.mayUse m.scope caller host.slot.declaring host.slot.modifiers := by
  unfold reaches at reach
  rw [named, Bool.and_eq_true, Option.any_eq_true] at reach
  obtain ⟨-, host, linked, same⟩ := reach
  simp only [Bool.and_eq_true, decide_eq_true_eq] at same
  obtain ⟨⟨-, static⟩, sig⟩ := same
  refine ⟨host, linked, ?_⟩
  rw [hostField_apply known linked (static.symm ▸ sig.symm ▸ fits)]
  cases e.mayUse m.scope caller host.slot.declaring host.slot.modifiers <;> rfl

/-- A guarded field access is refused where it is denied, and nowhere else if the calls that it
makes refuse nothing. -/
theorem refuses_guarded_access {owner : ClassRef} {access : FieldAccess} {field : FieldRef}
    {live : LiveField} (hm : ¬ e.DeniesAccess m.scope f.cls owner field live → m.Spares)
    (reloaded : (e.scopeAt m.scope).epoch ≠ 0)
    (next : f.method.code[f.pc + 1]? = some (.access access field))
    (known : e.class? m.scope field.owner = some owner)
    (found : e.resolveField m.scope owner field.name = .ok (some live))
    (fits : checkFieldUse access field live.isStatic live.sig = .ok ()) (id : TypeId) :
    refuses (m.guardedStep (.fieldCheck id) (.access access field) f e) = true ↔
      e.DeniesAccess m.scope f.cls owner field live := by
  unfold Engine.DeniesAccess at hm ⊢
  have guard : m.execute (.fieldCheck id) f e = m.checkField f e := rfl
  rw [guardedStep_apply, guard]
  unfold checkField
  rw [Step.guarded_bind next]
  dsimp only
  rw [Step.get_bind, Step.lift_bind, routeField_apply reloaded known found fits]
  cases permitted : e.mayUse m.scope f.cls live.declaring live.modifiers with
  | false => exact iff_of_true rfl (.inl rfl)
  | true =>
    simp only [permitted, Bool.true_eq_false, false_or] at hm
    simp only [if_true, Bool.true_eq_false, false_or]
    -- only the host's instruction checks access a second time
    cases reach : reaches e owner live with
    | false =>
      simp only [reach, Bool.false_eq_true, false_and, not_false_eq_true, true_implies] at hm
      simp only [Bool.false_eq_true, if_false, false_and, iff_false]
      have spared := spares_accessLive hm access field live
      exact Bool.eq_false_iff.1 (refuses_carriedOut spared f e _)
    | true =>
      obtain ⟨host, linked, refused⟩ := refuses_hostField_of_reaches known
        (Engine.name_of_resolveField found) fits reach f.cls
      simp only [reach, true_and, linked, Option.mem_some_iff, exists_eq_left'] at hm
      have native : refuses (m.execute (.access access field) (f.goTo (f.pc + 1)) e) =
          !e.mayUse m.scope f.cls host.slot.declaring host.slot.modifiers := by
        have accessed : refuses (m.hostField (f.goTo (f.pc + 1)).cls access field e) = _ := refused
        have calls : refuses (m.hostField (f.goTo (f.pc + 1)).cls access field e) = false →
            m.Spares := by
          intro spared
          refine hm fun denied => ?_
          rw [accessed, denied] at spared
          cases spared
        rw [refuses_execute_access, refuses_accessHost calls, accessed]
      simp only [if_true, true_and, linked, Option.mem_some_iff, exists_eq_left']
      show refuses (m.execute (.access access field) (f.goTo (f.pc + 1)) e) = true ↔ _
      rw [native, Bool.not_eq_true']

/-- A call as the host links it, with its operands on the stack, is refused where the method
that it is linked to is. -/
theorem refuses_execute_invoke {owner declaring : ClassRef} {found : Method}
    {kind : InvokeKind} {method : MethodRef}
    (hm : e.mayUse m.scope f.cls found.declaring found.declared = true → m.Spares)
    (known : e.class? m.scope method.owner = some owner)
    (linked : e.hostMethod? owner method.key = some (declaring, found))
    (fits : checkInvokeKind kind method found.isStatic = .ok ())
    (enough : kind.argCount method ≤ f.stack.length) :
    refuses (m.execute (.invoke kind method) f e) =
      !e.mayUse m.scope f.cls found.declaring found.declared := by
  show refuses ((m.invokeHost kind method >>= fun _ => pure Flow.next) f e) = _
  have popped : f.popMany (kind.argCount method) =
      .ok ((f.stack.take (kind.argCount method)).reverse,
        { f with stack := f.stack.drop (kind.argCount method) }) := by
    unfold Frame.popMany
    rw [if_neg (Nat.not_lt.2 enough)]
  unfold invokeHost Step.popMany
  rw [Step.bind_apply, Step.onFrame_bind, popped]
  dsimp only
  rw [Step.get_bind, Step.lift_bind]
  rw [← refuses_callNative hm known linked fits (f.stack.take (kind.argCount method)).reverse]
  dsimp only
  cases m.callNative f.cls kind method (f.stack.take (kind.argCount method)).reverse e with
  | error stop e' => cases stop <;> rfl
  | ok value e' =>
    dsimp only
    cases pushed : Step.pushResult method.sig value _ e' with
    | ok next e'' => rfl
    | error stop e'' =>
      have spared := (Step.spares_pushResult method.sig value).refuses_eq
        { f with stack := f.stack.drop (kind.argCount method) } e'
      rw [pushed] at spared
      cases stop with
      | outOfFuel => rfl
      | error error => exact spared

/-- A guarded invocation is refused where it is denied, and nowhere else if the calls that it
makes refuse nothing. -/
theorem refuses_guarded_invoke {owner : ClassRef} {id : TypeId} {kind : InvokeKind}
    {method : MethodRef} {live : LiveMethod}
    (hm : ¬ e.DeniesCall m.scope f.cls owner kind method.key live → m.Spares)
    (reloaded : (e.scopeAt m.scope).epoch ≠ 0)
    (next : f.method.code[f.pc + 1]? = some (.invoke kind method))
    (known : e.class? m.scope method.owner = some owner)
    (found : e.resolveMethod m.scope owner method.key = .ok (some live))
    (fits : checkInvokeKind kind method live.isStatic = .ok ())
    (remembers : m.Remembers e id owner kind method.key live)
    (enough : kind.argCount method ≤ f.stack.length) :
    refuses (m.guardedStep (.invokeCheck id) (.invoke kind method) f e) = true ↔
      e.DeniesCall m.scope f.cls owner kind method.key live := by
  unfold Engine.DeniesCall at hm ⊢
  obtain ⟨e', same, routed⟩ := routeInvoke_apply reloaded known found fits remembers f.cls
  have guard : m.execute (.invokeCheck id) f e = m.checkInvoke id f e := rfl
  rw [guardedStep_apply, guard]
  unfold checkInvoke
  rw [Step.guarded_bind next]
  dsimp only
  rw [Step.get_bind, Step.lift_bind, routed]
  cases permitted : e.mayUse m.scope f.cls live.declaring live.modifiers with
  | false => exact iff_of_true rfl (.inl rfl)
  | true =>
    simp only [permitted, Bool.true_eq_false, false_or] at hm
    simp only [if_true, Bool.true_eq_false, false_or]
    cases links : linksTo e owner kind method.key live with
    | false =>
      simp only [links, Bool.false_eq_true, false_and, not_false_eq_true, true_implies] at hm
      simp only [Bool.false_eq_true, if_false, false_and, iff_false]
      have spared : Step.Spares (do
          let args ← Step.popMany (kind.argCount method)
          Step.pushResult method.sig (← m.callDynamic f.cls kind method live args)) :=
        Step.spares_bind (Step.spares_popMany _) fun args =>
          Step.spares_bind (Step.spares_lift (spares_callDynamic hm _ _ _ _ args)) fun value =>
            Step.spares_pushResult _ value
      have carriedOut := refuses_carriedOut spared f e'
      simp only [bind_assoc] at carriedOut
      exact Bool.eq_false_iff.1 (carriedOut _)
    | true =>
      have host : ∃ c found, e.hostMethod? owner method.key = some (c, found) ∧
          found.isStatic = live.isStatic := by
        unfold linksTo at links
        split at links
        next c found linked =>
          rw [Bool.and_eq_true, decide_eq_true_eq] at links
          exact ⟨c, found, linked, links.1⟩
        next => cases links
      obtain ⟨c, found, linked, static⟩ := host
      simp only [links, true_and, linked, Option.mem_some_iff, exists_eq_left',
        Bool.not_eq_false] at hm
      -- the route is remembered in `e'`, which has the skeleton of `e`
      have native := refuses_execute_invoke (e := e') (f := f.goTo (f.pc + 1))
        (fun permitted => hm (Engine.mayUse_of_skeleton_eq same _ _ _ ▸ permitted))
        ((Engine.class?_of_skeleton_eq same _ _).trans known)
        ((Engine.hostMethod?_of_skeleton_eq same _ _).trans linked) (static ▸ fits) enough
      rw [Engine.mayUse_of_skeleton_eq same] at native
      simp only [if_true, true_and, linked, Option.mem_some_iff, exists_eq_left']
      show refuses (m.execute (.invoke kind method) (f.goTo (f.pc + 1)) e') = true ↔ _
      rw [native, Bool.not_eq_true']
      rfl

end Machine

/-- After a reload a guarded use of a member that live versions have, of the right kind and
type, is refused exactly where it is denied: where the live modifiers exclude the caller, and
also where they permit it but the host's instruction goes on and the modifiers that its own
member was defined with exclude the caller. -/
theorem guarded_use_refused_iff {m : Machine} {e : Engine} {f : Frame}
    (reloaded : (e.scopeAt m.scope).epoch ≠ 0) :
    (∀ {access : FieldAccess} {field : FieldRef} {owner : ClassRef} {live : LiveField},
      f.method.code[f.pc + 1]? = some (.access access field) →
      e.class? m.scope field.owner = some owner →
      e.resolveField m.scope owner field.name = .ok (some live) →
      checkFieldUse access field live.isStatic live.sig = .ok () → ∀ id,
      (e.DeniesAccess m.scope f.cls owner field live →
        refuses (m.guardedStep (.fieldCheck id) (.access access field) f e) = true) ∧
      (m.Spares → refuses (m.guardedStep (.fieldCheck id) (.access access field) f e) = true →
        e.DeniesAccess m.scope f.cls owner field live)) ∧
    (∀ {kind : InvokeKind} {method : MethodRef} {owner : ClassRef} {live : LiveMethod} {id : TypeId},
      f.method.code[f.pc + 1]? = some (.invoke kind method) →
      e.class? m.scope method.owner = some owner →
      e.resolveMethod m.scope owner method.key = .ok (some live) →
      checkInvokeKind kind method live.isStatic = .ok () →
      m.Remembers e id owner kind method.key live →
      kind.argCount method ≤ f.stack.length →
      (e.DeniesCall m.scope f.cls owner kind method.key live →
        refuses (m.guardedStep (.invokeCheck id) (.invoke kind method) f e) = true) ∧
      (m.Spares → refuses (m.guardedStep (.invokeCheck id) (.invoke kind method) f e) = true →
        e.DeniesCall m.scope f.cls owner kind method.key live)) := by
  constructor
  · intro access field owner live next known found fits id
    constructor
    · intro denied
      exact (Machine.refuses_guarded_access (fun free => absurd denied free) reloaded next known
        found fits id).2 denied
    · intro spares
      exact (Machine.refuses_guarded_access (fun _ => spares) reloaded next known found fits id).1
  · intro kind method owner live id next known found fits remembers enough
    constructor
    · intro denied
      exact (Machine.refuses_guarded_invoke (fun free => absurd denied free) reloaded next known
        found fits remembers enough).2 denied
    · intro spares
      exact (Machine.refuses_guarded_invoke (fun _ => spares) reloaded next known found fits
        remembers enough).1

namespace Widening

/-- A static field and the use that other types make of it. -/
def field : FieldRef := ⟨"app.T", "n", .int⟩

/-- A static method and the use that other types make of it. -/
def method : MethodRef := ⟨"app.T", "f", ⟨[], .int⟩⟩

/-- A type with both members, for those that a visibility admits. -/
def counter (visibility : Modifiers) : TypeUnit :=
  ((TypeUnit.named "app.T").addField ⟨"n", .int, visibility ||| .staticBit, none, []⟩).addMethod
    (.make "f" ⟨[], .int⟩ (visibility ||| .staticBit) [.constInt 1, .retValue])

/-- A type of another package that uses both. -/
def user : TypeUnit :=
  (TypeUnit.named "lib.User").addMethod (.make "sum" ⟨[], .int⟩ (.publicBit ||| .staticBit)
    [.access .getStatic field, .invoke .static method, .arith .add, .retValue])

/-- A scope in which both types were defined, the members for their package alone. -/
def defined : Engine :=
  ((Engine.opened { included := ["app.*"] }).defining 4 (counter .empty)).defining 4 user

/-- The scope after a reload in which the members are public. -/
def engine : Engine := defined.reloading 4 0 "wider" (counter .publicBit)

/-- The method of the other package as it was defined, with guards. -/
def sum : Method where
  key := ⟨"sum", ⟨[], .int⟩⟩
  modifiers := .publicBit ||| .staticBit
  declared := .publicBit ||| .staticBit
  declaring := "lib.User"
  maxLocals := 0
  code := [.fieldCheck 0, .access .getStatic field, .invokeCheck 0, .invoke .static method,
    .arith .add, .retValue]

/-- The method at the guard of the field access. -/
def atField : Frame := .enter 1 sum []

/-- The method at the guard of the invocation. -/
def atCall : Frame := { cls := 1, method := sum, locals := [], stack := [.int 0], pc := 2 }

/-- What live versions make of the field. -/
def liveField : LiveField :=
  ⟨"app.T", "n", .int, .publicBit ||| .staticBit, some 0, 0, .native⟩

/-- The method of the type in the host class: widened there, but not as it was declared. -/
def answer : Method where
  key := ⟨"f", ⟨[], .int⟩⟩
  modifiers := .publicBit ||| .staticBit
  declared := .empty ||| .staticBit
  declaring := "app.T"
  maxLocals := 0
  code := [.entryCheck 0 0, .constInt 1, .retValue]

/-- What live versions make of the method. -/
def liveMethod : LiveMethod := ⟨"app.T", .publicBit ||| .staticBit, some 0, some (0, answer)⟩

/-- A machine whose calls all succeed. -/
def machine : Machine := ⟨0, fun _ _ _ => pure .null⟩

theorem spares : machine.Spares := fun _ _ _ => spares_pure _

set_option maxRecDepth 100000 in
theorem outcomes :
    (((Engine.opened { included := ["app.*"] }).defining 4 (counter .empty)).scopes.size = 1 ∧
      defined.types.size = 1) ∧
    ((engine.scopeAt 0).epoch = 1 ∧ (engine.scopeAt 0).routes = [] ∧
      engine.class? 0 "app.T" = some 0 ∧ engine.class? 0 "lib.User" = some 1 ∧
      (engine.classAt 1).method? sum.key = some sum ∧
      engine.mayUse 0 1 "app.T" (.publicBit ||| .staticBit) = true ∧
      engine.mayUse 0 1 "app.T" (.empty ||| .staticBit) = false) ∧
    ((engine.resolveField 0 0 "n").toOption = some (some liveField) ∧
      Machine.reaches engine 0 liveField = true ∧
      engine.hostField? 0 "n" = some ⟨0, 0, ⟨"app.T", "n", .int, .empty ||| .staticBit⟩⟩ ∧
      (engine.resolveMethod 0 0 method.key).toOption = some (some liveMethod) ∧
      Machine.linksTo engine 0 .static method.key liveMethod = true ∧
      engine.hostMethod? 0 method.key = some (0, answer)) ∧
    refuses ((Machine.of 0 0).guardedStep (.fieldCheck 0) (.access .getStatic field) atField
      engine) = true := by
  decide +kernel

theorem reachable : engine.Reachable := by
  obtain ⟨⟨scopes, types⟩, -⟩ := outcomes
  have opened : (Engine.opened { included := ["app.*"] }).Reachable := Engine.reachable_opened _
  have both : defined.Reachable :=
    (opened.defining 4 (counter .empty) (by decide)).defining 4 user
      (by rw [scopes]; exact Nat.one_pos)
  exact both.reloading 4 0 "wider" (counter .publicBit) (by rw [types]; exact Nat.one_pos)

theorem fresh : (engine.scopeAt 0).epoch ≠ 0 := by
  rw [outcomes.2.1.1]
  exact Nat.one_ne_zero

end Widening

open Widening in
/-- A public field and a public method of the live version, refused to a caller from another
package because they were defined for their own. -/
theorem guarded_use_refused_widened :
    refuses (machine.guardedStep (.fieldCheck 0) (.access .getStatic field) atField engine) = true ∧
    refuses (machine.guardedStep (.invokeCheck 0) (.invoke .static method) atCall engine) =
      true := by
  obtain ⟨-, ⟨-, forgotten, known, -, -, -, excluded⟩, members, -⟩ := outcomes
  obtain ⟨foundField, reach, hostField, foundMethod, links, hostMethod⟩ := members
  have reloaded := fresh
  -- What matters about the engine is known; its definition is not to be unfolded.
  generalize engine = e at *
  have fieldUse := @guarded_use_refused_iff machine e atField reloaded
  have methodUse := @guarded_use_refused_iff machine e atCall reloaded
  constructor
  · exact (fieldUse.1 rfl known (Exec.ok_of_toOption foundField) rfl 0).1
      (.inr ⟨reach, _, hostField, excluded⟩)
  · refine (methodUse.2 rfl known (Exec.ok_of_toOption foundMethod) rfl ?_ (Nat.zero_le _)).1
      (.inr ⟨links, _, hostMethod, excluded⟩)
    intro route held
    have held : (e.scopeAt 0).routes.get? (0, .static, method.key) = some route := held
    rw [forgotten] at held
    cases held

open Widening in
/-- Live modifiers that permit a caller the use of a field do not keep the guarded access from
being refused. -/
theorem guarded_use_refused_though_permitted :
    ¬ ∀ (e : Engine) (s : ScopeRef) (fuel : Nat) (f : Frame) (access : FieldAccess)
      (field : FieldRef) (owner : ClassRef) (live : LiveField) (id : TypeId),
      e.Reachable → (e.scopeAt s).epoch ≠ 0 →
      (e.classAt f.cls).method? f.method.key = some f.method →
      f.method.code[f.pc]? = some (.fieldCheck id) →
      f.method.code[f.pc + 1]? = some (.access access field) →
      e.class? s field.owner = some owner → e.resolveField s owner field.name = .ok (some live) →
      checkFieldUse access field live.isStatic live.sig = .ok () →
      e.mayUse s f.cls live.declaring live.modifiers = true →
      refuses ((Machine.of s fuel).guardedStep (.fieldCheck id) (.access access field) f e) =
        false := by
  intro right
  obtain ⟨-, ⟨-, -, known, -, runs, permitted, -⟩, ⟨found, -⟩, refused⟩ := outcomes
  have spared := right engine 0 0 atField .getStatic field 0 liveField 0 reachable fresh runs rfl
    rfl known (Exec.ok_of_toOption found) rfl permitted
  rw [refused] at spared
  cases spared

end LiveUpdate
