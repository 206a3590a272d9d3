import LiveUpdate.Proofs.OwnEntries
import LiveUpdate.Proofs.Parallel

/-!
# Private calls in executors

A call that a version makes of a private member of its own type becomes, in the executor, an
instruction of the engine, and that no longer says of what kind the call is.  It takes as many
operands as the member has in the live version and calls the member on them.  So it does what
the guarded call does if the kind of the call fits the member and the receiver is an object of
the type.  It does not notice a kind that does not fit, and no receiver of another class.
-/

set_option autoImplicit false

namespace LiveUpdate

open Exec

/-- The kind of a call that is right for a member and does not let the receiver's class select. -/
def MethodShape.ownKind (m : MethodShape) : InvokeKind := if m.isStatic then .static else .special

/-- A member takes as many operands as a call has exactly when the kind of the call fits it. -/
theorem MethodShape.argCount_ownKind_iff (m : MethodShape) (kind : InvokeKind) (ref : MethodRef) :
    m.ownKind.argCount ref = kind.argCount ref ↔ m.isStatic = decide (kind = .static) := by
  unfold ownKind InvokeKind.argCount
  cases m.isStatic <;> cases kind <;> simp

theorem checkInvokeKind_eq (kind : InvokeKind) (ref : MethodRef) (isStatic : Bool) :
    checkInvokeKind kind ref isStatic = if isStatic = decide (kind = .static) then .ok ()
      else .error (.classChange (.kind ref.text isStatic .method)) := by
  unfold checkInvokeKind
  cases isStatic <;> cases kind <;> simp

/-- A call that fits a member of an object, other than a non-virtual one, is one that selects. -/
theorem InvokeKind.isSelecting_of_fits {kind : InvokeKind} {isStatic : Bool}
    (other : kind ≠ .special) (fits : isStatic = decide (kind = .static))
    (instance_ : isStatic = false) : kind.isSelecting = true := by
  subst instance_
  cases kind with
  | static => cases fits
  | special => exact absurd rfl other
  | virtual | interface => rfl

namespace Machine

variable {m : Machine} {e : Engine} {t : TypeRef} {native : ClassRef} {ref : MethodRef}
  {shape : MethodShape} {live : LiveMethod} {kind : InvokeKind}

/-- The engine's instruction for a call of the type's own member takes the operands that the
member has in the live version and calls it. -/
theorem execute_liveSpecial {id : TypeId} (registered : e.typeWithId? m.scope id = some t)
    (declares : (e.typeAt t).live.shape.method? ref.key = some shape) (f : Frame) :
    m.execute (.liveSpecial id ref) f e =
      calling shape.ownKind ref (m.callPrivileged t ref) .next f e := by
  show (m.callSpecialLive id ref >>= fun _ => pure Flow.next) f e = _
  have known : managedType e m.scope id = .ok t := by
    unfold managedType
    rw [registered]
  unfold callSpecialLive calling Step.popMany
  rw [Step.bind_apply, Step.check_bind, known]
  dsimp only
  rw [Step.ask_bind, declares]
  dsimp only
  unfold MethodShape.ownKind
  rw [Step.onFrame_bind, Step.onFrame_bind]
  cases f.popMany ((if shape.isStatic then InvokeKind.static else .special).argCount ref) with
  | error error => rfl
  | ok next =>
    obtain ⟨args, f'⟩ := next
    dsimp only
    rw [Step.lift_bind, Step.lift_bind]
    cases m.callPrivileged t ref args e with
    | error stop e' => rfl
    | ok value e' =>
      dsimp only
      rw [Step.bind_apply]

/-- The engine's call of a type's own member only looks whether there is an object. -/
theorem callPrivileged_apply (declares : (e.typeAt t).live.shape.method? ref.key = some shape)
    (args : List Value) : m.callPrivileged t ref args e =
      if shape.isStatic then m.callLive t ref.key args e
      else match receiverOf args ref.text with
        | .ok _ => m.callLive t ref.key args e
        | .error error => .error (.error error) e := by
  unfold callPrivileged
  rw [bind_apply, require_apply, declares]
  dsimp only
  cases shape.isStatic with
  | true => rfl
  | false =>
    simp only [Bool.false_eq_true, if_false]
    cases receiverOf args ref.text <;> rfl

/-- What is done with an object of a named type is refused for other objects. -/
theorem checkReceiverClass_bind {α : Type} (o : ObjectRef) (typeName : String) (x : Run α) :
    (checkReceiverClass (e.objectAt o).cls typeName >>= fun _ => x) e =
      if (e.classOf o).isSubtypeOf typeName then x e
      else .error (.error (.classCast (e.classOf o).name typeName)) e := by
  unfold checkReceiverClass
  rw [bind_apply, bind_apply, ask_apply]
  show _ = if (e.classAt (e.objectAt o).cls).isSubtypeOf typeName then _ else _
  dsimp only
  cases (e.classAt (e.objectAt o).cls).isSubtypeOf typeName <;> rfl

section Selecting

variable (selects : kind.isSelecting = true)
include selects

/-- Live versions make a call on an object, which must be of the named type: a private member is
the one that was resolved, and another one is selected. -/
theorem callDynamic_object (caller : ClassRef) (o : ObjectRef) (rest : List Value) :
    m.callDynamic caller kind ref live (.object o :: rest) e =
      if (e.classOf o).isSubtypeOf ref.owner then
        if live.modifiers.isPrivate then m.callResolved live ref.key (.object o :: rest) e
        else m.callVirtual (e.objectAt o).cls ref.key (.object o :: rest) e
      else .error (.error (.classCast (e.classOf o).name ref.owner)) e := by
  have opened : m.callDynamic caller kind ref live (.object o :: rest) e =
      (checkReceiverClass (e.objectAt o).cls ref.owner >>= fun _ =>
        if live.modifiers.isPrivate then m.callResolved live ref.key (.object o :: rest)
        else m.callVirtual (e.objectAt o).cls ref.key (.object o :: rest)) e := by
    unfold callDynamic
    cases kind with
    | static | special => cases selects
    | virtual | interface => rfl
  rw [opened, checkReceiverClass_bind]
  cases live.modifiers.isPrivate <;> rfl

theorem callDynamic_null (caller : ClassRef) (rest : List Value) :
    m.callDynamic caller kind ref live (.null :: rest) e =
      .error (.error (.nullPointer (.receiver ref.text))) e := by
  unfold callDynamic
  cases kind with
  | static | special => cases selects
  | virtual | interface => rfl

end Selecting

section Linked

variable {b : Method} {caller declaring : ClassRef}
  (known : e.class? m.scope ref.owner = some native)
  (linked : e.hostMethod? native ref.key = some (declaring, b))
  (fits : checkInvokeKind kind ref b.isStatic = .ok ())
  (permitted : e.mayUse m.scope caller b.declaring b.declared = true)
include known linked fits permitted

/-- The host links a call to the method that a class has, if the caller may use it. -/
theorem callNative_linked (args : List Value) : m.callNative caller kind ref args e =
    (match kind with
      | .static => m.call declaring b args
      | .special => do
        check fun e => e.checkNonVirtual m.scope caller ref
        if args.head?.all Value.isNull then fail (.nullPointer (.receiver ref.text))
        m.call declaring b args
      | .virtual | .interface => do
        let receiver ← nativeReceiver ref args
        checkReceiverClass receiver ref.owner
        if b.modifiers.isPrivate then m.call declaring b args
        else m.callSelected receiver ref.key args : Run Value) e := by
  unfold callNative Engine.requireClass
  rw [bind_apply, check_apply, known]
  dsimp only
  rw [bind_apply, require_apply, linked]
  dsimp only
  rw [bind_apply, ofResult_apply, fits]
  dsimp only
  rw [bind_apply, check_apply, Engine.checkAccess_eq, permitted]
  cases kind <;> rfl

/-- The host makes a call on an object, which must be of the named type: a private method is the
one that the call is linked to, and another one is selected. -/
theorem callNative_object (selects : kind.isSelecting = true) (o : ObjectRef) (rest : List Value) :
    m.callNative caller kind ref (.object o :: rest) e =
      if (e.classOf o).isSubtypeOf ref.owner then
        if b.modifiers.isPrivate then m.call declaring b (.object o :: rest) e
        else m.callSelected (e.objectAt o).cls ref.key (.object o :: rest) e
      else .error (.error (.classCast (e.classOf o).name ref.owner)) e := by
  have opened : m.callNative caller kind ref (.object o :: rest) e =
      (checkReceiverClass (e.objectAt o).cls ref.owner >>= fun _ =>
        if b.modifiers.isPrivate then m.call declaring b (.object o :: rest)
        else m.callSelected (e.objectAt o).cls ref.key (.object o :: rest)) e := by
    rw [callNative_linked known linked fits permitted]
    cases kind with
    | static | special => cases selects
    | virtual | interface => rfl
  rw [opened, checkReceiverClass_bind]
  cases b.modifiers.isPrivate <;> rfl

theorem callNative_null (selects : kind.isSelecting = true) (rest : List Value) :
    m.callNative caller kind ref (.null :: rest) e =
      .error (.error (.nullPointer (.receiver ref.text))) e := by
  rw [callNative_linked known linked fits permitted]
  cases kind with
  | static | special => cases selects
  | virtual | interface => rfl

end Linked

end Machine

namespace Engine

variable {e e' : Engine} {t : TypeRef} {native : ClassRef} {ref : MethodRef} {shape : MethodShape}
  {live : LiveMethod} {kind : InvokeKind}

/-- A call of a member has what it is made on: an object of the named type, unless the member is
static. -/
def Receives (e : Engine) (typeName : String) (m : MethodShape) (args : List Value) : Prop :=
  m.isStatic = true ∨
    ∃ o rest, args = .object o :: rest ∧ (e.classOf o).isSubtypeOf typeName = true

/-- How a call of a private member of a type compares with the engine's own call, given the fuel
for it.  Where there is something to call it on, both do the same, but for one unit of fuel, as
long as there is room for a call.  An object of another class is refused, and so is null. -/
structure KeepsCalls (e : Engine) (t : TypeRef) (ref : MethodRef) (shape : MethodShape)
    (call : Nat → List Value → Run Value) : Prop where
  own : ∃ k ≤ 1, ∀ (n : Nat) (args : List Value) (e' : Engine), e'.skeleton = e.skeleton →
    e'.depth < (e'.scopeAt (e.typeAt t).scope).options.maxCallDepth →
    args.length = shape.ownKind.argCount ref → e'.Receives (e.typeAt t).name shape args →
    call (n + 1 + k) args e' =
      (Machine.of (e.typeAt t).scope (n + 1)).callPrivileged t ref args e'
  stranger : shape.isStatic = false → ∀ (n : Nat) (o : ObjectRef) (rest : List Value)
    (e' : Engine), e'.skeleton = e.skeleton →
    (e'.classOf o).isSubtypeOf (e.typeAt t).name = false →
    call n (.object o :: rest) e' =
      .error (.error (.classCast (e'.classOf o).name (e.typeAt t).name)) e'
  absent : shape.isStatic = false → ∀ (n : Nat) (rest : List Value) (e' : Engine),
    e'.skeleton = e.skeleton →
    call n (.null :: rest) e' = .error (.error (.nullPointer (.receiver ref.text))) e'

/-- The engine's own call on an object calls the live member. -/
theorem callPrivileged_receives (declares : (e.typeAt t).live.shape.method? ref.key = some shape)
    {m : Machine} {args : List Value} {typeName : String}
    (receives : e.Receives typeName shape args) :
    m.callPrivileged t ref args e = m.callLive t ref.key args e := by
  rw [Machine.callPrivileged_apply declares]
  rcases receives with static | ⟨o, rest, rfl, -⟩
  · rw [if_pos static]
  · cases shape.isStatic <;> rfl

/-- Calls by live versions of a private member are of this kind, if the engine's call of an abstract
one fails as theirs does. -/
theorem keepsCalls_dynamic (declares : (e.typeAt t).live.shape.method? ref.key = some shape)
    (isPrivate : shape.modifiers.isPrivate = true)
    (failing : shape.isAbstract = true → ∀ (m : Machine) (args : List Value) (e' : Engine),
      e'.skeleton = e.skeleton → m.callLive t ref.key args e' =
        .error (.error (.abstractMethod s!"{live.declaring}.{ref.key.text}")) e')
    (managed : live.managed = some t) (modifiers : live.modifiers = shape.modifiers)
    (owns : ref.owner = (e.typeAt t).name) (other : kind ≠ .special)
    (fits : shape.isStatic = decide (kind = .static)) :
    e.KeepsCalls t ref shape fun n =>
      (Machine.of (e.typeAt t).scope n).callDynamic native kind ref live := by
  have selects := InvokeKind.isSelecting_of_fits other fits
  have isPrivate : live.modifiers.isPrivate = true := modifiers ▸ isPrivate
  have bodied : live.isAbstract = shape.isAbstract := congrArg Modifiers.isAbstract modifiers
  have resolved (m : Machine) (args : List Value) {e' : Engine} (same : e'.skeleton = e.skeleton) :
      m.callResolved live ref.key args e' = m.callLive t ref.key args e' := by
    unfold Machine.callResolved
    rw [bodied, managed]
    cases abstract_ : shape.isAbstract with
    | false => rfl
    | true => exact (failing abstract_ m args e' same).symm
  constructor
  · refine ⟨0, Nat.zero_le _, fun n args e' same room count receives => ?_⟩
    have during : e.During e' := ⟨e.depth, same⟩
    rw [callPrivileged_receives (during.live t ▸ declares) receives]
    cases static : shape.isStatic with
    | true =>
      have static_ : kind = .static := of_decide_eq_true (fits.symm.trans static)
      subst static_
      exact resolved _ _ same
    | false =>
      obtain ⟨o, rest, rfl, isObject⟩ := receives.resolve_left (by rw [static]; exact nofun)
      show (Machine.of _ _).callDynamic native kind ref live _ e' = _
      rw [Machine.callDynamic_object (selects static), owns, if_pos isObject, if_pos isPrivate]
      exact resolved _ _ same
  · intro instance_ n o rest e' same stranger
    show (Machine.of _ _).callDynamic native kind ref live _ e' = _
    rw [Machine.callDynamic_object (selects instance_), owns, stranger]
    rfl
  · exact fun instance_ n rest e' same => Machine.callDynamic_null (selects instance_) native rest

/-- Calls that the host links to the type's own method are of this kind, if the first version has
the member with the same kind, and private unless it is static. -/
theorem keepsCalls_native (housed : e.Housed) (hosted : e.Hosted t native)
    (declares : (e.typeAt t).live.shape.method? ref.key = some shape)
    (owns : ref.owner = (e.typeAt t).name) (other : kind ≠ .special)
    (fits : shape.isStatic = decide (kind = .static)) {b : Method}
    (own : (e.classAt native).method? ref.key = some b) (static : b.isStatic = shape.isStatic)
    (declaring : b.declaring = (e.typeAt t).name)
    (isPrivate : shape.isStatic = false → b.modifiers.isPrivate = true)
    (calls : ∃ k ≤ 1, ∀ (n : Nat) (args : List Value) (e' : Engine), e'.skeleton = e.skeleton →
      e'.depth < (e'.scopeAt (e.typeAt t).scope).options.maxCallDepth →
      args.length = shape.sig.arity + (if shape.isStatic then 0 else 1) →
      (Machine.of (e.typeAt t).scope (n + 1 + k)).call native b args e' =
        (Machine.of (e.typeAt t).scope (n + 1)).callLive t ref.key args e') :
    e.KeepsCalls t ref shape fun n =>
      (Machine.of (e.typeAt t).scope n).callNative native kind ref := by
  have selects := InvokeKind.isSelecting_of_fits other fits
  have accepts : checkInvokeKind kind ref b.isStatic = .ok () := by
    rw [checkInvokeKind_eq, if_pos (static.trans fits)]
  have sig : shape.sig = ref.sig := by
    have key : shape.key = ref.key := by simpa using List.find?_some declares
    exact congrArg MemberKey.sig key
  have count : shape.ownKind.argCount ref =
      shape.sig.arity + if shape.isStatic then 0 else 1 := by
    unfold MethodShape.ownKind InvokeKind.argCount
    rw [sig]
    cases shape.isStatic <;> rfl
  -- what the host links the call to, and whether the type may use it, is not changed by running
  have links (e' : Engine) (same : e'.skeleton = e.skeleton) :
      e'.class? (e.typeAt t).scope ref.owner = some native ∧
        e'.hostMethod? native ref.key = some (native, b) ∧
        e'.mayUse (e.typeAt t).scope native b.declaring b.declared = true := by
    have permitted := e.mayUse_own (s := (e.typeAt t).scope) native b.declared
    rw [hosted.host.2, housed.name_eq hosted.known, ← declaring] at permitted
    exact ⟨(class?_of_skeleton_eq same _ _).trans (owns ▸ hosted.known),
      (hostMethod?_of_skeleton_eq same _ _).trans (housed.hostMethod?_of_own ⟨_, hosted.known⟩ own),
      (mayUse_of_skeleton_eq same _ _ _).trans permitted⟩
  constructor
  · obtain ⟨k, small, calls⟩ := calls
    refine ⟨k, small, fun n args e' same room length receives => ?_⟩
    obtain ⟨known, linked, permitted⟩ := links e' same
    have during : e.During e' := ⟨e.depth, same⟩
    rw [callPrivileged_receives (during.live t ▸ declares) receives,
      ← calls n args e' same room (length.trans count)]
    cases isStatic : shape.isStatic with
    | true =>
      have static_ : kind = .static := of_decide_eq_true (fits.symm.trans isStatic)
      subst static_
      exact Machine.callNative_linked (m := Machine.of _ _) known linked accepts permitted args
    | false =>
      obtain ⟨o, rest, rfl, isObject⟩ := receives.resolve_left (by rw [isStatic]; exact nofun)
      show (Machine.of _ _).callNative native kind ref _ e' = _
      rw [Machine.callNative_object (m := Machine.of _ _) known linked accepts permitted
        (selects isStatic), owns, if_pos isObject, if_pos (isPrivate isStatic)]
  · intro instance_ n o rest e' same stranger
    obtain ⟨known, linked, permitted⟩ := links e' same
    show (Machine.of _ _).callNative native kind ref _ e' = _
    rw [Machine.callNative_object (m := Machine.of _ _) known linked accepts permitted
      (selects instance_), owns, stranger]
    rfl
  · intro instance_ n rest e' same
    obtain ⟨known, linked, permitted⟩ := links e' same
    exact Machine.callNative_null (m := Machine.of _ _) known linked accepts permitted
      (selects instance_) rest

/-- How the engine's instruction for a call of a private member of a type compares with the call
that the host class of the type makes behind a guard, where live versions find the member.  The
instruction takes the operands that the member has, which are those of the call exactly when
the kind of the call fits, and looks at no receiver but whether it is an object.  The guard
refuses a kind that does not fit.  Else the call is made by live versions or, if the host links
it to a method of the same kind, by the host. -/
structure ComparesPrivateCall (e : Engine) (t : TypeRef) (native : ClassRef) (kind : InvokeKind)
    (ref : MethodRef) (shape : MethodShape) (live : LiveMethod) : Prop where
  executes : ∀ (m : Machine) (f : Frame), m.scope = (e.typeAt t).scope →
    m.execute (.liveSpecial (e.typeAt t).id ref) f e =
      Machine.calling shape.ownKind ref (m.callPrivileged t ref) .next f e
  heedless : ∀ (m : Machine) (args : List Value) (e' : Engine), e'.skeleton = e.skeleton →
    m.callPrivileged t ref args e' =
      if shape.isStatic then m.callLive t ref.key args e'
      else match receiverOf args ref.text with
        | .ok _ => m.callLive t ref.key args e'
        | .error error => .error (.error error) e'
  operands : shape.ownKind.argCount ref = kind.argCount ref ↔
    shape.isStatic = decide (kind = .static)
  refused : shape.isStatic ≠ decide (kind = .static) → ∀ (m : Machine) (g : Frame) (id : TypeId),
    m.scope = (e.typeAt t).scope → g.cls = native →
    g.method.code[g.pc + 1]? = some (.invoke kind ref) →
    m.Remembers e id native kind ref.key live →
    ∃ e', e'.skeleton = e.skeleton ∧ m.guardedStep (.invokeCheck id) (.invoke kind ref) g e =
      .error (.error (.classChange (.kind ref.text shape.isStatic .method))) e'
  guarded : shape.isStatic = decide (kind = .static) → ∀ (m : Machine) (g : Frame) (id : TypeId),
    m.scope = (e.typeAt t).scope → g.cls = native →
    g.method.code[g.pc + 1]? = some (.invoke kind ref) →
    m.Remembers e id native kind ref.key live →
    ∃ e', e'.skeleton = e.skeleton ∧ m.guardedStep (.invokeCheck id) (.invoke kind ref) g e =
      if Machine.linksTo e native kind ref.key live then
        Machine.calling kind ref (m.callNative native kind ref) .next (g.goTo (g.pc + 1)) e'
      else Machine.calling kind ref (m.callDynamic native kind ref live) .skip g e'
  dynamic : shape.isStatic = decide (kind = .static) →
    (shape.isAbstract = true → shape.isStaticInit = false) →
    e.KeepsCalls t ref shape fun n =>
      (Machine.of (e.typeAt t).scope n).callDynamic native kind ref live
  native : shape.isStatic = decide (kind = .static) → shape.isAbstract = false →
    ∀ m, (e.typeAt t).Enterable ref.key m → m.modifiers.isStatic = shape.isStatic →
    (shape.isStatic = false → m.modifiers.isPrivate = true) →
    (e.typeAt t).slots.slots.length ≤ UInt32.size →
    Machine.linksTo e native kind ref.key live = true ∧ e.KeepsCalls t ref shape fun n =>
      (Machine.of (e.typeAt t).scope n).callNative native kind ref

theorem comparesPrivateCall {v : LiveVersion} (housed : e.Housed) (hosted : e.Hosted t native)
    (chronicled : e.Chronicled t) (balanced : (e.typeAt t).Balanced)
    (published : (e.typeAt t).published = some v)
    (reloaded : (e.scopeAt (e.typeAt t).scope).epoch ≠ 0) (other : kind ≠ .special)
    (owns : ref.owner = (e.typeAt t).name)
    (declares : (e.typeAt t).live.shape.method? ref.key = some shape)
    (isPrivate : shape.modifiers.isPrivate = true)
    (found : e.resolveMethod (e.typeAt t).scope native ref.key = .ok (some live))
    (managed : live.managed = some t) (modifiers : live.modifiers = shape.modifiers)
    (declaring : live.declaring = e.nameOf native) :
    e.ComparesPrivateCall t native kind ref shape live := by
  have known : e.class? (e.typeAt t).scope ref.owner = some native := owns ▸ hosted.known
  have static : live.isStatic = shape.isStatic := congrArg Modifiers.isStatic modifiers
  have recorded := chronicled.recorded published
  have live_v : (e.typeAt t).live = v := ManagedType.live_of_published published
  constructor
  · intro m f scope
    refine Machine.execute_liveSpecial ?_ declares f
    rw [scope]
    exact hosted.registered
  · intro m args e' same
    have during : e.During e' := ⟨e.depth, same⟩
    exact Machine.callPrivileged_apply (during.live t ▸ declares) args
  · exact shape.argCount_ownKind_iff kind ref
  · intro misfit m g id scope acts next remembers
    rw [← scope] at reloaded known found
    refine Machine.guardedStep_invoke_misfit reloaded next known found ?_ remembers
    rw [checkInvokeKind_eq, static, if_neg misfit]
  · intro fits m g id scope acts next remembers
    have accepts : checkInvokeKind kind ref live.isStatic = .ok () := by
      rw [checkInvokeKind_eq, static, if_pos fits]
    have permitted : e.mayUse m.scope g.cls live.declaring live.modifiers = true := by
      have permitted := e.mayUse_own (s := (e.typeAt t).scope) native live.modifiers
      rw [hosted.host.2, ← declaring] at permitted
      rw [scope, acts]
      exact permitted
    rw [← scope] at reloaded known found
    obtain ⟨e', same, guarded⟩ := Machine.guardedStep_invoke reloaded next known found accepts
      remembers permitted
    refine ⟨e', same, ?_⟩
    rw [guarded, Machine.execute_invoke, acts, show (g.goTo (g.pc + 1)).cls = native from acts]
  · refine fun fits early => keepsCalls_dynamic declares isPrivate
      (fun abstract_ m args e' same => ?_) managed modifiers owns other fits
    rw [hosted.callLive_abstract recorded balanced live_v (live_v ▸ declares) abstract_
      (early abstract_) same, declaring, housed.name_eq hosted.known]
  · intro fits concrete m enterable kind_ private_ few
    obtain ⟨b, own, static_b, declaring_b, private_b, calls⟩ := hosted.calls_own chronicled.verified
      recorded balanced published few enterable (live_v ▸ declares) concrete kind_.symm
    have named : b.declaring = (e.typeAt t).name := declaring_b.trans chronicled.named
    refine ⟨?_, keepsCalls_native housed hosted declares owns other fits own static_b named
      (fun instance_ => private_b (private_ instance_)) calls⟩
    unfold Machine.linksTo
    rw [housed.hostMethod?_of_own ⟨_, hosted.known⟩ own]
    dsimp only
    rw [static_b, static, declaring]
    simp

/-- In a method of an executor the calls of its source of a private member of the type are
instructions of the engine, whatever their kind. -/
def ReplacesPrivateCalls (e : Engine) (t : TypeRef) (w : LiveVersion) (source : MethodDef)
    (m : Method) : Prop :=
  ∀ (index : Nat) (kind : InvokeKind) (ref : MethodRef), kind ≠ .special →
    ref.owner = (e.typeAt t).name →
    ((w.shape.method? ref.key).any fun d => d.modifiers.isPrivate) = true →
    source.code[index]? = some (.invoke kind ref) →
    ∃ place : Nat, m.code[place]? = some (.liveSpecial (e.typeAt t).id ref)

theorem CompiledFrom.replaces_private {w : LiveVersion} {source : MethodDef} {m : Method}
    (compiled : e.CompiledFrom t w source m) : e.ReplacesPrivateCalls t w source m := by
  intro index kind ref other owns isPrivate here
  obtain ⟨native, -, -, hosted, -⟩ := id compiled
  refine compiled.exists_privileged hosted here ?_ rfl
  have own : (decide (ref.owner = (e.executorContext t native w.shape).typeName) &&
      ((e.executorContext t native w.shape).live.method? ref.key).any
        fun d => d.modifiers.isPrivate) = true := by
    rw [Bool.and_eq_true]
    exact ⟨decide_eq_true owns, isPrivate⟩
  unfold ExecutorContext.privileged?
  cases kind with
  | special => exact absurd rfl other
  | static | virtual | interface =>
    dsimp only
    rw [if_pos own]
    rfl

/-- While code runs the books of a type stay balanced. -/
theorem During.balanced (during : e.During e') (reachable : e.Reachable)
    (managed : e'.IsManaged t) : (e'.typeAt t).Balanced := by
  have books := (reachable.balanced t (during.managed managed).1.1).books
  have same : (e'.typeAt t).skeleton.books = (e.typeAt t).skeleton.books :=
    congrArg ManagedType.books (during.typeAt t)
  have same : (e'.typeAt t).books = (e.typeAt t).books := same
  rw [← same] at books
  exact books.of_books

end Engine

/-- In a reachable engine let the version in force of a managed type have an executor, which
was compiled from a version with the same digest, so from the same methods unless two
payloads have one digest.  In its methods every call of a private member of the type is an
instruction of the engine.  That takes as many operands as the call exactly when the kind of
the call fits the member, and only then it does what the guarded call does that the host class
of the type makes, for an object of the type or for null.  For another kind the guarded call
is refused, and for an object of another class too, and the engine's instruction calls the
member. -/
theorem executor_private_calls_iff {e₀ e : Engine} {t : TypeRef} {v : LiveVersion} {a : Artifacts}
    (reachable : e₀.Reachable) (during : e₀.During e) (managed : e.IsManaged t)
    (published : (e.typeAt t).published = some v) (generated : v.artifacts = some a) :
    ∃ native, (e.typeAt t).native = some native ∧
      (∃ w ∈ (e.typeAt t).versions,
        (TypeUnit.DigestsCollide w.data v.data ∨
          w.unit.methods = v.unit.methods ∧ w.shape.methods = v.shape.methods) ∧
        ∀ key m, (e.classAt a.executor).method? key = some m →
          ∃ source ∈ w.unit.bodied, e.CompiledFrom t w source m ∧
            e.ReplacesPrivateCalls t w source m) ∧
      ∀ (kind : InvokeKind) (ref : MethodRef) (shape : MethodShape), kind ≠ .special →
        ref.owner = (e.typeAt t).name → v.shape.method? ref.key = some shape →
        shape.modifiers.isPrivate = true →
        ∃ live, e.resolveMethod (e.typeAt t).scope native ref.key = .ok (some live) ∧
          e.ComparesPrivateCall t native kind ref shape live := by
  have chronicled := during.chronicled reachable managed
  have recorded := chronicled.recorded published
  have housed := during.housed reachable.housed reachable.grounded
  have reloaded := during.epoch_ne_zero reachable managed published
  obtain ⟨native, hosted⟩ := housed.hosts t managed
  obtain ⟨w, mem, alike, shaped, -, sources⟩ := recorded.sources generated
  refine ⟨native, hosted.native, ⟨w, mem, alike.imp_right fun same => ⟨same, ?_⟩, ?_⟩, ?_⟩
  · rw [shaped, TypeShape.eq_ofUnit recorded.shaped]
    exact congrArg (List.map MethodShape.ofDef) same
  · intro key m found
    obtain ⟨source, inUnit, -, compiled⟩ := sources key m found
    exact ⟨source, inUnit, compiled, compiled.replaces_private⟩
  · intro kind ref shape other owns declares isPrivate
    have live_v : (e.typeAt t).live = v := ManagedType.live_of_published published
    obtain ⟨live, found, managed', modifiers, declaring⟩ :=
      hosted.resolveMethod_own (live_v.symm ▸ declares)
    exact ⟨live, found, Engine.comparesPrivateCall housed hosted chronicled
      (during.balanced reachable managed) published reloaded other owns (live_v.symm ▸ declares)
      isPrivate found managed' modifiers declaring⟩

namespace Shifting

/-- A call of a static method as if it were one of an object. -/
def call : MethodRef := ⟨"app.T", "m", ⟨[], .int⟩⟩

/-- The private static method. -/
def seven : MethodDef :=
  .make "m" ⟨[], .int⟩ (.privateBit ||| .staticBit) [.constInt 7, .retValue]

/-- The method that makes the call. -/
def caller (rest : List Instr) : MethodDef :=
  .make "run" ⟨[.ref "app.T"], .int⟩ (.publicBit ||| .staticBit)
    (.load 0 :: .invoke .virtual call :: rest)

/-- A type with both. -/
def calling (rest : List Instr) : TypeUnit :=
  ((TypeUnit.named "app.T").addMethod seven).addMethod (caller rest)

/-- The body of the calling method after the reload. -/
def more : List Instr := [.constInt 0, .arith .add, .retValue]

/-- A scope in which the type was defined. -/
def defined : Engine := (Engine.opened { included := ["app.*"] }).defining 4 (calling [.retValue])

/-- The scope after a reload in which the body of the calling method is another. -/
def engine : Engine := defined.reloading 4 0 "again" (calling more)

/-- The method of the host class, with guards. -/
def guarded : Method where
  key := ⟨"run", ⟨[.ref "app.T"], .int⟩⟩
  modifiers := .publicBit ||| .staticBit
  declared := .publicBit ||| .staticBit
  declaring := "app.T"
  maxLocals := 1
  code := [.entryCheck 0 1, .load 0, .invokeCheck 0, .invoke .virtual call, .retValue]

/-- The method of the executor. -/
def compiled : Method where
  key := ⟨"run", ⟨[.ref "app.T"], .int⟩⟩
  modifiers := .publicBit ||| .staticBit ||| .syntheticBit
  declared := .publicBit ||| .staticBit ||| .syntheticBit
  declaring := "app.T$$E1"
  maxLocals := 1
  code := .load 0 :: .liveSpecial 0 call :: more

/-- What the live version declares. -/
def shape : MethodShape := .ofDef seven

set_option maxRecDepth 100000 in
theorem outcomes :
    defined.types.size = 1 ∧
    (engine.IsManaged 0 ∧ (engine.typeAt 0).published.isSome ∧
      ((engine.typeAt 0).name, (engine.typeAt 0).id, (engine.typeAt 0).scope) = ("app.T", 0, 0) ∧
      (engine.typeAt 0).native = some 0 ∧ (engine.typeAt 0).live.artifacts = some ⟨1, 2⟩ ∧
      (engine.typeAt 0).live.unit = calling more) ∧
    ((engine.typeAt 0).live.shape.method? call.key = some shape ∧
      (engine.scopeAt 0).routes.get? (0, .virtual, call.key) = none) ∧
    (engine.classAt 0).method? guarded.key = some guarded ∧
    (engine.classAt 2).method? (executorKey "app.T" (.ofDef (caller more))) = some compiled ∧
    Exec.answers ((Machine.of 0 8).execute (.liveSpecial 0 call)
      ⟨2, compiled, [.null], [.null], 1⟩ engine) = true := by
  decide +kernel

theorem reachable : engine.Reachable := by
  obtain ⟨types, -⟩ := outcomes
  have opened : (Engine.opened { included := ["app.*"] }).Reachable := Engine.reachable_opened _
  have both : defined.Reachable := opened.defining 4 (calling [.retValue]) (by decide)
  exact both.reloading 4 0 "again" (calling more) (by rw [types]; exact Nat.one_pos)

theorem published : (engine.typeAt 0).published = some (engine.typeAt 0).live :=
  ManagedType.published_eq_live outcomes.2.1.2.1

end Shifting

open Shifting in
/-- The executor calls the static method and leaves on the stack what the call takes, which the
guard refuses to make. -/
theorem executor_private_calls_shifting :
    shape.ownKind.argCount call ≠ InvokeKind.argCount .virtual call ∧
    (engine.classAt 0).method? guarded.key = some guarded ∧
    Exec.answers ((Machine.of 0 8).execute (.liveSpecial 0 call)
      ⟨2, compiled, [.null], [.null], 1⟩ engine) = true ∧
    ∃ e', (Machine.of 0 8).guardedStep (.invokeCheck 0) (.invoke .virtual call)
      ⟨0, guarded, [.null], [.null], 2⟩ engine =
        .error (.error (.classChange (.kind call.text true .method))) e' := by
  obtain ⟨-, ⟨managed, -, ids, hosted, generated, -⟩, ⟨declares, fresh⟩, host, -, runs⟩ :=
    outcomes
  obtain ⟨name, id, scope⟩ : _ = _ ∧ _ = _ ∧ _ = _ := by simpa only [Prod.mk.injEq] using ids
  have reachable := reachable
  have published := published
  -- What matters about the engine is known; its definition is not to be unfolded.
  generalize engine = e at *
  obtain ⟨native, hosted', -, compares⟩ :=
    executor_private_calls_iff reachable (.refl e) managed published generated
  obtain rfl : 0 = native := Option.some.inj (hosted.symm.trans hosted')
  obtain ⟨live, -, compares⟩ := compares .virtual call shape nofun (by rw [name]; rfl) declares
    (by decide)
  have misfit : shape.isStatic ≠ decide (InvokeKind.virtual = .static) := by decide
  refine ⟨fun same => misfit (compares.operands.1 same), host, runs, ?_⟩
  obtain ⟨e', -, refused⟩ := compares.refused misfit (Machine.of 0 8)
    ⟨0, guarded, [.null], [.null], 2⟩ 0 scope.symm rfl rfl (fun route known => by
      cases known.symm.trans fresh)
  exact ⟨e', refused⟩

open Shifting in
/-- The instruction that executors have for a call of a private member of their type does not
refuse a kind of call that does not fit the member. -/
theorem executor_private_calls_shifted :
    ¬ ∀ (e : Engine) (t : TypeRef) (v : LiveVersion) (a : Artifacts) (native : ClassRef),
      e.Reachable → e.IsManaged t → (e.typeAt t).native = some native →
      (e.typeAt t).published = some v → v.artifacts = some a →
      ∀ source ∈ v.unit.bodied, ∀ (m : Method) (index place : Nat) (kind : InvokeKind)
        (ref : MethodRef) (shape : MethodShape), kind ≠ .special →
        ref.owner = (e.typeAt t).name → v.shape.method? ref.key = some shape →
        shape.modifiers.isPrivate = true → shape.isStatic ≠ decide (kind = .static) →
        source.code[index]? = some (.invoke kind ref) →
        (e.classAt a.executor).method? (executorKey (e.typeAt t).name (.ofDef source)) = some m →
        m.code[place]? = some (.liveSpecial (e.typeAt t).id ref) →
        ∀ (fuel : Nat) (locals stack : List Value),
          Exec.answers ((Machine.of (e.typeAt t).scope fuel).execute
            (.liveSpecial (e.typeAt t).id ref) ⟨a.executor, m, locals, stack, place⟩ e) =
              false := by
  intro right
  obtain ⟨-, ⟨managed, -, ids, hosted, generated, unit_eq⟩, ⟨declares, -⟩, -, compiles, runs⟩ :=
    outcomes
  obtain ⟨name, id, scope⟩ : _ = _ ∧ _ = _ ∧ _ = _ := by simpa only [Prod.mk.injEq] using ids
  have reachable := reachable
  have published := published
  generalize engine = e at *
  have right := right e 0 _ ⟨1, 2⟩ 0 reachable managed hosted published generated
  rw [unit_eq, name, id, scope] at right
  have inUnit : caller more ∈ (calling more).bodied := by decide
  have fails : Exec.answers _ = false := right _ inUnit compiled 1 1 .virtual call shape nofun rfl
    declares (by decide) (by decide) rfl compiles rfl 8 [.null] [.null]
  exact Bool.eq_false_iff.1 fails runs

end LiveUpdate
