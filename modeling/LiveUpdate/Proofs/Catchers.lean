import LiveUpdate.Proofs.Instrumenting
import LiveUpdate.Proofs.LinkedFields
import LiveUpdate.Proofs.Seating
import LiveUpdate.Proofs.Selection
import LiveUpdate.Proofs.Wiring

/-!
# What catchers stand for

A catcher is generated for a method that virtual calls select in the parent of a host class, and
its code calls the parent's method non-virtually by its name.  A name also means methods that
virtual calls pass over, those that are static or private.  So a catcher stands for what it hides
exactly when the nearest declaration above the host class is neither.
-/

set_option autoImplicit false

namespace LiveUpdate

open Exec

namespace Machine

variable {m : Machine} {e : Engine}

/-- The check in front of a body lets a call pass whose slot has the host's own body. -/
theorem replacement?_host {t : TypeRef} {id : TypeId} {slot : Nat} {b : Method} {args : List Value}
    (registered : e.typeWithId? m.scope id = some t)
    (entry : (e.typeAt t).live.dispatch.entry? slot = some .host) :
    m.replacement? e id slot b args = none := by
  unfold replacement?
  rw [registered]
  dsimp only [Option.bind_eq_bind, Option.bind_some]
  cases published : (e.typeAt t).published with
  | none => rfl
  | some v =>
    rw [ManagedType.live_of_published published] at entry
    dsimp only [Option.bind_some]
    rw [entry]
    rfl

/-- What is done as one more call counts only from the depth at which it is done. -/
theorem asCall_congr {x y : Run Value}
    (same : x { e with depth := e.depth + 1 } = y { e with depth := e.depth + 1 }) :
    m.asCall x e = m.asCall y e := by
  unfold asCall
  rw [counted_apply, counted_apply, same]

/-- Where there is room for a call, one more call ends as what is done in it. -/
theorem asCall_error {x : Run Value} {stop : Stop RunError}
    (fails : x { e with depth := e.depth + 1 } = .error stop { e with depth := e.depth + 1 })
    (room : e.depth < (e.scopeAt m.scope).options.maxCallDepth) :
    m.asCall x e = .error stop e := by
  unfold asCall
  rw [if_neg (Nat.not_le_of_lt room), counted_apply, fails]
  rfl

theorem asCall_ok {x : Run Value} {value : Value}
    (gives : x { e with depth := e.depth + 1 } = .ok value { e with depth := e.depth + 1 })
    (room : e.depth < (e.scopeAt m.scope).options.maxCallDepth) :
    m.asCall x e = .ok value e := by
  unfold asCall
  rw [if_neg (Nat.not_le_of_lt room), counted_apply, gives]
  rfl

/-- Forwarding code behind a check that lets the call pass makes its call one call deeper. -/
theorem enter_forwarding {c : ClassRef} {b : Method} {id : TypeId} {slot : UInt32} {owner : String}
    {args : List Value} (code : b.code = .entryCheck id slot :: forwardingCode owner b.key)
    (concrete : b.isAbstract = false) (receives : b.isStatic = false)
    (count : args.length = b.key.sig.arity + 1) (small : b.key.sig.arity + 1 < UInt16.size)
    (passes : m.replacement? e id slot.toNat b args = none) (fuel : Nat) :
    m.enter (fuel + b.key.sig.arity + 4) c b args e =
      m.asCall (taking b.key.sig
        (m.callNative c .special ⟨owner, b.key.name, b.key.sig⟩ args)) e := by
  have fits : args.length = b.argCount := by
    unfold Method.argCount
    rw [count, receives]
    rfl
  rw [enter_eq _ _ concrete fits]
  unfold enterBody
  simp only [receives, Bool.false_and, Bool.false_eq_true, if_false]
  show m.asCall (m.run (fuel + b.key.sig.arity + 4) (.enter c b args)) e = _
  refine asCall_congr ?_
  have here : (Frame.enter c b args).instr? = some (.entryCheck id slot) := by
    show b.code[0]? = _
    rw [code]
    rfl
  have executes : m.execute (.entryCheck id slot) (.enter c b args) { e with depth := e.depth + 1 } =
      .ok (.next, .enter c b args) { e with depth := e.depth + 1 } := by
    have passes : m.replacement? { e with depth := e.depth + 1 } id slot.toNat b args = none :=
      passes
    have checks := checkEntry_apply (m := m) id slot.toNat (.enter c b args)
      { e with depth := e.depth + 1 }
    rw [arguments_enter c fits, show (Frame.enter c b args).method = b from rfl, passes] at checks
    exact checks
  rw [run_succ here, executes]
  dsimp only
  rw [show fuel + b.key.sig.arity + 3 = fuel + 2 + args.length by omega]
  refine run_forwardingCode ((Frame.enter c b args).goTo 1) (List.prefix_append _ _) count
    (Nat.le_of_lt (count ▸ small)) rfl ?_ fuel
  show b.code.drop 1 = _
  rw [code]
  rfl

/-- Call the method that a name means: it must have a receiver and be one that the caller may
use. -/
def callNamed (m : Machine) (caller : ClassRef) (named : ClassRef × Method) (ref : MethodRef)
    (args : List Value) : Run Value := fun e =>
  if named.2.isStatic then .error (.error (.classChange (.kind ref.text true .method))) e
  else if e.mayUse m.scope caller named.2.declaring named.2.declared then
    m.call named.1 named.2 args e
  else .error (.error (e.refusal m.scope caller named.2.declared ref.text)) e

/-- A non-virtual call on an object of what the caller extends calls the method that the name
means. -/
theorem callNative_special_apply {caller p : ClassRef} {ref : MethodRef} {named : ClassRef × Method}
    (known : e.class? m.scope ref.owner = some p) (means : e.hostMethod? p ref.key = some named)
    (inherits : e.checkNonVirtual m.scope caller ref = .ok ()) (o : ObjectRef)
    (rest : List Value) :
    m.callNative caller .special ref (.object o :: rest) e =
      m.callNamed caller named ref (.object o :: rest) e := by
  obtain ⟨d, found⟩ := named
  unfold callNative callNamed Engine.requireClass
  rw [bind_apply, check_apply, known]
  dsimp only
  rw [bind_apply, require_apply, means]
  dsimp only
  rw [bind_apply, ofResult_apply, checkInvokeKind_of_receiver (by decide)]
  cases found.isStatic with
  | true => rfl
  | false =>
    simp only [Bool.false_eq_true, if_false]
    rw [bind_apply, check_apply, Engine.checkAccess_eq]
    by_cases permitted : e.mayUse m.scope caller found.declaring found.declared = true
    · rw [if_pos permitted, if_pos permitted]
      dsimp only
      rw [bind_apply, check_apply, inherits]
      rfl
    · rw [if_neg permitted, if_neg permitted]

end Machine

namespace HostForm

/-- The code of a catcher stands behind the check for the slot of the catcher. -/
theorem code_catcher {u : TypeUnit} {parent : Option Class} (id : TypeId) {name owner : String}
    {key : MemberKey} (plain : (⟨name, key.sig⟩ : MemberKey).isStaticInit = false)
    (mem : forwardingMethod name owner key .catcherBit ∈ generated u parent) :
    ∃ slot, (place u id parent (forwardingMethod name owner key .catcherBit)).code =
      .entryCheck id slot :: forwardingCode owner key := by
  have unmarked : (forwardingMethod name owner key .catcherBit).modifiers.contains
      .superDispatcherBit = false := by
    show (Modifiers.publicBit ||| .syntheticBit ||| .catcherBit).contains _ = false
    decide
  have named : (forwardingMethod name owner key .catcherBit).isStaticInit = false := plain
  have bodied : (forwardingCode owner key).isEmpty = false := by
    unfold forwardingCode
    simp
  have checked : isChecked (forwardingMethod name owner key .catcherBit) = true := by
    unfold isChecked
    rw [named, unmarked, show (forwardingMethod name owner key .catcherBit).code =
      forwardingCode owner key from rfl, bodied]
    rfl
  obtain ⟨slot, known⟩ := slotOf?_of_isChecked id (List.mem_append_right u.methods mem) checked
  refine ⟨UInt32.ofNat slot, (code_place_eq id known checked).trans ?_⟩
  exact relocate_check_of_unmoved forwardingCode_unmoved _

end HostForm

namespace Engine

variable {e e₀ : Engine} {s : ScopeRef} {t : TypeRef} {native p : ClassRef} {key : MemberKey}
  {b : Method}

/-- The host class of a managed type has a catcher under a key: a method that is marked as one, and
that the type was not defined with. -/
structure HasCatcher (e : Engine) (t : TypeRef) (native : ClassRef) (key : MemberKey)
    (b : Method) : Prop where
  free : (e.typeAt t).first.unit.method? key = none
  found : (e.classAt native).method? key = some b
  marked : b.modifiers.contains .catcherBit = true

/-- What a catcher was generated for, and its code. -/
structure Catches (e : Engine) (t : TypeRef) (native p : ClassRef) (b selected : Method) :
    Prop where
  parent : (e.classAt native).parent = some p
  selects : (e.classAt p).vtable.get? b.key = some selected
  reachable : isReachable (e.typeAt t).name b.key selected = true
  concrete : b.isAbstract = false
  receives : b.isStatic = false
  code : ∃ slot, b.code = .entryCheck (e.typeAt t).id slot :: forwardingCode (e.nameOf p) b.key

/-- A catcher was generated for a method that virtual calls select in the parent. -/
theorem Hosted.catches (hosted : e.Hosted t native) (lineage : e.Lineage)
    (verified : (e.typeAt t).first.unit.verify = .ok ())
    (named : (e.typeAt t).first.unit.name = (e.typeAt t).name)
    (catcher : e.HasCatcher t native key b) :
    ∃ p selected, b.key = key ∧ e.Catches t native p b selected := by
  obtain ⟨names, parent, parent_eq, -, g, mem, keyed, bound⟩ :=
    hosted.exists_generated verified catcher.free catcher.found
  let u := (e.typeAt t).first.unit.withGuards (e.optionsOf t) names
  let above := parent.map fun p => (e.classAt p).skeleton
  have b_key : b.key = key := by
    rw [bound]
    exact (HostForm.key_place ..).trans keyed
  have modifiers : b.modifiers = g.modifiers := by
    rw [bound]
    show (HostForm.place u (e.typeAt t).id above g).modifiers = _
    rw [HostForm.modifiers_place, (HostForm.widen_generated mem).2]
  have code : b.code = (HostForm.place u (e.typeAt t).id above g).code := congrArg Method.code bound
  have marked : g.modifiers.contains .catcherBit = true := modifiers ▸ catcher.marked
  obtain ⟨cls, some_cls, entry, inherited, made⟩ := HostForm.of_mem_generated u mem
  obtain ⟨p, some_p, rfl⟩ := Option.map_eq_some_iff.1 some_cls
  -- super-dispatchers are not marked as catchers
  rcases made with rfl | rfl
  · obtain ⟨listed, reachable⟩ := of_mem_inheritedMethods inherited
    have selects : (e.classAt p).vtable.get? entry.1 = some entry.2 :=
      (Table.get?_eq_some_iff (lineage.nodup_vtable p)).2 listed
    obtain ⟨owner, -, declared, selectable, -⟩ := lineage.nearest_of_selected selects
    have plain := lineage.isStaticInit_of_selectable declared selectable
    obtain ⟨slot, forwards⟩ := HostForm.code_catcher (e.typeAt t).id plain mem
    obtain rfl : entry.1 = key := keyed
    refine ⟨p, entry.2, b_key, parent_eq.trans some_p, b_key ▸ selects, ?_, ?_, ?_, slot, ?_⟩
    · rw [b_key, ← named]
      exact reachable
    · exact (congrArg Modifiers.isAbstract modifiers).trans (isAbstract_forwardingMethod (.inl rfl))
    · exact (congrArg Modifiers.isStatic modifiers).trans (HostForm.modifiers_generated mem).2.1
    · rw [b_key]
      exact code.trans forwards
  · exact absurd marked (show ¬ (Modifiers.publicBit ||| .syntheticBit |||
      .superDispatcherBit).contains .catcherBit = true by decide)

/-- The two methods above a catcher: the one that virtual calls select in the parent, and the
nearest one under the key, which the parent's name means. -/
structure Covers (e : Engine) (s : ScopeRef) (native p : ClassRef) (key : MemberKey)
    (owner : ClassRef) (selected : Method) (nearest : ClassRef × Method) : Prop where
  known : e.class? s (e.nameOf p) = some p
  inherits : e.checkNonVirtual s native ⟨e.nameOf p, key.name, key.sig⟩ = .ok ()
  selects : (e.classAt p).vtable.get? key = some selected
  concrete : selected.isAbstract = false
  above : e.ancestor? p selected.declaring = some owner
  selectable : selected.isSelectable = true
  permitted : e.mayUse s native selected.declaring selected.declared = true
  means : e.hostMethod? p key = some nearest
  open_ : nearest.2.isSelectable = (!nearest.2.isStatic && !nearest.2.modifiers.isPrivate)
  agree : nearest.2.isSelectable = true → nearest = (owner, selected)

theorem Catches.covers {selected : Method} (catches : e.Catches t native p b selected)
    (housed : e.Housed) (lineage : e.Lineage) (hosted : e.Hosted t native) :
    ∃ owner nearest, e.nearest? p b.key = some nearest ∧
      e.Covers (e.typeAt t).scope native p b.key owner selected nearest := by
  have home : e.Homes (e.typeAt t).scope native := ⟨_, hosted.known⟩
  obtain ⟨superclasses, parents⟩ := housed.superclasses_eq home
  have home_p := (parents p catches.parent).2
  rw [catches.parent] at superclasses
  obtain ⟨owner, mem, declared, selectable, nearest, found, agree⟩ :=
    lineage.nearest_of_selected catches.selects
  have declaring := (lineage.method_eq declared).1
  have reachable := catches.reachable
  unfold isReachable at reachable
  simp only [Bool.and_eq_true, Bool.not_eq_true'] at reachable
  obtain ⟨⟨⟨⟨⟨concrete, -⟩, -⟩, plain⟩, -⟩, permits⟩ := reachable
  have plain' := lineage.isStaticInit_of_selectable declared selectable
  have acts := hosted.host.2 (e.typeAt t).scope
  have extends_ : e.descendsFrom native selected.declaring = true := by
    unfold descendsFrom ancestor?
    rw [List.find?_isSome]
    exact ⟨owner, List.mem_cons_of_mem _ (superclasses ▸ mem), decide_eq_true declaring.symm⟩
  refine ⟨owner, nearest, found, ?_, ?_, catches.selects, concrete, ?_, selectable, ?_,
    housed.hostMethod?_of_nearest home_p plain plain' found, ?_, agree⟩
  · obtain ⟨name, known⟩ := home_p
    rw [housed.name_eq known]
    exact known
  · rw [checkNonVirtual_eq_ok_iff, acts]
    exact .inr (housed.descendsFrom_parent home catches.parent)
  · rw [declaring]
    exact housed.ancestor?_eq home_p mem
  · unfold mayUse
    rw [acts]
    dsimp only
    rw [housed.name_eq hosted.known, extends_]
    exact permits
  · obtain ⟨d, -, here⟩ := List.exists_of_findSome?_eq_some found
    obtain ⟨m, declared, rfl⟩ := Option.map_eq_some_iff.1 here
    unfold Method.isSelectable Method.isConstructor
    rw [(lineage.method_eq declared).2, plain, plain']
    simp

/-- A catcher has room for what it passes on. -/
theorem Catches.arity_lt {selected : Method} (catches : e.Catches t native p b selected)
    (seated : e.AllSeated) : b.key.sig.arity + 1 < UInt16.size := by
  have lt : p < e.classes.size :=
    lt_of_classAt (fun cls => cls.vtable.get? b.key = some selected) catches.selects nofun
  exact ((seated p lt).arity_lt (fun _ accepted => accepted)
    (mem_inheritedMethods catches.selects catches.reachable)).2

/-- The slot that the check in front of a body names has the host's own body. -/
def EntersHost (e : Engine) (t : TypeRef) (b : Method) : Prop :=
  ∃ id slot rest, b.code = .entryCheck id slot :: rest ∧
    (e.typeAt t).live.dispatch.entry? slot.toNat = some .host

/-- A call on an object that enters a method of a class does, one call deeper, what is done by the
method that virtual calls select in the parent, whatever the methods do that are called. -/
def StandsFor (e : Engine) (s : ScopeRef) (native p : ClassRef) (b : Method) : Prop :=
  ∀ (m : Machine) (fuel : Nat) (o : ObjectRef) (rest : List Value), m.scope = s →
    rest.length = b.key.sig.arity →
    m.enter (fuel + b.key.sig.arity + 4) native b (.object o :: rest) e =
      m.asCall (taking b.key.sig (m.callSelected p b.key (.object o :: rest))) e

/-- A call that enters a catcher calls, one call deeper, the method that the parent's name
means. -/
def ForwardsTo (e : Engine) (s : ScopeRef) (native p : ClassRef) (b : Method)
    (nearest : ClassRef × Method) : Prop :=
  ∀ (m : Machine) (fuel : Nat) (o : ObjectRef) (rest : List Value), m.scope = s →
    rest.length = b.key.sig.arity →
    m.enter (fuel + b.key.sig.arity + 4) native b (.object o :: rest) e =
      m.asCall (taking b.key.sig (m.callNamed native nearest
        ⟨e.nameOf p, b.key.name, b.key.sig⟩ (.object o :: rest))) e

theorem Catches.forwardsTo {selected : Method} {owner : ClassRef} {nearest : ClassRef × Method}
    (catches : e.Catches t native p b selected) (hosted : e.Hosted t native)
    (covers : e.Covers (e.typeAt t).scope native p b.key owner selected nearest)
    (small : b.key.sig.arity + 1 < UInt16.size) (enters : e.EntersHost t b) :
    e.ForwardsTo (e.typeAt t).scope native p b nearest := by
  intro m fuel o rest scope count
  obtain ⟨slot, code⟩ := catches.code
  obtain ⟨id, slot', rest', code', entry⟩ := enters
  obtain ⟨check, -⟩ := List.cons.inj (code.symm.trans code')
  obtain ⟨rfl, rfl⟩ := Instr.entryCheck.inj check
  have registered : e.typeWithId? m.scope (e.typeAt t).id = some t := scope ▸ hosted.registered
  have length : (Value.object o :: rest).length = b.key.sig.arity + 1 := by
    rw [List.length_cons, count]
  rw [Machine.enter_forwarding code catches.concrete catches.receives length small
    (Machine.replacement?_host registered entry) fuel]
  refine Machine.asCall_congr ?_
  -- what the call is checked against does not depend on the depth at which it is made
  have known : ({ e with depth := e.depth + 1 } : Engine).class? m.scope (e.nameOf p) = some p :=
    scope ▸ covers.known
  have inherits : ({ e with depth := e.depth + 1 } : Engine).checkNonVirtual m.scope native
      ⟨e.nameOf p, b.key.name, b.key.sig⟩ = .ok () := scope ▸ covers.inherits
  have means : ({ e with depth := e.depth + 1 } : Engine).hostMethod? p b.key = some nearest :=
    covers.means
  unfold taking
  rw [Machine.callNative_special_apply known means inherits]

theorem Covers.standsFor {selected : Method} {owner : ClassRef} {nearest : ClassRef × Method}
    (covers : e.Covers s native p b.key owner selected nearest)
    (forwards : e.ForwardsTo s native p b nearest) (selectable : nearest.2.isSelectable = true) :
    e.StandsFor s native p b := by
  intro m fuel o rest scope count
  rw [forwards m fuel o rest scope count]
  obtain rfl := covers.agree selectable
  refine Machine.asCall_congr ?_
  have receives : selected.isStatic = false := by
    have open_ := covers.open_
    rw [selectable] at open_
    simp only [Bool.true_eq, Bool.and_eq_true, Bool.not_eq_true'] at open_
    exact open_.1
  have permitted : ({ e with depth := e.depth + 1 } : Engine).mayUse m.scope native
      selected.declaring selected.declared = true := scope ▸ covers.permitted
  have selects : (({ e with depth := e.depth + 1 } : Engine).classAt p).vtable.get? b.key =
      some selected := covers.selects
  have above : ({ e with depth := e.depth + 1 } : Engine).ancestor? p selected.declaring =
      some owner := covers.above
  unfold taking
  rw [Machine.callSelected_apply selects covers.concrete above]
  unfold Machine.callNamed
  dsimp only
  rw [receives, permitted]
  rfl

/-- A machine tells a method that virtual calls may select from one that they may not. -/
theorem Covers.selectable_of_standsFor {selected : Method} {owner : ClassRef}
    {nearest : ClassRef × Method}
    (covers : e.Covers s native p b.key owner selected nearest)
    (forwards : e.ForwardsTo s native p b nearest) (stands : e.StandsFor s native p b)
    (room : e.depth < (e.scopeAt s).options.maxCallDepth) : nearest.2.isSelectable = true := by
  by_contra hidden
  let e' : Engine := { e with depth := e.depth + 1 }
  let m : Machine := ⟨s, fun _ method _ =>
    if method.isSelectable then pure .null else fail (.abstractMethod method.text)⟩
  let args : List Value := .object 0 :: List.replicate b.key.sig.arity .null
  let ref : MethodRef := ⟨e.nameOf p, b.key.name, b.key.sig⟩
  have same : m.asCall (taking b.key.sig (m.callNamed native nearest ref args)) e =
      m.asCall (taking b.key.sig (m.callSelected p b.key args)) e :=
    (forwards m 0 0 _ rfl List.length_replicate).symm.trans
      (stands m 0 0 _ rfl List.length_replicate)
  have selects : m.callSelected p b.key args e' = .ok .null e' := by
    have apply_ : m.callSelected p b.key args e' = m.call owner selected args e' :=
      Machine.callSelected_apply (e := e') covers.selects covers.concrete covers.above args
    rw [apply_]
    show (if selected.isSelectable then pure .null else fail _ : Run Value) e' = _
    rw [if_pos covers.selectable]
    rfl
  obtain ⟨stop, fails⟩ : ∃ stop, m.callNamed native nearest ref args e' = .error stop e' := by
    unfold Machine.callNamed
    split
    · exact ⟨_, rfl⟩
    · split
      · refine ⟨.error (.abstractMethod nearest.2.text), ?_⟩
        show (if nearest.2.isSelectable then pure .null else fail _ : Run Value) e' = _
        rw [if_neg hidden]
        rfl
      · exact ⟨_, rfl⟩
  have gives : m.asCall (taking b.key.sig (m.callSelected p b.key args)) e = .ok .null e := by
    refine Machine.asCall_ok ?_ room
    show taken _ (m.callSelected p b.key args e') = _
    rw [selects]
    unfold taken
    cases b.key.sig.returnsValue <;> rfl
  have stops : m.asCall (taking b.key.sig (m.callNamed native nearest ref args)) e =
      .error stop e := by
    refine Machine.asCall_error ?_ room
    show taken _ (m.callNamed native nearest ref args e') = _
    rw [fails]
    rfl
  rw [gives, stops] at same
  cases same

end Engine

/-- In a reachable engine let a catcher of the host class of a managed type be entered while its
slot has the host's own body.  It calls, one call deeper, the nearest method under its key that
the parent or a superclass of the parent declares.  That is what virtual calls select in the
parent exactly when the nearest method is neither static nor private.  A static one makes the
call fail, and so does one that the type may not use. -/
theorem catcher_stands_for_inherited_iff {e₀ e : Engine} {t : TypeRef} (reachable : e₀.Reachable)
    (during : e₀.During e) (managed : e.IsManaged t) :
    ∃ native, (e.typeAt t).native = some native ∧
      ∀ key b, e.HasCatcher t native key b → e.EntersHost t b →
        ∃ p selected nearest, b.key = key ∧ (e.classAt native).parent = some p ∧
          (e.classAt p).vtable.get? key = some selected ∧ e.nearest? p key = some nearest ∧
          e.ForwardsTo (e.typeAt t).scope native p b nearest ∧
          (e.depth < (e.scopeAt (e.typeAt t).scope).options.maxCallDepth →
            (e.StandsFor (e.typeAt t).scope native p b ↔
              nearest.2.isStatic = false ∧ nearest.2.modifiers.isPrivate = false)) := by
  have chronicled := during.chronicled reachable managed
  have housed := during.housed reachable.housed reachable.grounded
  have lineage := during.lineage reachable.lineage
  have seated := during.allSeated reachable.allSeated
  obtain ⟨native, hosted⟩ := housed.hosts t managed
  refine ⟨native, hosted.native, fun key b catcher enters => ?_⟩
  obtain ⟨p, selected, rfl, catches⟩ :=
    hosted.catches lineage chronicled.verified chronicled.named catcher
  obtain ⟨owner, nearest, found, covers⟩ := catches.covers housed lineage hosted
  have forwards := catches.forwardsTo hosted covers (catches.arity_lt seated) enters
  refine ⟨p, selected, nearest, rfl, catches.parent, catches.selects, found, forwards,
    fun room => ?_⟩
  have open_ : nearest.2.isSelectable = true ↔
      nearest.2.isStatic = false ∧ nearest.2.modifiers.isPrivate = false := by
    rw [covers.open_, Bool.and_eq_true, Bool.not_eq_true', Bool.not_eq_true']
  rw [← open_]
  exact ⟨fun stands => covers.selectable_of_standsFor forwards stands room,
    covers.standsFor forwards⟩

namespace Shadowing

/-- The body of a constructor that calls that of the supertype. -/
def constructingAfter (superName : String) : List Instr :=
  [.load 0, .invoke .special (constructorRef superName ⟨[], .void⟩), .ret]

/-- A type with a constructor. -/
def constructed (typeName : String) (constructing : List Instr) : TypeUnit :=
  (TypeUnit.named typeName).addMethod (.make constructorName ⟨[], .void⟩ .publicBit constructing)

/-- The method of all three types. -/
def key : MemberKey := ⟨"m", ⟨[], .int⟩⟩

/-- A method that gives a number. -/
def numbered (access : Modifiers) (number : Int64) : MethodDef :=
  .make key.name key.sig access [.constInt number, .retValue]

/-- The type farther up, which has the method for everyone. -/
def far : TypeUnit := (constructed "lib.G" [.ret]).addMethod (numbered .publicBit 1)

/-- The nearer type, which has a private method under the same key. -/
def near : TypeUnit :=
  { (constructed "lib.P" (constructingAfter "lib.G")).addMethod (numbered .privateBit 2) with
    superName := some "lib.G" }

/-- A type below both that has none. -/
def below : TypeUnit :=
  { constructed "app.C" (constructingAfter "lib.P") with superName := some "lib.P" }

/-- A scope in which all three were defined. -/
def defined : Engine :=
  (((Engine.opened { included := ["app.*"] }).defining 4 far).defining 4 near).defining 4 below

/-- The scope after an object of the type was made. -/
def engine : Engine :=
  ((Scope.Use.newInstance "app.C" ⟨[], .void⟩ []).perform 60 0).final defined

/-- The catcher in the host class. -/
def catcher : Method where
  key := key
  modifiers := .publicBit ||| .syntheticBit ||| .catcherBit
  declared := .publicBit ||| .syntheticBit ||| .catcherBit
  declaring := "app.C"
  maxLocals := 1
  code := .entryCheck 1 1 :: forwardingCode "lib.P" key

/-- The private method of the nearer type. -/
def nearMethod : Method where
  key := key
  modifiers := .privateBit
  declared := .privateBit
  declaring := "lib.P"
  maxLocals := 1
  code := [.constInt 2, .retValue]

/-- The value that a call gives, if it gives one. -/
def given (made : EStateM.Result (Stop RunError) Engine Value) : Option Value :=
  match made with
  | .ok value _ => some value
  | .error .. => none

set_option maxRecDepth 100000 in
theorem outcomes :
    (((Engine.opened { included := ["app.*"] }).defining 4 far).scopes.size = 1 ∧
      (((Engine.opened { included := ["app.*"] }).defining 4 far).defining 4 near).scopes.size = 1) ∧
    (engine.IsManaged 0 ∧ (engine.typeAt 0).scope = 0 ∧ (engine.typeAt 0).native = some 2 ∧
      (engine.typeAt 0).first.unit.method? key = none ∧
      (engine.classAt 2).method? key = some catcher ∧ (engine.classAt 2).parent = some 1 ∧
      (engine.typeAt 0).live.dispatch.entry? 1 = some .host ∧
      engine.depth < (engine.scopeAt 0).options.maxCallDepth ∧
      engine.nearest? 1 key = some (1, nearMethod)) ∧
    engine.objects.size = 1 ∧ (engine.objectAt 0).cls = 2 ∧
    given ((Machine.of 0 8).enter 4 2 catcher [.object 0] engine) = none ∧
    given ((Machine.of 0 8).asCall (taking key.sig
      ((Machine.of 0 8).callSelected 1 key [.object 0])) engine) = some (.int 1) := by
  decide +kernel

theorem reachable : engine.Reachable := by
  obtain ⟨⟨one, two⟩, -⟩ := outcomes
  have opened : (Engine.opened { included := ["app.*"] }).Reachable := Engine.reachable_opened _
  have all : defined.Reachable :=
    ((opened.defining 4 far (by decide)).defining 4 near (by rw [one]; exact Nat.one_pos)).defining
      4 below (by rw [two]; exact Nat.one_pos)
  exact all.step (.use 60 0 _)

end Shadowing

open Shadowing in
/-- A catcher above which a private method hides the one that everyone may call does not stand for
that. -/
theorem catcher_stands_for_inherited_hidden :
    engine.HasCatcher 0 2 key catcher ∧ engine.EntersHost 0 catcher ∧
      engine.ForwardsTo 0 2 1 catcher (1, nearMethod) ∧ ¬ engine.StandsFor 0 2 1 catcher := by
  obtain ⟨-, ⟨managed, scope, native, free, found, parent, entry, room, nearest⟩, -⟩ := outcomes
  have reachable := reachable
  -- What matters about the engine is known; its definition is not to be unfolded.
  generalize engine = e at *
  have has : e.HasCatcher 0 2 key catcher := ⟨free, found, by decide⟩
  have enters : e.EntersHost 0 catcher := ⟨1, 1, _, rfl, entry⟩
  obtain ⟨native', hosts, stands⟩ := catcher_stands_for_inherited_iff reachable (.refl e) managed
  obtain rfl : 2 = native' := Option.some.inj (native.symm.trans hosts)
  obtain ⟨p, selected, above, -, parent', -, nearest', forwards, means⟩ :=
    stands key catcher has enters
  obtain rfl : 1 = p := Option.some.inj (parent.symm.trans parent')
  obtain rfl : (1, nearMethod) = above := Option.some.inj (nearest.symm.trans nearest')
  rw [scope] at forwards means
  refine ⟨has, enters, forwards, fun same => ?_⟩
  have isPrivate := ((means room).1 same).2
  exact absurd isPrivate (by decide)

open Shadowing in
/-- A catcher that is entered while its slot has the host's own body does not do what the method
does that virtual calls select in the parent. -/
theorem catcher_misses_selected :
    ¬ ∀ (e : Engine) (t : TypeRef) (native p : ClassRef) (key : MemberKey) (b : Method),
      e.Reachable → e.IsManaged t → (e.typeAt t).native = some native →
      (e.classAt native).parent = some p → e.HasCatcher t native key b → e.EntersHost t b →
      ∀ (n fuel : Nat) (o : ObjectRef) (rest : List Value), o < e.objects.size →
        (e.objectAt o).cls = native → rest.length = key.sig.arity →
        let m := Machine.of (e.typeAt t).scope n
        given (m.enter (fuel + key.sig.arity + 4) native b (.object o :: rest) e) =
          given (m.asCall (taking key.sig (m.callSelected p key (.object o :: rest))) e) := by
  intro right
  obtain ⟨-, ⟨managed, scope, native, free, found, parent, entry, -, -⟩, calls⟩ := outcomes
  obtain ⟨objects, cls, fails, gives⟩ := calls
  have reachable := reachable
  generalize engine = e at *
  have has : e.HasCatcher 0 2 key catcher := ⟨free, found, by decide⟩
  have same := right e 0 2 1 key catcher reachable managed native parent has
    ⟨1, 1, _, rfl, entry⟩ 8 0 0 [] (by rw [objects]; exact Nat.one_pos) cls rfl
  rw [scope] at same
  have same : none = some (Value.int 1) := fails.symm.trans (same.trans gives)
  cases same

end LiveUpdate
