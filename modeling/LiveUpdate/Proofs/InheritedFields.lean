import LiveUpdate.Proofs.Interfaces
import LiveUpdate.Proofs.LinkedFields
import LiveUpdate.Proofs.Parallel
import LiveUpdate.Proofs.SpecialCalls

/-!
# Inherited fields in executors

An access that a version makes of a field under the name of its own type becomes, in the
executor, an instruction of the engine without regard to access.  The name is only where the
search begins; the field may be that of a supertype.  So the instruction does what the guarded
one does when the host class of the type executes it, except that it goes on where the guarded
one is refused: with fields of supertypes that the type may not access.
-/

set_option autoImplicit false

namespace LiveUpdate

open Exec

/-! ### The field that the host's instruction reaches -/

namespace Engine

variable {e e' : Engine} {s : ScopeRef} {t : TypeRef} {c : ClassRef} {name : String}

/-- A static field that a class has itself is found at its static slot. -/
theorem Lineage.staticSlot?_eq (lineage : e.Lineage) {index : Nat} {slot : FieldSlot}
    (found : (e.classAt c).ownField? name = some (index, slot)) (static : slot.isStatic = true) :
    (e.classAt c).staticSlot? name = some index := by
  unfold Class.ownField? at found
  split at found
  next place =>
    obtain ⟨_, -, same⟩ := Option.map_eq_some_iff.1 found
    cases same
    exact place
  next =>
    split at found
    · obtain ⟨place, found_at, found⟩ := Option.bind_eq_some_iff.1 found
      obtain ⟨slot', there, same⟩ := Option.bind_eq_some_iff.1 found
      cases same
      obtain ⟨mem, -, -⟩ := Machine.declared_of_fieldSlot? found_at there
      obtain ⟨d, -, f, -, instance_, rfl⟩ := lineage.mem_instanceFields mem
      cases instance_.symm.trans static
    · cases found

/-- What the host finds for a class of a scope belongs to a class of the scope, by whose name it
goes, and if it is static it is at its place there. -/
structure FoundIn (e : Engine) (s : ScopeRef) (name : String) (h : HostField) : Prop where
  home : e.Homes s h.cls
  declaring : h.slot.declaring = e.nameOf h.cls
  named : h.slot.name = name
  place : h.slot.isStatic = true → (e.classAt h.cls).staticSlot? name = some h.index

theorem Layered.foundIn (layered : e.Layered) (housed : e.Housed) (lineage : e.Lineage)
    (home : e.Homes s c) {h : HostField} (found : e.hostField? c name = some h) :
    e.FoundIn s name h := by
  obtain ⟨d, mem, linked⟩ := List.exists_of_findSome?_eq_some found
  obtain ⟨⟨index, slot⟩, own, rfl⟩ := Option.map_eq_some_iff.1 linked
  have home := layered.fieldOrder_homes housed home d mem
  have place := lineage.staticSlot?_eq own
  obtain ⟨f, -, called, rfl, -⟩ := lineage.ownField? (housed.apart home) own
  exact ⟨home, rfl, called, place⟩

/-- A live field belongs to a class of the scope, by whose name it goes. -/
theorem Layered.live_home (layered : e.Layered) (housed : e.Housed) (lineage : e.Lineage)
    (home : e.Homes s c) {live : LiveField} (found : e.resolveField s c name = .ok (some live)) :
    e.Homes s live.cls ∧ live.declaring = e.nameOf live.cls := by
  obtain ⟨d, mem, here⟩ := exists_of_findSome? found
  have home := housed.liveChainWithin_homes _ home d mem
  rcases Option.or_eq_some_iff.1 (Option.orElse_eq_or.symm.trans here) with own | ⟨-, inherited⟩
  · unfold ownLiveField? at own
    dsimp only at own
    split at own
    all_goals
      obtain ⟨_, -, rfl⟩ := Option.map_eq_some_iff.1 own
      exact ⟨home, rfl⟩
  · obtain ⟨h, search, rfl⟩ := Option.map_eq_some_iff.1 inherited
    obtain ⟨i, i_mem, linked⟩ := List.exists_of_findSome?_eq_some search
    have foundIn := layered.foundIn housed lineage (layered.homes s d home i i_mem) linked
    exact ⟨foundIn.home, foundIn.declaring⟩

/-- A host field in whose slot the value of a live field is. -/
structure Backing (e : Engine) (live : LiveField) (host : HostField) : Prop where
  kept : live.storedBy? = none
  declaring : host.slot.declaring = live.declaring
  named : host.slot.name = live.name
  sig : host.slot.sig = live.sig
  isStatic : host.slot.isStatic = live.isStatic
  cls : host.cls = live.cls
  place : live.isStatic = true → (e.classAt live.cls).staticSlot? live.name = some host.index

/-- The host's access reaches the live field in the slot that has its value. -/
theorem Layered.backing (layered : e.Layered) (housed : e.Housed) (lineage : e.Lineage)
    (home : e.Homes s c) {live : LiveField} (found : e.resolveField s c name = .ok (some live))
    (reach : Machine.reaches e c live = true) :
    ∃ host, e.hostField? c name = some host ∧ e.Backing live host := by
  have named := name_of_resolveField found
  unfold Machine.reaches at reach
  rw [named, Bool.and_eq_true, Option.any_eq_true] at reach
  obtain ⟨native, host, linked, same⟩ := reach
  simp only [Bool.and_eq_true, decide_eq_true_eq] at native same
  obtain ⟨⟨declaring, static⟩, sig⟩ := same
  obtain ⟨home_h, declaring_h, name_h, place⟩ := layered.foundIn housed lineage home linked
  obtain ⟨home_l, declaring_l⟩ := layered.live_home housed lineage home found
  -- both fields go by the name of one class of the scope
  have cls : host.cls = live.cls := housed.eq_of_nameOf_eq home_h home_l
    (declaring_h.symm.trans (declaring.trans declaring_l))
  refine ⟨host, linked, ?_, declaring, name_h.trans named.symm, sig, static, cls,
    fun isStatic => ?_⟩
  · unfold LiveField.storedBy?
    rw [native]
    rfl
  · rw [← cls, named]
    exact place (static.trans isStatic)

end Engine

/-! ### Access by live versions and by the host -/

namespace Machine

variable {m : Machine} {e bones : Engine} {access : FieldAccess} {field : FieldRef}
  {live : LiveField} {host : HostField}

/-- A field access as the host makes it, once it has found the field. -/
def accessFound (m : Machine) (access : FieldAccess) (f : FieldRef) (host : HostField) :
    Step Unit := do
  match access with
  | .get =>
    let receiver ← Step.pop
    let o ← Step.check fun _ => fieldReceiver receiver f
    Step.push (← Step.check fun e =>
      e.readSlot o host.slot.declaring host.slot.name (.fieldMissing f))
  | .put =>
    let value ← Step.pop
    let receiver ← Step.pop
    let o ← Step.check fun _ => fieldReceiver receiver f
    Step.check fun e => value.checkConforms e host.slot.sig
    writeSlot o host.slot.declaring host.slot.name value (.fieldMissing f)
  | .getStatic =>
    m.ensureInitialized host.cls
    Step.push (← Step.check fun e => e.readStatic host.cls host.index (.fieldMissing f))
  | .putStatic =>
    let value ← Step.pop
    Step.check fun e => value.checkConforms e host.slot.sig
    m.ensureInitialized host.cls
    writeStatic host.cls host.index value

theorem accessHost_apply (access : FieldAccess) (field : FieldRef) (f : Frame) :
    m.accessHost access field f e = match m.hostField f.cls access field e with
      | .ok host e' => m.accessFound access field host f e'
      | .error stop e' => .error stop e' := by
  unfold accessHost accessFound
  rw [Step.get_bind, Step.lift_bind]
  cases m.hostField f.cls access field e with
  | error stop e' => rfl
  | ok host e' => cases access <;> rfl

theorem keeps_readField (hm : m.KeepsSkeleton) (live : LiveField) (receiver : Option ObjectRef) :
    Keeps Engine.skeleton (m.readField live receiver) :=
  keeps_of_obeys fun bones => obeys_readField (hm.obeys bones) live receiver

theorem keeps_writeField (hm : m.KeepsSkeleton) (live : LiveField) (receiver : Option ObjectRef)
    (value : Value) : Keeps Engine.skeleton (m.writeField live receiver value) :=
  keeps_of_obeys fun bones => obeys_writeField (hm.obeys bones) live receiver value

theorem keeps_putSlot (o : ObjectRef) (place : Nat) (value : Value) :
    Keeps Engine.skeleton (putSlot o place value) :=
  keeps_of_obeys fun bones =>
    show Exec.Obeys (Law.skeleton bones).holds _ _ from obeys_putSlot o place value

theorem keeps_writeStatic (c : ClassRef) (index : Nat) (value : Value) :
    Keeps Engine.skeleton (writeStatic c index value) :=
  keeps_of_obeys fun bones =>
    show Exec.Obeys (Law.skeleton bones).holds _ _ from obeys_writeStatic c index value

/-- An access by live versions does in every frame with one stack the same. -/
theorem parallel_accessLive (hm : m.KeepsSkeleton) (access : FieldAccess) (field : FieldRef)
    (live : LiveField) :
    Step.Parallel bones (m.accessLive access field live) (m.accessLive access field live) := by
  cases access with
  | get =>
    exact Step.parallel_bind Step.parallel_pop fun receiver =>
      Step.parallel_bind (Step.parallel_check fun _ _ => rfl) fun o =>
        Step.parallel_bind (Step.parallel_lift (parallel_self (keeps_readField hm live _)))
          Step.parallel_push
  | put =>
    exact Step.parallel_bind Step.parallel_pop fun value =>
      Step.parallel_bind Step.parallel_pop fun receiver =>
        Step.parallel_bind (Step.parallel_check fun _ _ => rfl) fun o =>
          Step.parallel_lift (parallel_self (keeps_writeField hm live _ value))
  | getStatic =>
    exact Step.parallel_bind (Step.parallel_lift (parallel_self (keeps_readField hm live _)))
      Step.parallel_push
  | putStatic =>
    exact Step.parallel_bind Step.parallel_pop fun value =>
      Step.parallel_lift (parallel_self (keeps_writeField hm live _ value))

/-- An instance field that no store has is read from its slot. -/
theorem readField_slot (kept : live.storedBy? = none) (o : ObjectRef) :
    m.readField live (some o) =
      check fun e => e.readSlot o live.declaring live.name live.missing := by
  unfold readField
  rw [kept]

/-- An instance field that no store has is written to its slot. -/
theorem writeField_slot (kept : live.storedBy? = none) (o : ObjectRef) (value : Value) :
    m.writeField live (some o) value = (check fun e => value.checkConforms e live.sig)
      >>= fun _ => writeSlot o live.declaring live.name value live.missing := by
  unfold writeField
  rw [kept]

/-- Reading a slot that is there, as live versions do it and as the host does. -/
theorem parallel_readSlot (o : ObjectRef) (backing : e.Backing live host) (missing : RunError) :
    Exec.Parallel bones (m.readField live (some o))
      (check fun e => e.readSlot o host.slot.declaring host.slot.name missing) := by
  rw [readField_slot backing.kept, backing.declaring, backing.named]
  refine parallel_check fun e _ => ?_
  unfold Engine.readSlot
  cases e.slotValue? o live.declaring live.name <;> rfl

theorem parallel_writeSlot (o : ObjectRef) (declaring name : String) (value : Value)
    (missing missing' : RunError) : Exec.Parallel bones (writeSlot o declaring name value missing)
      (writeSlot o declaring name value missing') := by
  refine parallel_bind (parallel_check fun e _ => ?_) fun place =>
    parallel_self (keeps_putSlot o place value)
  unfold Engine.instanceSlot
  cases (e.classOf o).fieldSlot? declaring name <;> rfl

/-- While code runs a static field stays in its slot. -/
theorem staticSlot_of_skeleton_eq {e' : Engine} (same : e'.skeleton = e.skeleton)
    {c : ClassRef} {name : String} {index : Nat}
    (place : (e.classAt c).staticSlot? name = some index) (missing : RunError) :
    e'.staticSlot c name missing = .ok index := by
  have fields : (e'.classAt c).staticFields = (e.classAt c).staticFields := by
    have skeletons : (e'.classAt c).skeleton.staticFields = (e.classAt c).skeleton.staticFields :=
      congrArg Class.staticFields (Engine.classAt_of_skeleton_eq same c)
    exact skeletons
  have place : (e'.classAt c).staticSlot? name = some index := by
    unfold Class.staticSlot? at place ⊢
    rw [fields]
    exact place
  unfold Engine.staticSlot
  rw [place]

/-- What goes on with a static slot that is known is the same without looking for it. -/
theorem parallel_staticSlot {α : Type} (backing : e.Backing live host)
    (static : live.isStatic = true) (missing : RunError) {f : Nat → Run α} {y : Run α}
    (rest : Exec.Parallel e.skeleton (f host.index) y) :
    Exec.Parallel e.skeleton
      (check (fun e => e.staticSlot live.cls live.name missing) >>= f) y := by
  intro e' same
  rw [bind_apply, check_apply, staticSlot_of_skeleton_eq same (backing.place static)]
  exact rest e' same

/-- An access by live versions does what the host does with the slot that has the value. -/
theorem parallel_accessFound (hm : m.KeepsSkeleton) (backing : e.Backing live host)
    (kind : live.isStatic = access.isStatic) (field : FieldRef) :
    Step.Parallel e.skeleton (m.accessLive access field live)
      (m.accessFound access field host) := by
  cases access with
  | get =>
    exact Step.parallel_bind Step.parallel_pop fun receiver =>
      Step.parallel_bind (Step.parallel_check fun _ _ => rfl) fun o =>
        Step.parallel_bind (Step.parallel_lift (parallel_readSlot o backing _))
          Step.parallel_push
  | put =>
    refine Step.parallel_bind Step.parallel_pop fun value =>
      Step.parallel_bind Step.parallel_pop fun receiver =>
        Step.parallel_bind (Step.parallel_check fun _ _ => rfl) fun o => ?_
    rw [writeField_slot backing.kept, Step.lift_seq, backing.sig, backing.declaring, backing.named]
    exact Step.parallel_bind (Step.parallel_check fun _ _ => rfl) fun _ =>
      Step.parallel_lift (parallel_writeSlot o _ _ value _ _)
  | getStatic =>
    have reads : m.readField live none = m.ensureInitialized live.cls >>= fun _ =>
        check (fun e => e.staticSlot live.cls live.name live.missing) >>= fun index =>
          check fun e => e.readStatic live.cls index live.missing := by
      unfold readField
      rw [backing.kept]
    show Step.Parallel e.skeleton (liftM (m.readField live none) >>= Step.push) _
    rw [reads, Step.lift_seq, bind_assoc, ← backing.cls]
    refine Step.parallel_bind
      (Step.parallel_lift (parallel_self (keeps_ensureInitialized hm _))) fun _ =>
      Step.parallel_bind (Step.parallel_lift ?_) Step.parallel_push
    rw [backing.cls]
    refine parallel_staticSlot backing kind _ (parallel_check fun e' _ => ?_)
    unfold Engine.readStatic
    cases (e'.classAt live.cls).statics[host.index]? <;> rfl
  | putStatic =>
    refine Step.parallel_bind Step.parallel_pop fun value => ?_
    have writes : m.writeField live none value = (check fun e => value.checkConforms e live.sig)
        >>= fun _ => m.ensureInitialized live.cls >>= fun _ =>
          check (fun e => e.staticSlot live.cls live.name live.missing) >>= fun index =>
            writeStatic live.cls index value := by
      unfold writeField
      rw [backing.kept]
    rw [writes, Step.lift_seq, backing.sig, backing.cls]
    refine Step.parallel_bind (Step.parallel_check fun _ _ => rfl) fun _ => ?_
    rw [Step.lift_seq]
    refine Step.parallel_bind
      (Step.parallel_lift (parallel_self (keeps_ensureInitialized hm _))) fun _ =>
      Step.parallel_lift ?_
    exact parallel_staticSlot backing kind _ (parallel_self (keeps_writeStatic _ _ value))

/-! ### The executor's instruction and the guarded access -/

variable {t : TypeRef} {owner : ClassRef}

/-- Two frames with one stack: one anywhere, the other in code of a class, in front of the guard
of a field access. -/
structure Facing (c : ClassRef) (access : FieldAccess) (field : FieldRef) (f g : Frame) : Prop where
  acts : g.cls = c
  next : g.method.code[g.pc + 1]? = some (.access access field)
  stacked : g.stack = f.stack

theorem liveField_apply (found : e.resolveField m.scope owner field.name = .ok (some live))
    (fits : checkFieldUse access field live.isStatic live.sig = .ok ()) :
    m.liveField owner access field e = .ok live e := by
  unfold liveField
  rw [bind_apply, resolve_apply, found]
  dsimp only
  rw [bind_apply, ofResult_apply, fits]
  rfl

/-- A field that live versions do not have, or not for such an access, is not found. -/
theorem liveField_eq_error (unfit : ∀ live, e.resolveField m.scope owner field.name =
      .ok (some live) → checkFieldUse access field live.isStatic live.sig ≠ .ok ()) :
    ∃ stop, m.liveField owner access field e = .error stop e := by
  unfold liveField
  rw [bind_apply, resolve_apply]
  cases found : e.resolveField m.scope owner field.name with
  | error stop => exact ⟨stop, rfl⟩
  | ok field? =>
    cases field? with
    | none => exact ⟨_, rfl⟩
    | some live =>
      dsimp only
      rw [bind_apply, ofResult_apply]
      cases fits : checkFieldUse access field live.isStatic live.sig with
      | ok => exact absurd fits (unfit live found)
      | error error => exact ⟨_, rfl⟩

/-- The engine's instruction for a field access finds the field as live versions have it, and
accesses it as they do. -/
theorem execute_liveAccess {id : TypeId} (registered : e.typeWithId? m.scope id = some t)
    (hosts : (e.typeAt t).native = some owner) (access : FieldAccess) (field : FieldRef)
    (f : Frame) : m.execute (.liveAccess access id field) f e =
      match m.liveField owner access field e with
      | .ok live e' => (m.accessLive access field live >>= fun _ => pure Flow.next) f e'
      | .error stop e' => .error stop e' := by
  show (m.accessPrivileged access id field >>= fun _ => pure Flow.next) f e = _
  have known : managedType e m.scope id = .ok t := by
    unfold managedType
    rw [registered]
  have known : (managedType e m.scope id >>= fun t => pure (e.typeAt t) :
      Except RunError ManagedType) = .ok (e.typeAt t) := by
    rw [known]
    rfl
  unfold accessPrivileged
  rw [Step.bind_apply, Step.check_bind, known]
  dsimp only
  rw [hosts]
  dsimp only
  rw [Step.lift_bind]
  cases m.liveField owner access field e with
  | error stop e' => rfl
  | ok live e' =>
    dsimp only
    rw [Step.bind_apply]

/-- The guard of a field access lets the host's instruction make it or makes it itself, if the
live field is permitted. -/
theorem guardedStep_field {g : Frame} {id : TypeId} (reloaded : (e.scopeAt m.scope).epoch ≠ 0)
    (next : g.method.code[g.pc + 1]? = some (.access access field))
    (known : e.class? m.scope field.owner = some owner)
    (found : e.resolveField m.scope owner field.name = .ok (some live))
    (fits : checkFieldUse access field live.isStatic live.sig = .ok ()) :
    m.guardedStep (.fieldCheck id) (.access access field) g e =
      if e.mayUse m.scope g.cls live.declaring live.modifiers then
        if reaches e owner live then m.execute (.access access field) (g.goTo (g.pc + 1)) e
        else (m.accessLive access field live >>= fun _ => pure Flow.skip) g e
      else .error (.error (e.refusal m.scope g.cls live.modifiers field.text)) e := by
  have guard : m.execute (.fieldCheck id) g e = m.checkField g e := rfl
  rw [guardedStep_apply, guard]
  unfold checkField
  rw [Step.guarded_bind next]
  dsimp only
  rw [Step.get_bind, Step.lift_bind, routeField_apply reloaded known found fits]
  cases e.mayUse m.scope g.cls live.declaring live.modifiers with
  | false => rfl
  | true =>
    simp only [if_true]
    cases reaches e owner live with
    | true => rfl
    | false =>
      simp only [Bool.false_eq_true, if_false]
      rw [Step.bind_apply]
      cases m.accessLive access field live g e <;> rfl

/-- The guard of a field access fails for a field that live versions do not have. -/
theorem guardedStep_field_missing {g : Frame} {id : TypeId} {stop : Stop RunError}
    (reloaded : (e.scopeAt m.scope).epoch ≠ 0)
    (next : g.method.code[g.pc + 1]? = some (.access access field))
    (known : e.class? m.scope field.owner = some owner)
    (missing : m.liveField owner access field e = .error stop e) :
    m.guardedStep (.fieldCheck id) (.access access field) g e = .error stop e := by
  have guard : m.execute (.fieldCheck id) g e = m.checkField g e := rfl
  have routed : m.routeField g.cls access field e = .error stop e := by
    unfold routeField
    rw [bind_apply, ask_apply]
    dsimp only
    rw [if_neg reloaded, show (e.scopeAt m.scope).classes.get? field.owner = some owner from known]
    dsimp only
    rw [bind_apply, missing]
  rw [guardedStep_apply, guard]
  unfold checkField
  rw [Step.guarded_bind next]
  dsimp only
  rw [Step.get_bind, Step.lift_bind, routed]

/-- Steps that are alike stay so when each goes on in its own way. -/
theorem alike_flow {x y : Step Unit} (parallel : Step.Parallel bones x y) (flow flow' : Flow)
    (same : e.skeleton = bones) {f g : Frame} (stacked : g.stack = f.stack) :
    Exec.Alike bones Step.SameStack ((x >>= fun _ => pure flow) f e)
      ((y >>= fun _ => pure flow') g e) := by
  have parallel := parallel e same f g stacked
  rw [Step.bind_apply, Step.bind_apply]
  cases run : x f e with
  | ok next e' =>
    cases run' : y g e with
    | ok next' e'' =>
      rw [run, run'] at parallel
      obtain ⟨⟨-, stacked⟩, rfl, same⟩ := parallel
      exact ⟨stacked, rfl, same⟩
    | error stop e'' =>
      rw [run, run'] at parallel
      exact parallel.elim
  | error stop e' =>
    cases run' : y g e with
    | ok next' e'' =>
      rw [run, run'] at parallel
      exact parallel.elim
    | error stop' e'' =>
      rw [run, run'] at parallel
      exact parallel

/-- The guarded access of a field of which nothing is denied does what live versions do. -/
theorem alike_guardedStep_field (hm : m.KeepsSkeleton) (layered : e.Layered) (housed : e.Housed)
    (lineage : e.Lineage) {c : ClassRef} (home : e.Homes m.scope c)
    (reloaded : (e.scopeAt m.scope).epoch ≠ 0) (known : e.class? m.scope field.owner = some c)
    (found : e.resolveField m.scope c field.name = .ok (some live))
    (fits : checkFieldUse access field live.isStatic live.sig = .ok ())
    (free : ¬ e.DeniesAccess m.scope c c field live) {f g : Frame}
    (facing : Facing c access field f g)
    (id : TypeId) : Exec.Alike e.skeleton Step.SameStack
      ((m.accessLive access field live >>= fun _ => pure Flow.next) f e)
      (m.guardedStep (.fieldCheck id) (.access access field) g e) := by
  unfold Engine.DeniesAccess at free
  obtain ⟨permitted, free⟩ := not_or.1 free
  rw [Bool.not_eq_false, ← facing.acts] at permitted
  rw [guardedStep_field reloaded facing.next known found fits, if_pos permitted]
  cases reach : reaches e c live with
  | false =>
    exact alike_flow (parallel_accessLive hm access field live) _ _ rfl facing.stacked
  | true =>
    -- the value is in the host's slot, and the host checks the access once more
    obtain ⟨host, linked, backing⟩ := layered.backing housed lineage home found reach
    have permitted : e.mayUse m.scope c host.slot.declaring host.slot.modifiers = true := by
      by_contra refused
      exact free ⟨reach, host, linked, by simpa using refused⟩
    have acts : (g.goTo (g.pc + 1)).cls = c := facing.acts
    have kind : live.isStatic = access.isStatic := by
      by_contra other
      unfold checkFieldUse at fits
      rw [if_pos other] at fits
      cases fits
    have fits : checkFieldUse access field host.slot.isStatic host.slot.sig = .ok () := by
      rw [backing.isStatic, backing.sig]
      exact fits
    have accessed : m.accessHost access field (g.goTo (g.pc + 1)) e =
        m.accessFound access field host (g.goTo (g.pc + 1)) e := by
      rw [accessHost_apply, acts, hostField_apply known linked fits, if_pos permitted]
    have alike := alike_flow (parallel_accessFound hm backing kind field) Flow.next Flow.next rfl
      (f := f) (g := g.goTo (g.pc + 1)) facing.stacked
    have made : m.execute (.access access field) (g.goTo (g.pc + 1)) e =
        (m.accessFound access field host >>= fun _ => pure Flow.next) (g.goTo (g.pc + 1)) e := by
      show (m.accessHost access field >>= fun _ => pure Flow.next) _ e = _
      rw [Step.bind_apply, Step.bind_apply, accessed]
    rw [if_pos rfl, made]
    exact alike

/-- The guarded access of a field that is denied is refused at once. -/
theorem guardedStep_field_denied {c : ClassRef} (reloaded : (e.scopeAt m.scope).epoch ≠ 0)
    (known : e.class? m.scope field.owner = some c)
    (found : e.resolveField m.scope c field.name = .ok (some live))
    (fits : checkFieldUse access field live.isStatic live.sig = .ok ())
    (denies : e.DeniesAccess m.scope c c field live) {f g : Frame}
    (facing : Facing c access field f g) (id : TypeId) :
    ∃ error : RunError, error.isRefusal = true ∧
      m.guardedStep (.fieldCheck id) (.access access field) g e = .error (.error error) e := by
  rw [guardedStep_field reloaded facing.next known found fits, facing.acts]
  cases permitted : e.mayUse m.scope c live.declaring live.modifiers with
  | false => exact ⟨_, rfl, rfl⟩
  | true =>
    obtain ⟨reach, host, linked, refused⟩ := denies.resolve_left (by rw [permitted]; exact nofun)
    refine ⟨e.refusal m.scope c host.slot.modifiers field.text, rfl, ?_⟩
    have fits : checkFieldUse access field host.slot.isStatic host.slot.sig = .ok () := by
      have same := reach
      unfold reaches at same
      rw [Engine.name_of_resolveField found, show e.hostField? c field.name = some host from linked,
        Option.any_some] at same
      simp only [Bool.and_eq_true, decide_eq_true_eq] at same
      rw [same.2.1.2, same.2.2]
      exact fits
    rw [if_pos rfl, reach, if_pos rfl]
    show (m.accessHost access field >>= fun _ => pure Flow.next) (g.goTo (g.pc + 1)) e = _
    have acts : (g.goTo (g.pc + 1)).cls = c := facing.acts
    rw [Step.bind_apply, accessHost_apply, acts, hostField_apply known linked fits, refused]
    rfl

end Machine

namespace Engine

variable {e : Engine} {t : TypeRef} {native : ClassRef} {access : FieldAccess} {field : FieldRef}

/-- In a method of an executor the field accesses of its source under the name of the type are
instructions of the engine. -/
def ReplacesAccesses (e : Engine) (t : TypeRef) (source : MethodDef) (m : Method) : Prop :=
  ∀ (index : Nat) (access : FieldAccess) (field : FieldRef), field.owner = (e.typeAt t).name →
    source.code[index]? = some (.access access field) →
    ∃ place : Nat, m.code[place]? = some (.liveAccess access (e.typeAt t).id field)

theorem CompiledFrom.replaces_accesses {w : LiveVersion} {source : MethodDef} {m : Method}
    (compiled : e.CompiledFrom t w source m) : e.ReplacesAccesses t source m := by
  intro index access field owns here
  obtain ⟨native, -, -, hosted, -⟩ := id compiled
  refine compiled.exists_privileged hosted here ?_ rfl
  show (if field.owner = (e.typeAt t).name then _ else _) = _
  rw [if_pos owns]
  rfl

/-- A field that live versions find for an access, and that is of the right kind and type. -/
def Accesses (e : Engine) (s : ScopeRef) (owner : ClassRef) (access : FieldAccess)
    (field : FieldRef) (live : LiveField) : Prop :=
  e.resolveField s owner field.name = .ok (some live) ∧
    checkFieldUse access field live.isStatic live.sig = .ok ()

/-- How the engine's instruction for an access under the name of a type compares with the access
that the host class of the type makes behind a guard, from one stack.  Without a field both
fail.  With a field of which nothing is denied to the type they do the same.  With one that is
denied, which then is a field of another type, the guarded access is refused and changes
nothing, and the engine's instruction makes the access. -/
structure ComparesAccess (e : Engine) (t : TypeRef) (native : ClassRef) (access : FieldAccess)
    (field : FieldRef) : Prop where
  missing : ∀ (n : Nat) (f g : Frame) (id : TypeId), Machine.Facing native access field f g →
    (∀ live, ¬ e.Accesses (e.typeAt t).scope native access field live) →
    ∃ stop, (Machine.of (e.typeAt t).scope n).execute (.liveAccess access (e.typeAt t).id field)
        f e = .error stop e ∧
      (Machine.of (e.typeAt t).scope n).guardedStep (.fieldCheck id) (.access access field) g e =
        .error stop e
  alike : ∀ (n : Nat) (f g : Frame) (id : TypeId) (live : LiveField),
    Machine.Facing native access field f g →
    e.Accesses (e.typeAt t).scope native access field live →
    ¬ e.DeniesAccess (e.typeAt t).scope native native field live →
    Exec.Alike e.skeleton Step.SameStack
      ((Machine.of (e.typeAt t).scope n).execute (.liveAccess access (e.typeAt t).id field) f e)
      ((Machine.of (e.typeAt t).scope n).guardedStep (.fieldCheck id) (.access access field) g e)
  denied : ∀ (n : Nat) (f g : Frame) (id : TypeId) (live : LiveField),
    Machine.Facing native access field f g →
    e.Accesses (e.typeAt t).scope native access field live →
    e.DeniesAccess (e.typeAt t).scope native native field live →
    live.declaring ≠ (e.typeAt t).name ∧
    (∃ error : RunError, error.isRefusal = true ∧
      (Machine.of (e.typeAt t).scope n).guardedStep (.fieldCheck id) (.access access field) g e =
        .error (.error error) e) ∧
    (Machine.of (e.typeAt t).scope n).execute (.liveAccess access (e.typeAt t).id field) f e =
      ((Machine.of (e.typeAt t).scope n).accessLive access field live >>= fun _ =>
        pure Flow.next) f e

/-- What is denied to a type under its own name is a field of another type. -/
theorem Housed.inherited_of_denies (housed : e.Housed) (hosted : e.Hosted t native)
    {live : LiveField}
    (found : e.resolveField (e.typeAt t).scope native field.name = .ok (some live))
    (denies : e.DeniesAccess (e.typeAt t).scope native native field live) :
    live.declaring ≠ (e.typeAt t).name := by
  intro own
  have permitted (modifiers : Modifiers) :
      e.mayUse (e.typeAt t).scope native live.declaring modifiers = true := by
    have permitted := e.mayUse_own (s := (e.typeAt t).scope) native modifiers
    rw [hosted.host.2, housed.name_eq hosted.known, ← own] at permitted
    exact permitted
  rcases denies with refused | ⟨reach, host, linked, refused⟩
  · rw [permitted] at refused
    cases refused
  · unfold Machine.reaches at reach
    rw [name_of_resolveField found, Bool.and_eq_true,
      show e.hostField? native field.name = some host from linked, Option.any_some] at reach
    simp only [Bool.and_eq_true, decide_eq_true_eq] at reach
    rw [reach.2.1.1, permitted] at refused
    cases refused

theorem comparesAccess (layered : e.Layered) (housed : e.Housed) (lineage : e.Lineage)
    (hosted : e.Hosted t native) (reloaded : (e.scopeAt (e.typeAt t).scope).epoch ≠ 0)
    (owns : field.owner = (e.typeAt t).name) : e.ComparesAccess t native access field := by
  have home : e.Homes (e.typeAt t).scope native := ⟨_, hosted.known⟩
  have known : e.class? (e.typeAt t).scope field.owner = some native := owns ▸ hosted.known
  constructor
  · intro n f g id facing unfit
    let m := Machine.of (e.typeAt t).scope n
    obtain ⟨stop, missing⟩ : ∃ stop, m.liveField native access field e = .error stop e :=
      Machine.liveField_eq_error fun live found fits => unfit live ⟨found, fits⟩
    refine ⟨stop, ?_, Machine.guardedStep_field_missing (m := m) reloaded facing.next known missing⟩
    rw [Machine.execute_liveAccess (m := m) hosted.registered hosted.native, missing]
  · intro n f g id live facing accesses free
    let m := Machine.of (e.typeAt t).scope n
    obtain ⟨found, fits⟩ := accesses
    rw [Machine.execute_liveAccess (m := m) hosted.registered hosted.native,
      Machine.liveField_apply (m := m) found fits]
    exact Machine.alike_guardedStep_field (m := m) (keepsSkeleton_of _ n) layered housed lineage
      home reloaded known found fits free facing id
  · intro n f g id live facing accesses denies
    let m := Machine.of (e.typeAt t).scope n
    obtain ⟨found, fits⟩ := accesses
    refine ⟨housed.inherited_of_denies hosted found denies, ?_, ?_⟩
    · exact Machine.guardedStep_field_denied (m := m) reloaded known found fits denies facing id
    · rw [Machine.execute_liveAccess (m := m) hosted.registered hosted.native,
        Machine.liveField_apply (m := m) found fits]

/-- The engine's instruction succeeds where the guarded access does not exactly where it
succeeds with a field that is denied. -/
theorem ComparesAccess.answers_iff (compares : e.ComparesAccess t native access field) {n : Nat}
    {f g : Frame} (facing : Machine.Facing native access field f g) (id : TypeId) :
    (Exec.answers ((Machine.of (e.typeAt t).scope n).execute
          (.liveAccess access (e.typeAt t).id field) f e) = true →
        Exec.answers ((Machine.of (e.typeAt t).scope n).guardedStep (.fieldCheck id)
          (.access access field) g e) = true) ↔
      ∀ live, e.Accesses (e.typeAt t).scope native access field live →
        e.DeniesAccess (e.typeAt t).scope native native field live →
        Exec.answers ((Machine.of (e.typeAt t).scope n).execute
          (.liveAccess access (e.typeAt t).id field) f e) = false := by
  constructor
  · intro follows live accesses denies
    obtain ⟨-, ⟨error, -, refused⟩, -⟩ := compares.denied n f g id live facing accesses denies
    rw [refused] at follows
    exact Bool.eq_false_iff.2 fun succeeds => by cases follows succeeds
  · intro fails succeeds
    by_cases found : ∃ live, e.Accesses (e.typeAt t).scope native access field live
    · obtain ⟨live, accesses⟩ := found
      have free : ¬ e.DeniesAccess (e.typeAt t).scope native native field live := by
        intro denies
        rw [fails live accesses denies] at succeeds
        cases succeeds
      rw [(compares.alike n f g id live facing accesses free).answers_eq]
      exact succeeds
    · obtain ⟨stop, failed, -⟩ := compares.missing n f g id facing (not_exists.1 found)
      rw [failed] at succeeds
      cases succeeds

end Engine

/-- In a reachable engine let the version in force of a managed type have an executor, which
was compiled from a version with the same digest, so from the same methods unless two
payloads have one digest.  In its methods every field access under the name of the type is an
instruction of the engine.  That does what the guarded access does that the host class of the
type makes, unless the access is denied to the type, which can only be with a field of another
type.  Then the guarded access is refused and changes nothing, and the engine's instruction
makes the access.  So it succeeds only if the guarded one does exactly where it fails with
every field that is denied. -/
theorem executor_field_accesses_iff {e₀ e : Engine} {t : TypeRef} {v : LiveVersion} {a : Artifacts}
    (reachable : e₀.Reachable) (during : e₀.During e) (managed : e.IsManaged t)
    (published : (e.typeAt t).published = some v) (generated : v.artifacts = some a) :
    ∃ native, (e.typeAt t).native = some native ∧
      (∃ w ∈ (e.typeAt t).versions,
        (TypeUnit.DigestsCollide w.data v.data ∨ w.unit.methods = v.unit.methods) ∧
        ∀ key m, (e.classAt a.executor).method? key = some m →
          ∃ source ∈ w.unit.bodied, e.CompiledFrom t w source m ∧ e.ReplacesAccesses t source m) ∧
      ∀ (access : FieldAccess) (field : FieldRef), field.owner = (e.typeAt t).name →
        e.ComparesAccess t native access field ∧
        ∀ (n : Nat) (f g : Frame) (id : TypeId), Machine.Facing native access field f g →
          ((Exec.answers ((Machine.of (e.typeAt t).scope n).execute
                (.liveAccess access (e.typeAt t).id field) f e) = true →
              Exec.answers ((Machine.of (e.typeAt t).scope n).guardedStep (.fieldCheck id)
                (.access access field) g e) = true) ↔
            ∀ live, e.Accesses (e.typeAt t).scope native access field live →
              e.DeniesAccess (e.typeAt t).scope native native field live →
              Exec.answers ((Machine.of (e.typeAt t).scope n).execute
                (.liveAccess access (e.typeAt t).id field) f e) = false) := by
  have recorded := (during.chronicled reachable managed).recorded published
  have housed := during.housed reachable.housed reachable.grounded
  have reloaded := during.epoch_ne_zero reachable managed published
  obtain ⟨native, hosted⟩ := housed.hosts t managed
  obtain ⟨w, mem, alike, -, -, sources⟩ := recorded.sources generated
  refine ⟨native, hosted.native, ⟨w, mem, alike, ?_⟩, fun access field owns => ?_⟩
  · intro key m found
    obtain ⟨source, inUnit, -, compiled⟩ := sources key m found
    exact ⟨source, inUnit, compiled, compiled.replaces_accesses⟩
  · have compares : e.ComparesAccess t native access field :=
      Engine.comparesAccess (during.layered reachable) housed (during.lineage reachable.lineage)
        hosted reloaded owns
    exact ⟨compares, fun n f g id facing => compares.answers_iff facing id⟩

namespace Trespassing

/-- A static field under the name of the type below. -/
def field : FieldRef := ⟨"app.T", "n", .int⟩

/-- A type that has the field for itself. -/
def keeper : TypeUnit :=
  (TypeUnit.named "lib.P").addField ⟨"n", .int, .privateBit ||| .staticBit, none, []⟩

/-- A static method that reads the field. -/
def reader (rest : List Instr) : MethodDef :=
  .make "read" ⟨[], .int⟩ (.publicBit ||| .staticBit) (.access .getStatic field :: rest)

/-- A type below that has the method. -/
def below (rest : List Instr) : TypeUnit :=
  ((TypeUnit.named "app.T").extending "lib.P").addMethod (reader rest)

/-- The body of the method after the reload. -/
def more : List Instr := [.constInt 0, .arith .add, .retValue]

/-- A scope in which both types were defined. -/
def defined : Engine :=
  ((Engine.opened { included := ["app.*"] }).defining 4 keeper).defining 4 (below [.retValue])

/-- The scope after a reload in which the body of the method is another. -/
def engine : Engine := defined.reloading 4 0 "again" (below more)

/-- The method of the host class, with guards. -/
def guarded : Method where
  key := ⟨"read", ⟨[], .int⟩⟩
  modifiers := .publicBit ||| .staticBit
  declared := .publicBit ||| .staticBit
  declaring := "app.T"
  maxLocals := 0
  code := [.entryCheck 0 0, .fieldCheck 0, .access .getStatic field, .retValue]

/-- The method of the executor. -/
def compiled : Method where
  key := ⟨"read", ⟨[], .int⟩⟩
  modifiers := .publicBit ||| .staticBit ||| .syntheticBit
  declared := .publicBit ||| .staticBit ||| .syntheticBit
  declaring := "app.T$$E1"
  maxLocals := 0
  code := .liveAccess .getStatic 0 field :: more

/-- What live versions make of the field. -/
def live : LiveField := ⟨"lib.P", "n", .int, .privateBit ||| .staticBit, none, 0, .native⟩

set_option maxRecDepth 100000 in
theorem outcomes :
    (((Engine.opened { included := ["app.*"] }).defining 4 keeper).scopes.size = 1 ∧
      defined.types.size = 1) ∧
    (engine.IsManaged 0 ∧ (engine.typeAt 0).published.isSome ∧
      ((engine.typeAt 0).name, (engine.typeAt 0).id, (engine.typeAt 0).scope) = ("app.T", 0, 0) ∧
      (engine.typeAt 0).native = some 1 ∧ (engine.typeAt 0).live.artifacts = some ⟨2, 3⟩ ∧
      (engine.typeAt 0).live.unit = below more) ∧
    ((engine.resolveField 0 1 "n").toOption = some (some live) ∧
      engine.mayUse 0 1 live.declaring live.modifiers = false) ∧
    (engine.classAt 1).method? guarded.key = some guarded ∧
    (engine.classAt 3).method? (executorKey "app.T" (.ofDef (reader more))) = some compiled ∧
    Exec.answers ((Machine.of 0 8).execute (.liveAccess .getStatic 0 field) (.enter 3 compiled [])
      engine) = true ∧
    Exec.answers ((Machine.of 0 8).guardedStep (.fieldCheck 0) (.access .getStatic field)
      { Frame.enter 1 guarded [] with pc := 1 } engine) = false := by
  decide +kernel

theorem reachable : engine.Reachable := by
  obtain ⟨⟨scopes, types⟩, -⟩ := outcomes
  have opened : (Engine.opened { included := ["app.*"] }).Reachable := Engine.reachable_opened _
  have both : defined.Reachable :=
    (opened.defining 4 keeper (by decide)).defining 4 (below [.retValue])
      (by rw [scopes]; exact Nat.one_pos)
  exact both.reloading 4 0 "again" (below more) (by rw [types]; exact Nat.one_pos)

theorem published : (engine.typeAt 0).published = some (engine.typeAt 0).live :=
  ManagedType.published_eq_live outcomes.2.1.2.1

end Trespassing

open Trespassing in
/-- The executor reads a private field of the supertype, which the guarded access refuses to the
type. -/
theorem executor_field_accesses_trespassing :
    Exec.answers ((Machine.of 0 8).execute (.liveAccess .getStatic 0 field) (.enter 3 compiled [])
      engine) = true ∧
    ∃ error : RunError, error.isRefusal = true ∧
      (Machine.of 0 8).guardedStep (.fieldCheck 0) (.access .getStatic field)
        { Frame.enter 1 guarded [] with pc := 1 } engine = .error (.error error) engine := by
  obtain ⟨-, ⟨managed, -, ids, hosted, generated, -⟩, ⟨found, denied⟩, -, -, reads, -⟩ := outcomes
  obtain ⟨name, id, scope⟩ : _ = _ ∧ _ = _ ∧ _ = _ := by simpa only [Prod.mk.injEq] using ids
  have reachable := reachable
  have published := published
  -- What matters about the engine is known; its definition is not to be unfolded.
  generalize engine = e at *
  obtain ⟨native, hosted', -, compares⟩ :=
    executor_field_accesses_iff reachable (.refl e) managed published generated
  obtain rfl : 1 = native := Option.some.inj (hosted.symm.trans hosted')
  obtain ⟨compares, -⟩ := compares .getStatic field (by rw [name]; rfl)
  obtain ⟨-, refused, -⟩ := compares.denied 8 (.enter 3 compiled [])
    { Frame.enter 1 guarded [] with pc := 1 } 0 live ⟨rfl, rfl, rfl⟩
    (by rw [scope]; exact ⟨Exec.ok_of_toOption found, rfl⟩) (by rw [scope]; exact .inl denied)
  rw [scope] at refused
  exact ⟨reads, refused⟩

open Trespassing in
/-- The instruction that executors have for a field access under the name of their type succeeds
where the guarded access of the host class is refused. -/
theorem executor_field_accesses_unguarded :
    ¬ ∀ (e : Engine) (t : TypeRef) (v : LiveVersion) (a : Artifacts) (native : ClassRef),
      e.Reachable → e.IsManaged t → (e.typeAt t).native = some native →
      (e.typeAt t).published = some v → v.artifacts = some a →
      ∀ source ∈ v.unit.bodied, ∀ (m host : Method) (index place pc : Nat) (access : FieldAccess)
        (field : FieldRef) (id : TypeId), field.owner = (e.typeAt t).name →
        source.code[index]? = some (.access access field) →
        (e.classAt a.executor).method? (executorKey (e.typeAt t).name (.ofDef source)) = some m →
        m.code[place]? = some (.liveAccess access (e.typeAt t).id field) →
        (e.classAt native).method? host.key = some host →
        host.code[pc]? = some (.fieldCheck id) →
        host.code[pc + 1]? = some (.access access field) →
        ∀ (fuel : Nat) (locals stack : List Value),
          Exec.answers ((Machine.of (e.typeAt t).scope fuel).execute
            (.liveAccess access (e.typeAt t).id field) ⟨a.executor, m, locals, stack, place⟩ e) =
              true →
          Exec.answers ((Machine.of (e.typeAt t).scope fuel).guardedStep (.fieldCheck id)
            (.access access field) ⟨native, host, locals, stack, pc⟩ e) = true := by
  intro right
  obtain ⟨-, ⟨managed, -, ids, hosted, generated, unit_eq⟩, -, host, compiles, reads, refused⟩ :=
    outcomes
  obtain ⟨name, id, scope⟩ : _ = _ ∧ _ = _ ∧ _ = _ := by simpa only [Prod.mk.injEq] using ids
  have reachable := reachable
  have published := published
  generalize engine = e at *
  have right := right e 0 _ ⟨2, 3⟩ 1 reachable managed hosted published generated
  rw [unit_eq, name, id, scope] at right
  have inUnit : reader more ∈ (below more).bodied := by decide
  have follows : Exec.answers _ = true := right _ inUnit compiled guarded 0 0 1 .getStatic field 0
    rfl rfl compiles rfl host rfl rfl 8 [] [] reads
  exact Bool.eq_false_iff.1 refused follows

end LiveUpdate
