import LiveUpdate.Proofs.InheritedFields
import LiveUpdate.Proofs.StoredFields

/-!
# Receivers of field accesses

An object has slots for the instance fields of its class and of the superclasses of that.  So
an access of a field that is kept in a slot fails with an object of any other class.  A field
that is kept in stores has no slot to be looked for, and nothing else compares the class of
the object with the type that declares the field: the store of any object is read and written.
-/

set_option autoImplicit false

namespace LiveUpdate

open Exec

/-- The operands of an instance access are on the stack: the object, and above it, when the
access is a write, the value to write. -/
inductive Frame.Offers (f : Frame) (o : ObjectRef) : FieldAccess → Option Value → Prop
  | read {rest : List Value} (stacked : f.stack = .object o :: rest) : Offers f o .get none
  | write {value : Value} {rest : List Value} (stacked : f.stack = value :: .object o :: rest) :
      Offers f o .put (some value)

/-- The operands stay where they are when the frame goes to another place of its code. -/
theorem Frame.Offers.goTo {f : Frame} {o : ObjectRef} {access : FieldAccess}
    {operand : Option Value} (offers : f.Offers o access operand) (pc : Nat) :
    (f.goTo pc).Offers o access operand := by
  cases offers with
  | read stacked => exact .read stacked
  | write stacked => exact .write stacked

namespace Step

variable {α β : Type} {x : Step α} {f : Frame} {e : Engine} {o : ObjectRef} {live : LiveField}
  {refused : Prop}

/-- A step fails and leaves the engine as it is. -/
def FailsAt (x : Step α) (f : Frame) (e : Engine) : Prop :=
  ∃ error : RunError, x f e = .error (.error error) e

/-- A step goes on, and all that it does to the engine is that the store of an object is another
one and has an entry for a field. -/
def LeavesEntry (x : Step α) (f : Frame) (e : Engine) (o : ObjectRef) (live : LiveField) : Prop :=
  ∃ r store, x f e = .ok r (e.withStore o store) ∧
    store.contains live.declaring live.name = true

/-- A step fails and leaves the engine as it is under a condition, and only then; else it leaves
an entry. -/
structure FailsExactly (x : Step α) (f : Frame) (e : Engine) (o : ObjectRef) (live : LiveField)
    (refused : Prop) : Prop where
  fails : FailsAt x f e ↔ refused
  leaves : ¬ refused → LeavesEntry x f e o live

theorem FailsExactly.intro (fails : refused → FailsAt x f e)
    (leaves : ¬ refused → LeavesEntry x f e o live) : FailsExactly x f e o live refused := by
  refine ⟨⟨fun failed => ?_, fails⟩, leaves⟩
  by_contra free
  obtain ⟨error, failed⟩ := failed
  obtain ⟨r, store, went, -⟩ := leaves free
  cases failed.symm.trans went

theorem FailsExactly.of_fails (failed : FailsAt x f e) (holds : refused) :
    FailsExactly x f e o live refused :=
  .intro (fun _ => failed) fun free => absurd holds free

/-- Another step that does the same here fails exactly where this one does. -/
theorem FailsExactly.congr {y : Step α} {refused' : Prop}
    (exactly : FailsExactly y f e o live refused') (same : x f e = y f e)
    (iff : refused ↔ refused') : FailsExactly x f e o live refused := by
  have fails : FailsAt x f e ↔ FailsAt y f e := by
    unfold FailsAt
    rw [same]
  have leaves : LeavesEntry x f e o live ↔ LeavesEntry y f e o live := by
    unfold LeavesEntry
    rw [same]
  exact ⟨fails.trans (exactly.fails.trans iff.symm),
    fun free => leaves.2 (exactly.leaves fun holds => free (iff.2 holds))⟩

/-- What goes on behind a step in the same way fails where the step does. -/
theorem FailsAt.bind (failed : FailsAt x f e) (k : α → Step β) : FailsAt (x >>= k) f e := by
  obtain ⟨error, failed⟩ := failed
  exact ⟨error, by rw [bind_apply, failed]⟩

theorem LeavesEntry.bind_pure (left : LeavesEntry x f e o live) (b : β) :
    LeavesEntry (x >>= fun _ => pure b) f e o live := by
  obtain ⟨⟨_, f'⟩, store, went, has⟩ := left
  exact ⟨(b, f'), store, by rw [bind_apply, went]; rfl, has⟩

theorem FailsExactly.bind_pure (exactly : FailsExactly x f e o live refused) (b : β) :
    FailsExactly (x >>= fun _ => pure b) f e o live refused :=
  .intro (fun refused => (exactly.fails.2 refused).bind _)
    fun free => (exactly.leaves free).bind_pure b

theorem pop_bind {v : Value} {rest : List Value} (stacked : f.stack = v :: rest)
    (k : Value → Step β) : (pop >>= k) f e = k v { f with stack := rest } e := by
  unfold pop
  rw [onFrame_bind]
  unfold Frame.pop
  rw [stacked]

end Step

namespace Engine

variable {e : Engine} {c : ClassRef} {declaring name : String}

/-- A class has no slot for the fields of a type that it does not extend. -/
theorem Lineage.fieldSlot?_foreign (lineage : e.Lineage)
    (foreign : e.descendsFrom c declaring = false) (name : String) :
    (e.classAt c).fieldSlot? declaring name = none := by
  cases place : (e.classAt c).fieldSlot? declaring name with
  | none => rfl
  | some index =>
    obtain ⟨lt, -⟩ := List.findIdx?_eq_some_iff_getElem.1 place
    obtain ⟨mem, named, -⟩ := Machine.declared_of_fieldSlot? place (List.getElem?_eq_getElem lt)
    obtain ⟨d, above, f, -, -, slot⟩ := lineage.mem_instanceFields mem
    rw [slot] at named
    have found : e.descendsFrom c declaring = true :=
      List.find?_isSome.2 ⟨d, above, decide_eq_true named⟩
    rw [foreign] at found
    cases found

variable {o : ObjectRef} (lineage : e.Lineage)
  (foreign : e.descendsFrom (e.objectAt o).cls declaring = false)
include lineage foreign

theorem Lineage.readSlot_foreign (name : String) (missing : RunError) :
    e.readSlot o declaring name missing = .error missing := by
  have absent : (e.classOf o).fieldSlot? declaring name = none :=
    lineage.fieldSlot?_foreign foreign name
  unfold readSlot slotValue?
  rw [absent]
  rfl

theorem Lineage.instanceSlot_foreign (name : String) (missing : RunError) :
    e.instanceSlot o declaring name missing = .error missing := by
  have absent : (e.classOf o).fieldSlot? declaring name = none :=
    lineage.fieldSlot?_foreign foreign name
  unfold instanceSlot
  rw [absent]

end Engine

namespace Machine

variable {m : Machine} {e : Engine} {f : Frame} {access : FieldAccess} {field : FieldRef}
  {live : LiveField} {o : ObjectRef} {operand : Option Value} {rest : List Value}

theorem accessLive_read (stacked : f.stack = .object o :: rest) :
    m.accessLive .get field live f e = match m.readField live (some o) e with
      | .ok v e' => .ok ((), { f with stack := v :: rest }) e'
      | .error stop e' => .error stop e' := by
  unfold accessLive
  dsimp only
  rw [Step.pop_bind stacked, Step.check_bind]
  dsimp only [fieldReceiver]
  rw [Step.lift_bind]
  cases m.readField live (some o) e <;> rfl

theorem accessLive_write {value : Value} (stacked : f.stack = value :: .object o :: rest) :
    m.accessLive .put field live f e = match m.writeField live (some o) value e with
      | .ok _ e' => .ok ((), { f with stack := rest }) e'
      | .error stop e' => .error stop e' := by
  unfold accessLive
  dsimp only
  rw [Step.pop_bind stacked, Step.pop_bind rfl, Step.check_bind]
  dsimp only [fieldReceiver]
  rw [Step.lift_apply]
  cases m.writeField live (some o) value e <;> rfl

/-! ### Fields in slots -/

/-- A slot that an object does not have is neither read nor written. -/
theorem accessLive_foreign (lineage : e.Lineage) (kept : live.storedBy? = none)
    (offers : f.Offers o access operand)
    (foreign : e.descendsFrom (e.objectAt o).cls live.declaring = false) (field : FieldRef) :
    Step.FailsAt (m.accessLive access field live) f e := by
  cases offers with
  | read stacked =>
    have failed : m.readField live (some o) e = .error (.error live.missing) e := by
      rw [readField_slot kept, check_apply, lineage.readSlot_foreign foreign]
    exact ⟨_, by rw [accessLive_read stacked, failed]⟩
  | @write value rest stacked =>
    have failed : ∃ error : RunError,
        m.writeField live (some o) value e = .error (.error error) e := by
      rw [writeField_slot kept, bind_apply, check_apply]
      cases value.checkConforms e live.sig with
      | error error => exact ⟨error, rfl⟩
      | ok =>
        refine ⟨live.missing, ?_⟩
        dsimp only
        unfold writeSlot
        rw [bind_apply, check_apply, lineage.instanceSlot_foreign foreign]
    obtain ⟨error, failed⟩ := failed
    exact ⟨error, by rw [accessLive_write stacked, failed]⟩

/-- So it is with the host's access. -/
theorem accessFound_foreign {host : HostField} (lineage : e.Lineage)
    (offers : f.Offers o access operand)
    (foreign : e.descendsFrom (e.objectAt o).cls host.slot.declaring = false) (field : FieldRef) :
    Step.FailsAt (m.accessFound access field host) f e := by
  unfold accessFound
  cases offers with
  | read stacked =>
    refine ⟨.fieldMissing field, ?_⟩
    dsimp only
    rw [Step.pop_bind stacked, Step.check_bind]
    dsimp only [fieldReceiver]
    rw [Step.check_bind, lineage.readSlot_foreign foreign]
  | @write value rest stacked =>
    dsimp only
    unfold Step.FailsAt
    rw [Step.pop_bind stacked, Step.pop_bind rfl, Step.check_bind]
    dsimp only [fieldReceiver]
    rw [Step.check_bind]
    cases value.checkConforms e host.slot.sig with
    | error error => exact ⟨error, rfl⟩
    | ok =>
      refine ⟨.fieldMissing field, ?_⟩
      dsimp only
      unfold writeSlot
      rw [Step.lift_apply, bind_apply, check_apply, lineage.instanceSlot_foreign foreign]

end Machine

/-! ### Fields in stores -/

/-- The store of an object refuses an access: a read of an entry that does not fit, where the
options say that such a read fails, or a write of a value that does not fit. -/
def Engine.StoreRefuses (e : Engine) (s : ScopeRef) (o : ObjectRef) (live : LiveField) :
    Option Value → Prop
  | none => (e.scopeAt s).options.fieldPolicy = .refuse ∧
    ∃ v, (e.storeOf o).value? live.declaring live.name = some v ∧ v.conforms e live.sig = false
  | some value => value.conforms e live.sig = false

namespace Machine

variable {m : Machine} {e : Engine} {f : Frame} {access : FieldAccess} {field : FieldRef}
  {live : LiveField} {o : ObjectRef} {operand : Option Value} {rest : List Value} {t : TypeRef}

/-- A read of a field in a store fails where the store refuses it, and else leaves an entry. -/
theorem readField_leaves (m : Machine) (kept : live.storedBy? = some t) (o : ObjectRef) :
    (e.StoreRefuses m.scope o live none →
      ∃ error : RunError, m.readField live (some o) e = .error (.error error) e) ∧
    (¬ e.StoreRefuses m.scope o live none →
      ∃ v store, m.readField live (some o) e = .ok v (e.withStore o store) ∧
        store.contains live.declaring live.name = true) := by
  rw [readField_stored kept]
  unfold Engine.askStore Engine.StoreRefuses
  rcases (e.storeOf o).get_cases live.declaring live.name live.sig
      (e.scopeAt m.scope).options.fieldPolicy (fun v => v.conforms e live.sig)
      (fun store => (e.inheritedValue? m.scope o live.name live.sig, store)) with
    ⟨value, held, conforms, answer⟩ | ⟨value, held, unfit, refuses, answer⟩ | ⟨left, unanswered⟩
  · rw [answer]
    refine ⟨fun ⟨_, value', held', unfit⟩ => ?_, fun _ =>
      ⟨value, _, rfl, Option.isSome_iff_exists.2 ⟨value, held⟩⟩⟩
    obtain rfl := Option.some.inj (held.symm.trans held')
    exact absurd conforms (Bool.eq_false_iff.1 unfit)
  · rw [answer]
    dsimp only
    rw [Engine.withStore_storeOf held]
    exact ⟨fun _ => ⟨_, rfl⟩, fun free => absurd ⟨refuses, value, held, unfit⟩ free⟩
  · rw [unanswered.get_eq]
    refine ⟨fun ⟨refuses, value, held, unfit⟩ => ?_, fun _ =>
      ⟨_, _, rfl, FieldStore.fill_contains ..⟩⟩
    cases unanswered with
    | absent vacant =>
      rw [vacant] at held
      cases held
    | dropped _ _ discards =>
      rw [refuses] at discards
      cases discards

/-- So does a write. -/
theorem writeField_leaves (m : Machine) (kept : live.storedBy? = some t) (o : ObjectRef)
    (value : Value) :
    (e.StoreRefuses m.scope o live (some value) →
      ∃ error : RunError, m.writeField live (some o) value e = .error (.error error) e) ∧
    (¬ e.StoreRefuses m.scope o live (some value) →
      ∃ store, m.writeField live (some o) value e = .ok () (e.withStore o store) ∧
        store.contains live.declaring live.name = true) := by
  rw [writeField_stored kept]
  dsimp only [Engine.StoreRefuses]
  cases value.conforms e live.sig with
  | false => exact ⟨fun _ => ⟨_, rfl⟩, fun free => absurd rfl free⟩
  | true => exact ⟨nofun, fun _ => ⟨_, rfl, FieldStore.contains_set ..⟩⟩

/-- An access by live versions, of an object of which the declaring type is not a superclass, fails
exactly where no store has the field or the store of the object refuses the access. -/
theorem accessLive_fails (lineage : e.Lineage) (offers : f.Offers o access operand)
    (foreign : e.descendsFrom (e.objectAt o).cls live.declaring = false) (field : FieldRef) :
    Step.FailsExactly (m.accessLive access field live) f e o live
      (live.storedBy? = none ∨ e.StoreRefuses m.scope o live operand) := by
  cases kept : live.storedBy? with
  | none => exact .of_fails (accessLive_foreign lineage kept offers foreign field) (.inl rfl)
  | some t =>
    simp only [reduceCtorEq, false_or]
    cases offers with
    | read stacked =>
      obtain ⟨fails, leaves⟩ := m.readField_leaves (e := e) kept o
      refine .intro (fun refused => ?_) fun free => ?_
      · obtain ⟨error, failed⟩ := fails refused
        exact ⟨error, by rw [accessLive_read stacked, failed]⟩
      · obtain ⟨v, store, read, has⟩ := leaves free
        exact ⟨_, store, by rw [accessLive_read stacked, read], has⟩
    | write stacked =>
      obtain ⟨fails, leaves⟩ := m.writeField_leaves (e := e) kept o _
      refine .intro (fun refused => ?_) fun free => ?_
      · obtain ⟨error, failed⟩ := fails refused
        exact ⟨error, by rw [accessLive_write stacked, failed]⟩
      · obtain ⟨store, written, has⟩ := leaves free
        exact ⟨_, store, by rw [accessLive_write stacked, written], has⟩

/-! ### The host's instruction -/

/-- The host refuses an access at once or finds a field for it. -/
theorem hostField_cases {owner : ClassRef} (known : e.class? m.scope field.owner = some owner)
    (caller : ClassRef) (access : FieldAccess) :
    (∃ error : RunError, m.hostField caller access field e = .error (.error error) e) ∨
      ∃ host, e.hostField? owner field.name = some host ∧
        m.hostField caller access field e = .ok host e := by
  unfold hostField Engine.requireClass
  rw [bind_apply, check_apply, known]
  dsimp only
  rw [bind_apply, require_apply]
  cases e.hostField? owner field.name with
  | none => exact .inl ⟨_, rfl⟩
  | some host =>
    dsimp only
    rw [bind_apply, ofResult_apply]
    cases checkFieldUse access field host.slot.isStatic host.slot.sig with
    | error error => exact .inl ⟨error, rfl⟩
    | ok =>
      dsimp only
      rw [bind_apply, check_apply]
      cases e.checkAccess m.scope caller host.slot.declaring host.slot.modifiers field.text with
      | error error => exact .inl ⟨error, rfl⟩
      | ok => exact .inr ⟨host, rfl, rfl⟩

/-- The host's access fails with an object that has no slot for the field that the host finds. -/
theorem execute_access_foreign {owner : ClassRef} (lineage : e.Lineage)
    (known : e.class? m.scope field.owner = some owner) (offers : f.Offers o access operand)
    (foreign : ∀ host, e.hostField? owner field.name = some host →
      e.descendsFrom (e.objectAt o).cls host.slot.declaring = false) :
    Step.FailsAt (m.execute (.access access field)) f e := by
  show Step.FailsAt (m.accessHost access field >>= fun _ => pure Flow.next) f e
  refine Step.FailsAt.bind ?_ _
  unfold Step.FailsAt
  rw [accessHost_apply]
  rcases hostField_cases (m := m) known f.cls access with ⟨error, failed⟩ | ⟨host, linked, found⟩
  · rw [failed]
    exact ⟨error, rfl⟩
  · rw [found]
    exact accessFound_foreign lineage offers (foreign host linked) field

/-- Before the first reload a guard leaves a field access to the host. -/
theorem guardedStep_field_early {g : Frame} {id : TypeId} (early : (e.scopeAt m.scope).epoch = 0)
    (next : g.method.code[g.pc + 1]? = some (.access access field)) :
    m.guardedStep (.fieldCheck id) (.access access field) g e =
      m.execute (.access access field) (g.goTo (g.pc + 1)) e := by
  have guard : m.execute (.fieldCheck id) g e = m.checkField g e := rfl
  have routed : m.routeField g.cls access field e = .ok .native e := by
    unfold routeField
    rw [bind_apply, ask_apply]
    dsimp only
    rw [if_pos early]
    rfl
  rw [guardedStep_apply, guard]
  unfold checkField
  rw [Step.guarded_bind next]
  dsimp only
  rw [Step.get_bind, Step.lift_bind, routed]
  rfl

end Machine

/-! ### All accesses -/

namespace Engine

variable {e₀ e : Engine} {s : ScopeRef} {owner : ClassRef} {name : String} {live : LiveField}

/-- Before the first reload of a scope live versions find what the host finds, in its slot. -/
theorem During.resolveField_early (during : e₀.During e) (reachable : e₀.Reachable)
    (home : e.Homes s owner) (early : (e.scopeAt s).epoch = 0)
    (found : e.resolveField s owner name = .ok (some live)) :
    live.storedBy? = none ∧
      ∀ host, e.hostField? owner name = some host → host.slot.declaring = live.declaring := by
  have housed := during.housed reachable.housed reachable.grounded
  -- no managed type of the scope has another version than its first one
  have unchanged : ∀ d ∈ owner :: (e.classAt owner).superclasses, ∀ t,
      e.managedOf? s d = some t → (e.typeAt t).KeepsFields := by
    intro d _ t managed
    obtain ⟨managed, scope⟩ := housed.managed_of_managedOf? managed
    rcases (during.chronicled reachable managed).live_cases with ⟨-, isFirst⟩ | ⟨published, -⟩
    · exact ⟨by rw [isFirst], fun d => by rw [isFirst]⟩
    · have reloaded := during.epoch_ne_zero reachable managed published
      rw [scope] at reloaded
      exact absurd early reloaded
  obtain ⟨found', resolves, agrees⟩ := during.resolveField_agrees reachable home unchanged name
  obtain rfl : found' = some live := Except.ok.inj (resolves.symm.trans found)
  generalize e.hostField? owner name = linked at agrees
  cases agrees with
  | @some _ host agrees =>
    constructor
    · unfold LiveField.storedBy?
      rw [agrees.placement]
      rfl
    · rintro _ ⟨⟩
      exact agrees.declaring.symm

/-- Live versions refuse an access with an object that has no slot for the field: the field is of
another kind or type than the access says, no store has it, or the store of the object refuses
the access. -/
def RefusesAccess (e : Engine) (s : ScopeRef) (o : ObjectRef) (access : FieldAccess)
    (field : FieldRef) (live : LiveField) (operand : Option Value) : Prop :=
  checkFieldUse access field live.isStatic live.sig ≠ .ok () ∨ live.storedBy? = none ∨
    e.StoreRefuses s o live operand

end Engine

namespace Machine

variable {e₀ e : Engine} {m : Machine} {f : Frame} {o : ObjectRef} {access : FieldAccess}
  {operand : Option Value} {field : FieldRef} {owner : ClassRef} {live : LiveField} {t : TypeRef}
  {id : TypeId}

/-- An access that does not fit the field that is found is refused. -/
theorem liveField_unfit (found : e.resolveField m.scope owner field.name = .ok (some live))
    (unfit : checkFieldUse access field live.isStatic live.sig ≠ .ok ()) :
    ∃ error : RunError, m.liveField owner access field e = .error (.error error) e := by
  unfold liveField
  rw [bind_apply, resolve_apply, found]
  dsimp only
  rw [bind_apply, ofResult_apply]
  cases fits : checkFieldUse access field live.isStatic live.sig with
  | ok => exact absurd fits unfit
  | error error => exact ⟨error, rfl⟩

/-- The engine's instruction, with an object that is none of the declaring type. -/
theorem execute_liveAccess_foreign (lineage : e.Lineage)
    (registered : e.typeWithId? m.scope id = some t) (hosts : (e.typeAt t).native = some owner)
    (found : e.resolveField m.scope owner field.name = .ok (some live))
    (offers : f.Offers o access operand)
    (foreign : e.descendsFrom (e.objectAt o).cls live.declaring = false) :
    Step.FailsExactly (m.execute (.liveAccess access id field)) f e o live
      (e.RefusesAccess m.scope o access field live operand) := by
  have executed := execute_liveAccess (m := m) registered hosts access field f
  by_cases fits : checkFieldUse access field live.isStatic live.sig = .ok ()
  · rw [liveField_apply found fits] at executed
    exact ((accessLive_fails lineage offers foreign field).bind_pure Flow.next).congr executed
      (or_iff_right (absurd fits))
  · obtain ⟨error, failed⟩ := liveField_unfit found fits
    rw [failed] at executed
    exact .of_fails ⟨error, executed⟩ (.inl fits)

/-- A guard leaves an access to the host, and the field that the host finds is of the declaring
type. -/
theorem guardedStep_fails_of_host {guard : Instr} (lineage : e.Lineage)
    (known : e.class? m.scope field.owner = some owner) (offers : f.Offers o access operand)
    (foreign : e.descendsFrom (e.objectAt o).cls live.declaring = false)
    (slotted : ∀ host, e.hostField? owner field.name = some host →
      host.slot.declaring = live.declaring)
    (stepped : m.guardedStep guard (.access access field) f e =
      m.execute (.access access field) (f.goTo (f.pc + 1)) e) :
    Step.FailsAt (m.guardedStep guard (.access access field)) f e := by
  unfold Step.FailsAt
  rw [stepped]
  exact execute_access_foreign lineage known (offers.goTo _) fun host linked =>
    (slotted host linked).symm ▸ foreign

/-- The guarded access, with an object that is none of the declaring type. -/
theorem guardedStep_foreign (field : FieldRef) (reachable : e₀.Reachable) (during : e₀.During e)
    (known : e.class? m.scope field.owner = some owner)
    (next : f.method.code[f.pc + 1]? = some (.access access field))
    (found : e.resolveField m.scope owner field.name = .ok (some live))
    (offers : f.Offers o access operand)
    (foreign : e.descendsFrom (e.objectAt o).cls live.declaring = false) (id : TypeId) :
    Step.FailsExactly (m.guardedStep (.fieldCheck id) (.access access field)) f e o live
      (e.mayUse m.scope f.cls live.declaring live.modifiers = false ∨
        e.RefusesAccess m.scope o access field live operand) := by
  have home : e.Homes m.scope owner := ⟨_, known⟩
  have housed := during.housed reachable.housed reachable.grounded
  have lineage := during.lineage reachable.lineage
  -- the host makes the access before the first reload, and where it reaches the field in its slot
  by_cases early : (e.scopeAt m.scope).epoch = 0
  · obtain ⟨kept, slotted⟩ := during.resolveField_early reachable home early found
    exact .of_fails (guardedStep_fails_of_host lineage known offers foreign slotted
      (guardedStep_field_early early next)) (.inr (.inr (.inl kept)))
  by_cases fits : checkFieldUse access field live.isStatic live.sig = .ok ()
  · have stepped : m.guardedStep (.fieldCheck id) (.access access field) f e = _ :=
      guardedStep_field early next known found fits
    cases permitted : e.mayUse m.scope f.cls live.declaring live.modifiers with
    | false =>
      rw [permitted] at stepped
      exact .of_fails ⟨_, stepped⟩ (.inl rfl)
    | true =>
      rw [permitted, if_pos rfl] at stepped
      cases reach : reaches e owner live with
      | true =>
        rw [reach, if_pos rfl] at stepped
        obtain ⟨host, linked, backing⟩ :=
          (during.layered reachable).backing housed lineage home found reach
        refine .of_fails (guardedStep_fails_of_host lineage known offers foreign
          (fun host' linked' => ?_) stepped) (.inr (.inr (.inl backing.kept)))
        obtain rfl := Option.some.inj (linked.symm.trans linked')
        exact backing.declaring
      | false =>
        rw [reach] at stepped
        exact ((accessLive_fails lineage offers foreign field).bind_pure Flow.skip).congr stepped
          ((or_iff_right nofun).trans (or_iff_right (absurd fits)))
  · obtain ⟨error, missing⟩ := liveField_unfit found fits
    exact .of_fails ⟨error, guardedStep_field_missing early next known missing⟩ (.inr (.inl fits))

end Machine

/-- In an engine that has come from a reachable one while code ran let live versions find a field
for a class, and let the receiver of an access be an object of which the declaring type is
neither the class nor a superclass.  The engine's instruction fails, with the engine as it was,
exactly where the access does not fit the field, no store has the field, or the store of the
object refuses the access.  The guarded access fails there too, and where live versions do not
permit it.  Else each of them leaves an entry for the field in the store of the object. -/
theorem foreign_receiver_accesses_iff {e₀ e : Engine} {m : Machine} {f : Frame} {o : ObjectRef}
    {access : FieldAccess} {operand : Option Value} (field : FieldRef) {owner : ClassRef}
    {live : LiveField} (reachable : e₀.Reachable) (during : e₀.During e)
    (found : e.resolveField m.scope owner field.name = .ok (some live))
    (offers : f.Offers o access operand)
    (foreign : e.descendsFrom (e.objectAt o).cls live.declaring = false) :
    (∀ t id, e.typeWithId? m.scope id = some t → (e.typeAt t).native = some owner →
      Step.FailsExactly (m.execute (.liveAccess access id field)) f e o live
        (e.RefusesAccess m.scope o access field live operand)) ∧
    (∀ id, e.class? m.scope field.owner = some owner →
      f.method.code[f.pc + 1]? = some (.access access field) →
      Step.FailsExactly (m.guardedStep (.fieldCheck id) (.access access field)) f e o live
        (e.mayUse m.scope f.cls live.declaring live.modifiers = false ∨
          e.RefusesAccess m.scope o access field live operand)) :=
  ⟨fun _ _ registered hosts =>
    Machine.execute_liveAccess_foreign (during.lineage reachable.lineage) registered hosts found
      offers foreign,
   fun id known next =>
    Machine.guardedStep_foreign field reachable during known next found offers foreign id⟩

namespace Straying

def x : FieldDef := ⟨"x", .int, .publicBit, none, []⟩

def y : FieldDef := ⟨"y", .int, .publicBit, none, []⟩

/-- A type with fields. -/
def holder (fields : List FieldDef) : TypeUnit :=
  { TypeUnit.named "app.T" with fields }.addDefaultConstructor

/-- A method that reads two fields under the name of that type, of an object of another one. -/
def peek : MethodDef :=
  .make "peek" ⟨[.ref "lib.U"], .int⟩ (.publicBit ||| .staticBit)
    [.load 0, .access .get ⟨"app.T", "x", .int⟩, .load 0, .access .get ⟨"app.T", "y", .int⟩,
      .arith .add, .retValue]

/-- The other type, which is not managed and has no fields. -/
def stranger : TypeUnit := (TypeUnit.named "lib.U").addDefaultConstructor.addMethod peek

/-- A scope in which both were defined. -/
def defined : Engine :=
  ((Engine.opened { included := ["app.*"] }).defining 8 (holder [x])).defining 8 stranger

def made : Engine := ((Scope.Use.newInstance "lib.U" .void []).perform 8 0).final defined

/-- The scope with an object of the other type, after a reload that adds the second field. -/
def engine : Engine := made.reloading 8 0 "second" (holder [x, y])

/-- The method with guards. -/
def guarded : Method where
  key := ⟨"peek", ⟨[.ref "lib.U"], .int⟩⟩
  modifiers := .publicBit ||| .staticBit
  declared := .publicBit ||| .staticBit
  declaring := "lib.U"
  maxLocals := 1
  code := [.load 0, .fieldCheck 0, .access .get ⟨"app.T", "x", .int⟩, .load 0, .fieldCheck 0,
    .access .get ⟨"app.T", "y", .int⟩, .arith .add, .retValue]

/-- The method with its argument on the stack, in front of a guard. -/
def before (pc : Nat) : Frame := ⟨1, guarded, [.object 0], [.object 0], pc⟩

/-- The field of the first version, which is kept in slots. -/
def slotted : LiveField := ⟨"app.T", "x", .int, .publicBit, some 0, 0, .native⟩

/-- The field of the second version, which is kept in stores. -/
def stored : LiveField := ⟨"app.T", "y", .int, .publicBit, some 0, 0, .store⟩

set_option maxRecDepth 100000 in
theorem outcomes :
    (((Engine.opened { included := ["app.*"] }).defining 8 (holder [x])).scopes.size = 1 ∧
      made.types.size = 1) ∧
    (engine.class? 0 "app.T" = some 0 ∧ engine.typeWithId? 0 0 = some 0 ∧
      (engine.typeAt 0).native = some 0 ∧
      (engine.classAt 1).method? guarded.key = some guarded) ∧
    ((engine.resolveField 0 0 "x").toOption = some (some slotted) ∧
      (engine.resolveField 0 0 "y").toOption = some (some stored)) ∧
    (engine.descendsFrom (engine.objectAt 0).cls "app.T" = false ∧
      (engine.storeOf 0).value? "app.T" "y" = none) ∧
    engine.mayUse 0 1 "app.T" .publicBit = true := by
  decide +kernel

theorem reachable : engine.Reachable := by
  obtain ⟨⟨scopes, types⟩, -⟩ := outcomes
  have opened : (Engine.opened { included := ["app.*"] }).Reachable := Engine.reachable_opened _
  have made : made.Reachable :=
    ((opened.defining 8 (holder [x]) (by decide)).defining 8 stranger
      (by rw [scopes]; exact Nat.one_pos)).step (.use 8 0 (.newInstance "lib.U" .void []))
  exact made.reloading 8 0 "second" (holder [x, y]) (by rw [types]; exact Nat.one_pos)

/-- No store refuses the read of the new field. -/
theorem not_refusesAccess {e : Engine} (vacant : (e.storeOf 0).value? "app.T" "y" = none) :
    ¬ e.RefusesAccess 0 0 .get ⟨"app.T", "y", .int⟩ stored none := by
  rintro (unfit | kept | ⟨-, v, held, -⟩)
  · exact unfit rfl
  · cases kept
  · cases vacant.symm.trans held

end Straying

open Straying in
/-- The guarded read of the field in slots fails, and leaves the engine as it is.  The guarded read
of the field in stores, and the read by the engine's instruction, leave an entry in the store of
the object of the other type. -/
theorem foreign_receiver_accesses_straying :
    Step.FailsAt ((Machine.of 0 8).guardedStep (.fieldCheck 0)
      (.access .get ⟨"app.T", "x", .int⟩)) (before 1) engine ∧
    Step.LeavesEntry ((Machine.of 0 8).guardedStep (.fieldCheck 0)
      (.access .get ⟨"app.T", "y", .int⟩)) (before 4) engine 0 stored ∧
    Step.LeavesEntry ((Machine.of 0 8).execute (.liveAccess .get 0 ⟨"app.T", "y", .int⟩))
      (before 4) engine 0 stored := by
  obtain ⟨-, ⟨known, registered, native, -⟩, ⟨first, second⟩, ⟨foreign, vacant⟩, permitted⟩ :=
    outcomes
  have reachable := reachable
  -- What matters about the engine is known; its definition is not to be unfolded.
  generalize engine = e at *
  have first : e.resolveField 0 0 "x" = .ok (some slotted) := Exec.ok_of_toOption first
  have second : e.resolveField 0 0 "y" = .ok (some stored) := Exec.ok_of_toOption second
  obtain ⟨-, slotted⟩ := foreign_receiver_accesses_iff (m := Machine.of 0 8) ⟨"app.T", "x", .int⟩
    reachable (.refl e) first (f := before 1) (.read rfl) foreign
  obtain ⟨privileged, guarded⟩ := foreign_receiver_accesses_iff (m := Machine.of 0 8)
    ⟨"app.T", "y", .int⟩ reachable (.refl e) second (f := before 4) (.read rfl) foreign
  refine ⟨(slotted 0 known rfl).fails.2 (.inr (.inr (.inl rfl))), ?_, ?_⟩
  · refine (guarded 0 known rfl).leaves fun refused => ?_
    rcases refused with refused | refused
    · exact absurd (permitted.symm.trans refused) nofun
    · exact not_refusesAccess vacant refused
  · exact (privileged 0 0 registered native).leaves (not_refusesAccess vacant)

open Straying in
/-- A method that the engine runs reads a field of an object that is none of the type that
declares the field. -/
theorem foreign_receiver_accesses_answered :
    ¬ ∀ (e : Engine) (s : ScopeRef) (fuel : Nat) (f : Frame) (o : ObjectRef)
      (access : FieldAccess) (operand : Option Value) (field : FieldRef) (owner : ClassRef)
      (live : LiveField) (id : TypeId), e.Reachable →
      e.resolveField s owner field.name = .ok (some live) → live.isStatic = false →
      f.Offers o access operand →
      e.descendsFrom (e.objectAt o).cls live.declaring = false →
      e.class? s field.owner = some owner →
      (e.classAt f.cls).method? f.method.key = some f.method →
      f.method.code[f.pc]? = some (.fieldCheck id) →
      f.method.code[f.pc + 1]? = some (.access access field) →
      Step.FailsAt ((Machine.of s fuel).guardedStep (.fieldCheck id) (.access access field)) f
        e := by
  intro right
  obtain ⟨-, ⟨known, -, -, runs⟩, ⟨-, second⟩, ⟨foreign, vacant⟩, permitted⟩ := outcomes
  have reachable := reachable
  generalize engine = e at *
  have second : e.resolveField 0 0 "y" = .ok (some stored) := Exec.ok_of_toOption second
  have failed := right e 0 8 (before 4) 0 .get none ⟨"app.T", "y", .int⟩ 0 stored 0 reachable second
    rfl (.read rfl) foreign known runs rfl rfl
  have exactly := Machine.guardedStep_foreign (m := Machine.of 0 8) ⟨"app.T", "y", .int⟩ reachable
    (.refl e) (f := before 4) known rfl second (.read rfl) foreign 0
  rcases exactly.fails.1 failed with refused | refused
  · exact absurd (permitted.symm.trans refused) nofun
  · exact not_refusesAccess vacant refused

end LiveUpdate
