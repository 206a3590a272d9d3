import LiveUpdate.Proofs.Catchers
import LiveUpdate.Proofs.Redirection
import LiveUpdate.Proofs.SameMethods

/-!
# How calls go on

A call that enters a method of a host class meets the check for the slot of the method, and goes
on as the dispatch table in force says.  What that says follows from what the first version and
the version in force declare.  A member that both leave undeclared has a catcher in the host
class, if it has anything there, and the call goes on to what the catcher forwards to.
-/

set_option autoImplicit false

namespace LiveUpdate

open Exec

namespace ManagedType

/-- No other version of a type has the digest of the version that was published last. -/
def DigestsApart (t : ManagedType) : Prop :=
  ∀ v ∈ t.published, ∀ w ∈ t.versions, ¬ TypeUnit.DigestsCollide w.data v.data

/-- The table in force leaves a member to the host class. -/
def LeavesToHost (t : ManagedType) (key : MemberKey) : Prop :=
  t.live.dispatch.lookup key = some .host ∨ t.live.dispatch.lookup key = none

end ManagedType

namespace Method

variable {m : Method}

/-- What is not marked as a catcher forwards to nothing. -/
theorem caughtRef?_eq_none (unmarked : m.modifiers.contains .catcherBit = false) :
    m.caughtRef? = none := by
  unfold caughtRef?
  split
  · split
    · rw [if_neg fun ⟨marked, _⟩ => Bool.false_ne_true (unmarked.symm.trans marked)]
    · rfl
  · rfl

/-- A catcher forwards to the method that its code names. -/
theorem caughtRef?_eq {id : TypeId} {slot : UInt32} {owner : String}
    (code : m.code = .entryCheck id slot :: forwardingCode owner m.key)
    (marked : m.modifiers.contains .catcherBit = true) (small : m.key.sig.arity < 65536) :
    m.caughtRef? = some ⟨owner, m.key.name, m.key.sig⟩ := by
  obtain ⟨-, invokes, -⟩ := Machine.getElem?_forwardingCode owner m.key
  unfold caughtRef?
  rw [code]
  dsimp only
  rw [invokes]
  dsimp only
  rw [if_pos ⟨marked, rfl, small⟩]

end Method

namespace HostForm

/-- No slot of a host form was added by a later version. -/
theorem origin_ne_added (u : TypeUnit) (id : TypeId) (parent : Option Class) :
    ∀ slot ∈ (ofUnit u id parent).slots.slots, slot.origin ≠ .added :=
  SlotTable.forall_assignAll
    (SlotTable.forall_assignAll (fun _ absent => by cases absent)
      fun _ _ => SlotOrigin.noConfusion)
    fun _ _ => SlotOrigin.noConfusion

end HostForm

namespace Engine

variable {e e₀ : Engine} {s : ScopeRef} {t : TypeRef} {native : ClassRef} {key : MemberKey}
  {b : Method} {shape : MethodShape} {v : LiveVersion}

/-! ### What the table in force has for a member -/

/-- What a recorded table in force has for a member it has for a slot of the member. -/
theorem Recorded.slot_of_lookup (recorded : e.Recorded t v) (balanced : (e.typeAt t).Balanced)
    (live : (e.typeAt t).live = v) {entry : DispatchEntry}
    (lookup : v.dispatch.lookup key = some entry) :
    ∃ s ∈ (e.typeAt t).slots.slots, s.key = key ∧
      entry = DispatchTable.entryFor (e.typeAt t).name v.shape
        (ShapeDiff.cumulative (e.typeAt t).first.shape v.shape)
        (v.artifacts.map fun a => e.classAt a.executor) s := by
  have covered := balanced.covered
  rw [live] at covered
  have built : v.dispatch.entries.map Prod.fst <+: (e.typeAt t).slots.slots.map Slot.key :=
    covered ▸ List.prefix_refl _
  have there := DispatchTable.lookup_eq_entry? built key
  rw [lookup] at there
  obtain ⟨slot, known, -⟩ := Option.bind_eq_some_iff.1 there.symm
  obtain ⟨s, mem, named, found, made⟩ := recorded.entry_eq balanced live known
  rw [lookup, made] at found
  exact ⟨s, mem, named, Option.some.inj found⟩

/-- A method of an executor in the table in force is that of a member which the version in force
declares with a body. -/
structure Executes (e : Engine) (t : TypeRef) (key : MemberKey) (a : Artifacts)
    (shape : MethodShape) (target : Method) : Prop where
  published : (e.typeAt t).published = some (e.typeAt t).live
  generated : (e.typeAt t).live.artifacts = some a
  declares : (e.typeAt t).live.shape.method? key = some shape
  static : target.isStatic = true
  concrete : target.isAbstract = false
  count : target.argCount = (executorKey (e.typeAt t).name shape).sig.arity

/-- Only the table of a version that was published does not leave a member to the host class. -/
theorem Chronicled.published_of_lookup (chronicled : e.Chronicled t) {entry : DispatchEntry}
    (lookup : (e.typeAt t).live.dispatch.lookup key = some entry) (other : entry ≠ .host) :
    (e.typeAt t).published = some (e.typeAt t).live := by
  rcases chronicled.live_cases with ⟨-, first⟩ | ⟨published, -⟩
  · rcases chronicled.lookup_first first key with host | none_
    · exact absurd (Option.some.inj (lookup.symm.trans host)) other
    · cases lookup.symm.trans none_
  · exact published

section Tables

variable (chronicled : e.Chronicled t) (balanced : (e.typeAt t).Balanced)
include chronicled balanced

theorem Chronicled.executes {target : Method}
    (lookup : (e.typeAt t).live.dispatch.lookup key = some (.executor target)) :
    ∃ a shape, e.Executes t key a shape target := by
  have published := chronicled.published_of_lookup lookup DispatchEntry.noConfusion
  have recorded := chronicled.recorded published
  obtain ⟨s, -, named, made⟩ := recorded.slot_of_lookup balanced rfl lookup
  obtain ⟨shape, declares, -, found⟩ := DispatchTable.entryFor_eq_executor made.symm
  rw [named] at declares
  obtain ⟨c, some_c, found⟩ := Option.bind_eq_some_iff.1 found
  obtain ⟨a, generated, rfl⟩ := Option.map_eq_some_iff.1 some_c
  obtain ⟨w, -, -, -, -, sources⟩ := recorded.sources generated
  obtain ⟨source, -, -, compiled⟩ := sources _ _ found
  obtain ⟨static, concrete, -⟩ := compiled.static
  exact ⟨a, shape, published, generated, declares, static, concrete,
    recorded.argCount_executorKey generated found⟩

/-- The entry of a member that has a slot is the one that the version in force requires. -/
theorem Chronicled.entry_fits (apart : (e.typeAt t).DigestsApart)
    (published : (e.typeAt t).published = some (e.typeAt t).live) {slot : Nat}
    (known : (e.typeAt t).slots.slotOf? key = some slot) :
    ∃ s ∈ (e.typeAt t).slots.slots, s.key = key ∧
      (s.origin = .declared ↔ ((e.typeAt t).first.unit.method? key).isSome) ∧
      ∃ entry, (e.typeAt t).live.dispatch.lookup key = some entry ∧
        entry.Fits (e.typeAt t).name (e.typeAt t).first.shape (e.typeAt t).live.shape
          ((e.typeAt t).live.artifacts.map fun a => e.classAt a.executor) s := by
  have recorded := chronicled.recorded published
  obtain ⟨s, mem, named, lookup, entry⟩ := recorded.entry_eq balanced rfl known
  have origin := chronicled.origin_iff balanced mem
  rw [named, TypeShape.eq_ofUnit chronicled.shaped, TypeShape.method?_ofUnit, Option.isSome_map]
    at origin
  have fits := (recorded.fits chronicled balanced mem).resolve_left
    fun ⟨w, there, collide⟩ => apart _ published w there collide
  exact ⟨s, mem, named, origin, _, lookup.trans entry, fits⟩

/-- What the table leaves to the host class although the version in force declares it, the first
version declares too. -/
theorem Chronicled.declared_of_leaves (apart : (e.typeAt t).DigestsApart)
    (declares : (e.typeAt t).live.shape.method? key = some shape)
    (early : key.isStaticInit = false) (leaves : (e.typeAt t).LeavesToHost key) :
    ∃ m, (e.typeAt t).first.unit.method? key = some m := by
  rcases chronicled.live_cases with ⟨-, first⟩ | ⟨published, recorded⟩
  · rw [first, TypeShape.eq_ofUnit chronicled.shaped, TypeShape.method?_ofUnit] at declares
    obtain ⟨m, declared, -⟩ := Option.map_eq_some_iff.1 declares
    exact ⟨m, declared⟩
  have keyed : shape.key = key := by simpa using List.find?_some declares
  obtain ⟨slots, grown, covers, -⟩ := recorded.dispatch
  have plain : shape.isStaticInit = false := by
    rw [← keyed] at early
    exact early
  obtain ⟨slot, known⟩ := Option.isSome_iff_exists.1
    (covers shape (List.mem_of_find?_eq_some declares) plain)
  rw [keyed] at known
  obtain ⟨s, -, named, origin, entry, lookup, fits⟩ :=
    chronicled.entry_fits balanced apart published (SlotTable.slotOf?_of_prefix grown known)
  obtain rfl : entry = .host := by
    rcases leaves with host | none_
    · exact Option.some.inj (lookup.symm.trans host)
    · cases lookup.symm.trans none_
  rcases fits.host.1 rfl with ⟨own, -⟩ | ⟨-, undeclared⟩
  · exact Option.isSome_iff_exists.1 (origin.1 own)
  · rw [named, declares] at undeclared
    cases undeclared

/-- What the version in force declares is not deleted. -/
theorem Chronicled.lookup_ne_deleted (apart : (e.typeAt t).DigestsApart)
    (declares : (e.typeAt t).live.shape.method? key = some shape) {slot : Nat}
    (known : (e.typeAt t).slots.slotOf? key = some slot) :
    (e.typeAt t).live.dispatch.lookup key ≠ some .deleted := by
  intro deleted
  have published := chronicled.published_of_lookup deleted DispatchEntry.noConfusion
  obtain ⟨s, -, named, -, entry, lookup, fits⟩ :=
    chronicled.entry_fits balanced apart published known
  obtain rfl : entry = .deleted := Option.some.inj (lookup.symm.trans deleted)
  have undeclared := (fits.deleted.1 rfl).1
  rw [named, declares] at undeclared
  cases undeclared

/-- What the first version declares, and the version in force does not, is deleted. -/
theorem Chronicled.lookup_deleted (apart : (e.typeAt t).DigestsApart)
    (gone : (e.typeAt t).live.shape.method? key = none) {m : MethodDef}
    (declared : (e.typeAt t).first.unit.method? key = some m) (early : key.isStaticInit = false) :
    (e.typeAt t).live.dispatch.lookup key = some .deleted := by
  rcases chronicled.live_cases with ⟨-, first⟩ | ⟨published, recorded⟩
  · rw [first, TypeShape.eq_ofUnit chronicled.shaped, TypeShape.method?_ofUnit, declared] at gone
    cases gone
  have mem : key ∈ (e.typeAt t).first.unit.methods.map MethodDef.key :=
    List.mem_map.2 ⟨m, List.mem_of_find?_eq_some declared, by simpa using List.find?_some declared⟩
  obtain ⟨slot, known⟩ := Option.isSome_iff_exists.1 (balanced.serves.covered key mem early)
  obtain ⟨s, -, named, origin, entry, lookup, fits⟩ :=
    chronicled.entry_fits balanced apart published known
  have own := origin.2 (declared ▸ rfl)
  rw [lookup, fits.deleted.2 ⟨named ▸ gone, by rw [own]; exact SlotOrigin.noConfusion⟩]

/-- What neither of them declares, and a catcher was generated for, is left to the host class. -/
theorem Chronicled.lookup_caught (apart : (e.typeAt t).DigestsApart)
    (gone : (e.typeAt t).live.shape.method? key = none) {slot : Nat}
    (known : (e.typeAt t).slots.slotOf? key = some slot)
    (caught : ∀ s ∈ (e.typeAt t).slots.slots, s.key = key → s.origin = .catcher) :
    (e.typeAt t).LeavesToHost key := by
  rcases chronicled.live_cases with ⟨-, first⟩ | ⟨published, recorded⟩
  · exact chronicled.lookup_first first key
  obtain ⟨s, mem, named, -, entry, lookup, fits⟩ :=
    chronicled.entry_fits balanced apart published known
  rw [fits.host.2 (.inr ⟨caught s mem named, named ▸ gone⟩)] at lookup
  exact .inl lookup

end Tables

/-! ### What the live member runs -/

/-- What the table leaves to the host class runs as the method that stands there. -/
theorem Hosted.liveBody_leaves (hosted : e.Hosted t native)
    (leaves : (e.typeAt t).LeavesToHost key) :
    e.liveBody t key = ((e.classAt native).method? key).map fun m => ⟨native, m⟩ := by
  unfold liveBody
  rw [hosted.native]
  dsimp only
  rcases leaves with host | none_
  · rw [host]
  · rw [none_]

/-- What is a method of the executor runs as that, if it has a receiver. -/
theorem Executes.liveBody_eq {a : Artifacts} {target : Method} (hosted : e.Hosted t native)
    (executes : e.Executes t key a shape target)
    (lookup : (e.typeAt t).live.dispatch.lookup key = some (.executor target)) :
    e.liveBody t key = if shape.isStatic then none else some ⟨a.executor, target⟩ := by
  have executor : (e.typeAt t).live.executor? = some a.executor := by
    unfold LiveVersion.executor?
    rw [executes.generated]
    rfl
  unfold liveBody
  rw [hosted.native]
  dsimp only
  rw [lookup]
  dsimp only
  rw [executes.declares, executor, Option.any_some]
  rfl

theorem Hosted.liveBody_none (hosted : e.Hosted t native)
    (lookup : (e.typeAt t).live.dispatch.lookup key = some .abstract ∨
      (e.typeAt t).live.dispatch.lookup key = some .deleted) : e.liveBody t key = none := by
  unfold liveBody
  rw [hosted.native]
  dsimp only
  rcases lookup with abstract_ | deleted
  · rw [abstract_]
  · rw [deleted]

/-- The method of an executor has one more parameter than a member that has a receiver. -/
theorem Executes.count_eq {a : Artifacts} {target : Method}
    (executes : e.Executes t key a shape target) (plain : key.isConstructor = false)
    (early : key.isStaticInit = true → shape.isStatic = true) :
    target.argCount = key.sig.arity + if shape.isStatic then 0 else 1 := by
  have keyed : shape.key = key := by simpa using List.find?_some executes.declares
  have constructs : shape.isConstructor = false := by
    rw [← keyed] at plain
    exact plain
  have early : shape.isStaticInit = true → shape.isStatic = true := by
    rw [← keyed] at early
    exact early
  rw [executes.count, ← keyed]
  unfold executorKey
  rw [constructs]
  cases init : shape.isStaticInit with
  | true =>
    rw [early init]
    rfl
  | false => cases shape.isStatic <;> rfl

/-- The static methods of versions cannot be called like methods of objects. -/
theorem During.staticsMisfit (during : e₀.During e) (reachable : e₀.Reachable) (s : ScopeRef) :
    e.StaticsMisfit s := by
  intro id t registered key plain target lookup static
  have housed := during.housed reachable.housed reachable.grounded
  have managed := (housed.types s id t registered).1
  obtain ⟨a, shape, executes⟩ := (during.chronicled reachable managed).executes
    (during.balanced reachable managed) lookup
  rw [executes.declares, Option.any_some] at static
  rw [executes.count_eq plain fun _ => static, static]
  exact Nat.ne_of_lt (Nat.lt_succ_self _)

/-! ### The check in front of a host method -/

/-- A host method of a managed type has the check for the slot of its member in front. -/
structure Checks (e : Engine) (t : TypeRef) (key : MemberKey) (b : Method) (slot : Nat) : Prop where
  keyed : b.key = key
  known : (e.typeAt t).slots.slotOf? key = some slot
  code : ∃ behind, b.code = .entryCheck (e.typeAt t).id (UInt32.ofNat slot) :: behind

section Hosts

variable (hosted : e.Hosted t native) (verified : (e.typeAt t).first.unit.verify = .ok ())
include hosted verified

/-- A host method keeps the bits of its declaration that are not about visibility. -/
theorem Hosted.contains_declared {m : MethodDef}
    (declared : (e.typeAt t).first.unit.method? key = some m)
    (found : (e.classAt native).method? key = some b) (bit : Modifiers)
    (apart :
      ~~~(Modifiers.publicBit ||| .privateBit ||| .protectedBit).bits &&& bit.bits = bit.bits)
    (apart' : Modifiers.publicBit.bits &&& bit.bits = 0) :
    b.modifiers.contains bit = m.modifiers.contains bit := by
  obtain ⟨names, above, m', -, modifiers, -, -, bound⟩ := hosted.method?_placed verified declared
  obtain rfl := Option.some.inj (found.symm.trans bound)
  show (HostForm.place _ _ above m').modifiers.contains bit = _
  rw [HostForm.modifiers_place, HostForm.contains_widen m' bit apart apart', modifiers]

theorem Hosted.checks_declared {m : MethodDef}
    (declared : (e.typeAt t).first.unit.method? key = some m)
    (found : (e.classAt native).method? key = some b) (concrete : b.isAbstract = false)
    (unmarked : b.modifiers.contains .superDispatcherBit = false)
    (early : key.isStaticInit = false) : ∃ slot, e.Checks t key b slot := by
  have bodied := (hosted.modifiers_own verified declared found).1
  have marks := hosted.contains_declared verified declared found .superDispatcherBit rfl rfl
  obtain ⟨b', slot, behind, own, known, keyed, -, -, -, -, code⟩ := hosted.method?_checked verified
    ⟨declared, bodied.symm.trans concrete, early, marks.symm.trans unmarked⟩
  obtain rfl : b' = b := Option.some.inj (own.symm.trans found)
  exact ⟨slot, keyed, known, behind, code⟩

/-- Whatever else the host class has and does not dispatch super calls is a catcher, and its slot is
that of one. -/
theorem Hosted.checks_generated (balanced : (e.typeAt t).Balanced)
    (free : (e.typeAt t).first.unit.method? key = none)
    (found : (e.classAt native).method? key = some b)
    (unmarked : b.modifiers.contains .superDispatcherBit = false)
    (early : key.isStaticInit = false) : e.HasCatcher t native key b ∧ ∃ slot,
      e.Checks t key b slot ∧ ∀ s ∈ (e.typeAt t).slots.slots, s.key = key → s.origin = .catcher := by
  obtain ⟨names, parent, -, free', grown, g, mem, keyed, bound⟩ :=
    hosted.exists_generated_placed verified free found
  let u := (e.typeAt t).first.unit.withGuards (e.optionsOf t) names
  let above := parent.map fun p => (e.classAt p).skeleton
  have modifiers : b.modifiers = g.modifiers := by
    rw [bound]
    show (HostForm.place u (e.typeAt t).id above g).modifiers = _
    rw [HostForm.modifiers_place, (HostForm.widen_generated mem).2]
  have b_key : b.key = key := by
    rw [bound]
    exact (HostForm.key_place ..).trans keyed
  have code : b.code = (HostForm.place u (e.typeAt t).id above g).code := congrArg Method.code bound
  obtain ⟨-, name, owner, key', mark, made, marks⟩ := HostForm.mem_generated mem
  have marked : b.modifiers.contains .catcherBit = true := by
    rw [modifiers, made] at unmarked ⊢
    rcases marks with rfl | rfl
    · show (Modifiers.publicBit ||| .syntheticBit ||| .catcherBit).contains _ = true
      decide
    · exact absurd unmarked (show ¬ (Modifiers.publicBit ||| .syntheticBit |||
        .superDispatcherBit).contains .superDispatcherBit = false by decide)
  have forwards : g.code = forwardingCode owner key' := congrArg MethodDef.code made
  have checked : HostForm.isChecked g = true := by
    have plain : g.isStaticInit = false := by
      rw [← keyed] at early
      exact early
    have bodied : (forwardingCode owner key').isEmpty = false := by
      unfold forwardingCode
      simp
    unfold HostForm.isChecked
    rw [plain, ← modifiers, unmarked, forwards, bodied]
    rfl
  obtain ⟨slot, known⟩ :=
    HostForm.slotOf?_of_isChecked (e.typeAt t).id (List.mem_append_right u.methods mem) checked
  have behind := HostForm.code_place_eq (e.typeAt t).id known checked
  rw [forwards, relocate_check_of_unmoved forwardingCode_unmoved] at behind
  rw [keyed] at known
  refine ⟨⟨free, found, marked⟩, slot,
    ⟨b_key, SlotTable.slotOf?_of_prefix grown known, _, code.trans behind⟩, fun s there named => ?_⟩
  -- the slot stands in the form already, because no member has two
  obtain ⟨lt, first, -⟩ := List.findIdx?_eq_some_iff_getElem.1 known
  let s' := (HostForm.ofUnit u (e.typeAt t).id above).slots.slots[slot]
  have mem' : s' ∈ (HostForm.ofUnit u (e.typeAt t).id above).slots.slots := List.getElem_mem lt
  have same : s = s' :=
    List.inj_on_of_nodup_map balanced.distinct there (grown.subset mem')
      (named.trans (of_decide_eq_true first).symm)
  have added := HostForm.origin_ne_added u (e.typeAt t).id above s' mem'
  have own : s'.origin ≠ .declared := by
    intro own
    have listed := (balanced.serves.origin s' (grown.subset mem')).1 own
    rw [← same, named] at listed
    obtain ⟨m, inUnit, named'⟩ := List.mem_map.1 listed
    exact absurd (decide_eq_true named') (List.find?_eq_none.1 free m inUnit)
  rw [same]
  cases origin : s'.origin with
  | declared => exact absurd origin own
  | catcher => rfl
  | added => exact absurd origin added

end Hosts

section Entered

variable {slot : Nat} (checks : e.Checks t key b slot) (hosted : e.Hosted t native)
  (balanced : (e.typeAt t).Balanced) (few : (e.typeAt t).slots.slots.length ≤ UInt32.size)
  (concrete : b.isAbstract = false) (receives : b.isStatic = false)
include checks hosted balanced few concrete receives

/-- A call that enters a host method goes on as the table in force says. -/
theorem Checks.turn_eq : e.turn (e.typeAt t).scope key.sig ⟨native, b⟩ =
    match (e.typeAt t).published with
    | none => e.passedTurn (e.typeAt t).scope ⟨native, b⟩
    | some version =>
      match version.dispatch.lookup key with
      | none | some .host => e.passedTurn (e.typeAt t).scope ⟨native, b⟩
      | some (.executor method) =>
        match version.executor? with
        | none => .fails
        | some executor =>
          if method.argCount = key.sig.arity + 1 then .executes ⟨executor, method⟩ else .fails
      | some .deleted => if b.isConstructor then .fails else .inherits t
      | some .abstract => .fails := by
  have count : b.argCount = key.sig.arity + 1 := by
    unfold Method.argCount
    rw [receives, checks.keyed]
    rfl
  have small : (UInt32.ofNat slot).toNat = slot := by
    obtain ⟨lt, -⟩ := List.findIdx?_eq_some_iff_getElem.1 checks.known
    exact UInt32.toNat_ofNat_of_lt' (Nat.lt_of_lt_of_le lt few)
  obtain ⟨behind, code⟩ := checks.code
  have checked : e.checkedSlot? (e.typeAt t).scope ⟨native, b⟩ = some (t, slot) := by
    unfold checkedSlot?
    dsimp only
    rw [code]
    dsimp only
    rw [hosted.registered]
    dsimp only
    rw [hosted.native, if_pos rfl, small]
  unfold turn enteredTurn
  rw [if_neg (by simp [concrete, count]), checked]
  simp only [receives, Bool.false_eq_true, if_false]
  cases published : (e.typeAt t).published with
  | none => rfl
  | some version =>
    have covered := balanced.covered
    rw [ManagedType.live_of_published published] at covered
    have built : version.dispatch.entries.map Prod.fst <+:
      (e.typeAt t).slots.slots.map Slot.key := covered ▸ List.prefix_refl _
    have lookup := DispatchTable.lookup_eq_entry? built key
    rw [checks.known, Option.bind_some] at lookup
    dsimp only
    generalize version.dispatch.lookup key = answer at lookup ⊢
    subst lookup
    cases version.dispatch.entry? slot with
    | none => rfl
    | some entry => cases entry <;> rfl

/-- Where the table leaves the member to the host class, the check lets the call pass. -/
theorem Checks.turn_leaves (leaves : (e.typeAt t).LeavesToHost key) :
    e.turn (e.typeAt t).scope key.sig ⟨native, b⟩ =
      e.passedTurn (e.typeAt t).scope ⟨native, b⟩ := by
  rw [checks.turn_eq hosted balanced few concrete receives]
  cases published : (e.typeAt t).published with
  | none => rfl
  | some version =>
    unfold ManagedType.LeavesToHost at leaves
    rw [ManagedType.live_of_published published] at leaves
    dsimp only
    rcases leaves with host | none_
    · rw [host]
    · rw [none_]

/-- Where it has another entry, the call goes on as that says. -/
theorem Checks.turn_executor {target : Method} {a : Artifacts}
    (executes : e.Executes t key a shape target)
    (lookup : (e.typeAt t).live.dispatch.lookup key = some (.executor target)) :
    e.turn (e.typeAt t).scope key.sig ⟨native, b⟩ =
      if target.argCount = key.sig.arity + 1 then .executes ⟨a.executor, target⟩ else .fails := by
  have executor : (e.typeAt t).live.executor? = some a.executor := by
    unfold LiveVersion.executor?
    rw [executes.generated]
    rfl
  rw [checks.turn_eq hosted balanced few concrete receives, executes.published]
  dsimp only
  rw [lookup]
  dsimp only
  rw [executor]

theorem Checks.turn_deleted (plain : key.isConstructor = false)
    (published : (e.typeAt t).published = some (e.typeAt t).live)
    (lookup : (e.typeAt t).live.dispatch.lookup key = some .deleted) :
    e.turn (e.typeAt t).scope key.sig ⟨native, b⟩ = .inherits t := by
  have named : b.isConstructor = false := by
    unfold Method.isConstructor
    rw [checks.keyed]
    exact plain
  rw [checks.turn_eq hosted balanced few concrete receives, published]
  dsimp only
  rw [lookup]
  dsimp only
  rw [named]
  rfl

theorem Checks.turn_abstract (published : (e.typeAt t).published = some (e.typeAt t).live)
    (lookup : (e.typeAt t).live.dispatch.lookup key = some .abstract) :
    e.turn (e.typeAt t).scope key.sig ⟨native, b⟩ = .fails := by
  rw [checks.turn_eq hosted balanced few concrete receives, published]
  dsimp only
  rw [lookup]

end Entered

end Engine

end LiveUpdate
