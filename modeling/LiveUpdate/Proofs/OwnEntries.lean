import LiveUpdate.Proofs.DispatchEntries
import LiveUpdate.Proofs.ExecutorEntries
import LiveUpdate.Proofs.HostMembers
import LiveUpdate.Proofs.SpecialCalls

/-!
# A type's own method, entered and called

The host's method of a managed type begins with a check that looks up what the live version has
in its place.  The engine looks up the same when it calls the live member itself.  So for a
member that the first version declares with the same kind, both calls do the same, but that the
check takes one unit of fuel more when it calls a method of an executor.
-/

set_option autoImplicit false

namespace LiveUpdate

open Exec

/-- The first version of a type has a method under a key that calls enter through a check. -/
structure ManagedType.Enterable (t : ManagedType) (key : MemberKey) (m : MethodDef) : Prop where
  declared : t.first.unit.method? key = some m
  concrete : m.modifiers.isAbstract = false
  plain : key.isConstructor = false ∧ key.isStaticInit = false
  unmarked : m.modifiers.contains .superDispatcherBit = false

/-- The first version of a type has a method under a key, be it a constructor, behind a check. -/
structure ManagedType.Checked (t : ManagedType) (key : MemberKey) (m : MethodDef) : Prop where
  declared : t.first.unit.method? key = some m
  concrete : m.modifiers.isAbstract = false
  early : key.isStaticInit = false
  unmarked : m.modifiers.contains .superDispatcherBit = false

theorem ManagedType.Enterable.checked {t : ManagedType} {key : MemberKey} {m : MethodDef}
    (enterable : t.Enterable key m) : t.Checked key m :=
  ⟨enterable.declared, enterable.concrete, enterable.plain.2, enterable.unmarked⟩

namespace HostForm

/-- Widening leaves every bit alone that is not about visibility. -/
theorem contains_widen (m : MethodDef) (bit : Modifiers)
    (apart :
      ~~~(Modifiers.publicBit ||| .privateBit ||| .protectedBit).bits &&& bit.bits = bit.bits)
    (apart' : Modifiers.publicBit.bits &&& bit.bits = 0) :
    (widen m).modifiers.contains bit = m.modifiers.contains bit := by
  unfold widen
  split
  · exact Modifiers.contains_withVisibility_everyone _ apart apart'
  · rfl

/-- A private method is not widened. -/
theorem isPrivate_widen {m : MethodDef} (isPrivate : m.modifiers.isPrivate = true) :
    (widen m).modifiers.isPrivate = true := by
  have unwidened : isWidened m = false := by
    have isPrivate : m.modifiers.contains .privateBit = true := isPrivate
    unfold isWidened Modifiers.visibility
    rw [isPrivate]
    cases m.modifiers.contains .publicBit <;> rfl
  unfold widen
  rw [unwidened]
  exact isPrivate

/-- A method with a slot stands in the host class behind the check for it. -/
theorem code_addCheck (id : TypeId) {slots : SlotTable} {m : MethodDef} {slot : Nat}
    (known : slots.slotOf? m.key = some slot) (checked : isChecked m = true) :
    ∃ behind, (addCheck id slots m).code = .entryCheck id (UInt32.ofNat slot) :: behind := by
  unfold addCheck
  rw [known]
  dsimp only
  rw [if_pos checked]
  exact ⟨_, rfl⟩

end HostForm

namespace Engine

variable {e e' : Engine} {t : TypeRef} {c : ClassRef} {key : MemberKey} {v : LiveVersion}

/-- The host class has a method of the first version behind the check for its slot. -/
theorem Hosted.method?_checked (hosted : e.Hosted t c)
    (verified : (e.typeAt t).first.unit.verify = .ok ()) {m : MethodDef}
    (placed : (e.typeAt t).Checked key m) : ∃ b slot behind,
      (e.classAt c).method? key = some b ∧ (e.typeAt t).slots.slotOf? key = some slot ∧
      b.key = key ∧ b.isAbstract = false ∧ b.isStatic = m.modifiers.isStatic ∧
      b.declaring = (e.typeAt t).first.unit.name ∧
      (m.modifiers.isPrivate = true → b.modifiers.isPrivate = true) ∧
      b.code = .entryCheck (e.typeAt t).id (UInt32.ofNat slot) :: behind := by
  obtain ⟨names, above, m', own, modifiers, code, grown, bound⟩ :=
    hosted.method?_placed verified placed.declared
  let u := (e.typeAt t).first.unit.withGuards (e.optionsOf t) names
  have keyed : m'.key = key := by simpa using List.find?_some own
  have widened : (HostForm.widen m').key = key := by
    unfold HostForm.widen
    split <;> exact keyed
  obtain ⟨slot, known⟩ := Option.isSome_iff_exists.1
    ((HostForm.serves_slots u (e.typeAt t).id above).covered key
      (List.mem_map.2 ⟨m', List.mem_of_find?_eq_some own, keyed⟩) placed.early)
  have checked : HostForm.isChecked (HostForm.widen m') = true := by
    have inUnit := List.mem_of_find?_eq_some placed.declared
    have body : m.code.isEmpty = false := by
      have bodied := (TypeUnit.mem_bodied verified).2 ⟨inUnit, placed.concrete⟩
      simpa using (List.mem_filter.1 bodied).2
    have guarded : m'.code.isEmpty = false := by
      obtain ⟨instr, rest, starts⟩ := List.exists_cons_of_ne_nil (l := m.code) (by simpa using body)
      rw [code, starts, relocate_eq, List.nil_append, List.isEmpty_map, List.flatMap_cons]
      unfold withGuard
      split <;> rfl
    have marks := (HostForm.contains_widen m' .superDispatcherBit rfl rfl).trans
      (modifiers ▸ placed.unmarked)
    have init : (HostForm.widen m').isStaticInit = false := by
      have early := placed.early
      rw [← widened] at early
      exact early
    have kept : (HostForm.widen m').code = m'.code := by
      unfold HostForm.widen
      split <;> rfl
    unfold HostForm.isChecked
    rw [init, marks, kept, guarded]
    rfl
  rw [← widened] at known
  obtain ⟨behind, begins⟩ := HostForm.code_addCheck (e.typeAt t).id known checked
  rw [widened] at known
  have kept (bit : Modifiers)
      (apart :
        ~~~(Modifiers.publicBit ||| .privateBit ||| .protectedBit).bits &&& bit.bits = bit.bits)
      (apart' : Modifiers.publicBit.bits &&& bit.bits = 0) :
      (HostForm.place u (e.typeAt t).id above m').modifiers.contains bit =
        m.modifiers.contains bit := by
    rw [HostForm.modifiers_place, HostForm.contains_widen m' bit apart apart', modifiers]
  refine ⟨_, slot, behind, bound, SlotTable.slotOf?_of_prefix grown known, ?_, ?_, ?_, rfl, ?_,
    begins⟩
  · exact (HostForm.key_place ..).trans keyed
  · exact (kept .abstractBit rfl rfl).trans placed.concrete
  · exact kept .staticBit rfl rfl
  · intro isPrivate
    have same := HostForm.isPrivate_widen (m := m') (modifiers ▸ isPrivate)
    rw [← HostForm.modifiers_place u (e.typeAt t).id above m'] at same
    exact same

/-- The table of a recorded version in force answers for a member what stands at its slot. -/
theorem Recorded.entry_eq (recorded : e.Recorded t v) (balanced : (e.typeAt t).Balanced)
    (live : (e.typeAt t).live = v) {slot : Nat}
    (known : (e.typeAt t).slots.slotOf? key = some slot) : ∃ s ∈ (e.typeAt t).slots.slots,
      s.key = key ∧ v.dispatch.lookup key = v.dispatch.entry? slot ∧
      v.dispatch.entry? slot = some (DispatchTable.entryFor (e.typeAt t).name v.shape
        (ShapeDiff.cumulative (e.typeAt t).first.shape v.shape)
        (v.artifacts.map fun a => e.classAt a.executor) s) := by
  have covered := balanced.covered
  rw [live] at covered
  have built : v.dispatch.entries.map Prod.fst <+: (e.typeAt t).slots.slots.map Slot.key :=
    covered ▸ List.prefix_refl _
  have lookup := DispatchTable.lookup_eq_entry? built key
  rw [known] at lookup
  obtain ⟨lt, named, -⟩ := List.findIdx?_eq_some_iff_getElem.1 known
  have there : (e.typeAt t).slots.slots[slot]? = some (e.typeAt t).slots.slots[slot] :=
    List.getElem?_eq_getElem lt
  refine ⟨_, List.getElem_mem lt, of_decide_eq_true named, lookup, ?_⟩
  unfold DispatchTable.entry?
  rw [recorded.dispatch_eq covered, DispatchTable.getElem?_build there]
  rfl

/-- An abstract member of a recorded version in force is abstract in its table. -/
theorem Recorded.lookup_abstract (recorded : e.Recorded t v) (balanced : (e.typeAt t).Balanced)
    (live : (e.typeAt t).live = v) {m : MethodShape} (declares : v.shape.method? key = some m)
    (abstract_ : m.isAbstract = true) (early : m.isStaticInit = false) :
    v.dispatch.lookup key = some .abstract := by
  obtain ⟨slots, grown, covers, -⟩ := recorded.dispatch
  have keyed : m.key = key := by simpa using List.find?_some declares
  obtain ⟨slot, known⟩ := Option.isSome_iff_exists.1
    (covers m (List.mem_of_find?_eq_some declares) early)
  have known := SlotTable.slotOf?_of_prefix grown known
  rw [keyed] at known
  obtain ⟨s, -, named, lookup, entry⟩ := recorded.entry_eq balanced live known
  rw [lookup, entry]
  unfold DispatchTable.entryFor
  rw [named, declares]
  dsimp only
  rw [abstract_]
  rfl

/-- For a concrete member that the first version declares, a recorded version in force has in its
table the host's body or the method of its executor. -/
theorem Recorded.entry_cases (recorded : e.Recorded t v) (balanced : (e.typeAt t).Balanced)
    (live : (e.typeAt t).live = v) {m : MethodShape} (declares : v.shape.method? key = some m)
    (concrete : m.isAbstract = false)
    (first : key ∈ (e.typeAt t).first.unit.methods.map MethodDef.key) {slot : Nat}
    (known : (e.typeAt t).slots.slotOf? key = some slot) :
    v.dispatch.lookup key = v.dispatch.entry? slot ∧
      (v.dispatch.entry? slot = some .host ∨ ∃ a target, v.artifacts = some a ∧
        (e.classAt a.executor).method? (executorKey (e.typeAt t).name m) = some target ∧
        v.dispatch.entry? slot = some (.executor target)) := by
  obtain ⟨s, mem, named, lookup, entry⟩ := recorded.entry_eq balanced live known
  refine ⟨lookup, ?_⟩
  -- the slot is that of a member that the first version declares
  have origin : s.origin = .declared := (balanced.serves.origin s mem).2 (named.symm ▸ first)
  unfold DispatchTable.entryFor at entry
  rw [named, declares] at entry
  dsimp only at entry
  rw [concrete, origin] at entry
  simp only [Bool.false_eq_true, if_false, decide_true, Bool.true_and, if_true] at entry
  split at entry
  · exact .inl entry
  · split at entry
    next target found =>
      obtain ⟨executor, generated, found⟩ := Option.bind_eq_some_iff.1 found
      obtain ⟨a, artifacts, rfl⟩ := Option.map_eq_some_iff.1 generated
      exact .inr ⟨a, target, artifacts, found, entry⟩
    · exact .inl entry

/-- The method of an executor takes the arguments that the key names under which it stands there. -/
theorem Recorded.argCount_executorKey (recorded : e.Recorded t v) {a : Artifacts}
    (generated : v.artifacts = some a) {m : MethodShape} {target : Method}
    (found : (e.classAt a.executor).method? (executorKey (e.typeAt t).name m) = some target) :
    target.argCount = (executorKey (e.typeAt t).name m).sig.arity := by
  obtain ⟨w, -, -, -, -, sources⟩ := recorded.sources generated
  obtain ⟨source, -, last, native, names, number, -, -, rfl⟩ := sources _ _ found
  have key : executorKey (e.typeAt t).name (.ofDef source) = executorKey (e.typeAt t).name m := by
    simpa using List.find?_some last
  have static : (Modifiers.publicBit ||| .staticBit ||| .syntheticBit).isStatic = true := by decide
  rw [← key]
  show _ + (if (Modifiers.publicBit ||| .staticBit ||| .syntheticBit).isStatic then 0 else 1) = _
  rw [static]
  rfl

/-- The method of an executor that stands for a member takes the arguments that the member
does. -/
theorem Recorded.argCount_executor (recorded : e.Recorded t v) {a : Artifacts}
    (generated : v.artifacts = some a) {m : MethodShape}
    (constructs : m.isConstructor = true → m.isStatic = false)
    (early : m.isStaticInit = false) {target : Method}
    (found : (e.classAt a.executor).method? (executorKey (e.typeAt t).name m) = some target) :
    target.argCount = m.sig.arity + if m.isStatic then 0 else 1 := by
  rw [recorded.argCount_executorKey generated found]
  unfold executorKey
  cases constructor : m.isConstructor with
  | true =>
    rw [constructs constructor]
    rfl
  | false =>
    rw [early]
    cases m.isStatic <;> rfl

end Engine

namespace Machine

variable {e e' : Engine} {t : TypeRef} {c : ClassRef} {key : MemberKey}

/-- The call of the live member runs the host's own method if the table has that. -/
theorem callLive_host {m : Machine} {b : Method} (native : (e.typeAt t).native = some c)
    (entry : (e.typeAt t).live.dispatch.lookup key = some .host)
    (own : (e.classAt c).method? key = some b) (args : List Value) :
    m.callLive t key args e = m.call c b args e := by
  unfold callLive
  rw [bind_apply, ask_apply]
  dsimp only
  rw [native, entry]
  dsimp only
  rw [bind_apply, ask_apply]
  dsimp only
  rw [own]

/-- The call of the live member fails if it is abstract in the table. -/
theorem callLive_abstract {m : Machine} (native : (e.typeAt t).native = some c)
    (entry : (e.typeAt t).live.dispatch.lookup key = some .abstract) (args : List Value) :
    m.callLive t key args e =
      .error (.error (.abstractMethod s!"{(e.typeAt t).name}.{key.text}")) e := by
  unfold callLive
  rw [bind_apply, ask_apply]
  dsimp only
  rw [native, entry]
  rfl

/-- The call of the live member runs the method of the executor if the table has that. -/
theorem callLive_executor {m : Machine} {a : Artifacts} {target : Method} {shape : MethodShape}
    (native : (e.typeAt t).native = some c)
    (entry : (e.typeAt t).live.dispatch.lookup key = some (.executor target))
    (generated : (e.typeAt t).live.artifacts = some a)
    (declares : (e.typeAt t).live.shape.method? key = some shape) (args : List Value) :
    m.callLive t key args e = ((if shape.isStatic then m.ensureInitialized c else pure ()) >>=
      fun _ => m.call a.executor target args) e := by
  have executor : (e.typeAt t).live.executor? = some a.executor := by
    unfold LiveVersion.executor?
    rw [generated]
    rfl
  unfold callLive
  rw [bind_apply, ask_apply]
  dsimp only
  rw [native, entry]
  dsimp only
  rw [executor]
  dsimp only
  rw [declares, Option.any_some]
  cases shape.isStatic <;> rfl

/-- A body behind a check gives way to the method of the executor that the table has for it. -/
theorem replacement?_executor {m : Machine} {v : LiveVersion} {a : Artifacts} {b target : Method}
    {slot : Nat} {args : List Value}
    (registered : e.typeWithId? m.scope (e.typeAt t).id = some t)
    (published : (e.typeAt t).published = some v) (generated : v.artifacts = some a)
    (entry : v.dispatch.entry? slot = some (.executor target))
    (count : args.length = target.argCount) :
    m.replacement? e (e.typeAt t).id slot b args = some (m.call a.executor target args) := by
  have executor : v.executor? = some a.executor := by
    unfold LiveVersion.executor?
    rw [generated]
    rfl
  unfold replacement?
  rw [registered]
  dsimp only [Option.bind_eq_bind, Option.bind_some]
  rw [published]
  dsimp only [Option.bind_some]
  rw [entry]
  dsimp only [Option.bind_some]
  rw [executor]
  dsimp only
  rw [if_neg (not_not_intro count)]

/-- Where there is room for a call, the call of a body that gives way to a method of an executor
does what a call of that does, once the class of a static method is initialized. -/
theorem call_replaced {s : ScopeRef} {n : Nat} {executor : ClassRef} {b target : Method}
    {id : TypeId} {slot : UInt32} {behind : List Instr} {args : List Value}
    (code : b.code = .entryCheck id slot :: behind) (concrete : b.isAbstract = false)
    (plain : b.key.isStaticInit = false) (count : args.length = b.argCount)
    (replaced : ∀ e', e'.skeleton = e.skeleton →
      (Machine.of s (n + 1)).replacement? e' id slot.toNat b args =
        some ((Machine.of s (n + 1)).call executor target args))
    (room : e.depth < (e.scopeAt s).options.maxCallDepth) :
    (Machine.of s (n + 2)).call c b args e =
      ((if b.isStatic then (Machine.of s (n + 1)).ensureInitialized c else pure ()) >>=
        fun _ => (Machine.of s (n + 1)).call executor target args) e := by
  have deeper (e' : Engine) (same : e'.skeleton = e.skeleton) :
      (Machine.of s (n + 1)).runDeeper (n + 1) (.enter c b args) e' =
        (Machine.of s (n + 1)).call executor target args e' := by
    have room : ¬ (e'.scopeAt s).options.maxCallDepth ≤ e'.depth := by
      rw [Engine.options_of_skeleton_eq same, Engine.depth_of_skeleton_eq same]
      exact Nat.not_le_of_lt room
    rw [runDeeper_checked code count, if_neg room, replaced e' same]
  show (Machine.of s (n + 1)).enter (n + 1) c b args e = _
  rw [enter_eq _ _ concrete count]
  unfold enterBody
  rw [plain]
  cases b.isStatic with
  | false => exact deeper e rfl
  | true =>
    simp only [Bool.not_false, Bool.and_true, if_true]
    rw [bind_apply, bind_apply]
    have kept := keeps_ensureInitialized (keepsSkeleton_of s (n + 1)) c e
    unfold final at kept
    cases run : (Machine.of s (n + 1)).ensureInitialized c e with
    | error stop e' => rfl
    | ok done e' =>
      rw [run] at kept
      exact deeper e' kept

end Machine

namespace Engine

variable {e e' : Engine} {t : TypeRef} {c : ClassRef} {key : MemberKey} {v : LiveVersion}

/-- What a type is registered as, and which version of it is in force, is not changed by running
code. -/
theorem Hosted.unchanged (hosted : e.Hosted t c) (same : e'.skeleton = e.skeleton) :
    (e'.typeAt t).native = some c ∧ (e'.typeAt t).name = (e.typeAt t).name ∧
      (e'.typeAt t).published = (e.typeAt t).published ∧ (e'.typeAt t).live = (e.typeAt t).live ∧
      (e'.typeAt t).id = (e.typeAt t).id ∧
      e'.typeWithId? (e.typeAt t).scope (e.typeAt t).id = some t := by
  have during : e.During e' := ⟨e.depth, same⟩
  have field {α : Type} (get : ManagedType → α) :
      get (e'.typeAt t).skeleton = get (e.typeAt t).skeleton := congrArg get (during.typeAt t)
  exact ⟨(field (·.native)).trans hosted.native, field (·.name), field (·.published),
    during.live t, field (·.id), (during.typeWithId? _ _).trans hosted.registered⟩

/-- The engine's call of an abstract member of the version in force fails. -/
theorem Hosted.callLive_abstract (hosted : e.Hosted t c) (recorded : e.Recorded t v)
    (balanced : (e.typeAt t).Balanced) (live : (e.typeAt t).live = v) {shape : MethodShape}
    (declares : v.shape.method? key = some shape) (abstract_ : shape.isAbstract = true)
    (early : shape.isStaticInit = false) (same : e'.skeleton = e.skeleton) (m : Machine)
    (args : List Value) : m.callLive t key args e' =
      .error (.error (.abstractMethod s!"{(e.typeAt t).name}.{key.text}")) e' := by
  obtain ⟨native, name, -, live', -, -⟩ := hosted.unchanged same
  have entry := recorded.lookup_abstract balanced live declares abstract_ early
  rw [Machine.callLive_abstract native (by rw [live', live, entry]), name]

/-- What a call of the host's own method of a member meets: the version in force has the host's
body for it, or a method of its executor, which the check in front of the body calls instead. -/
structure MeetsOwn (e : Engine) (t : TypeRef) (c : ClassRef) (key : MemberKey) (m : MethodDef)
    (shape : MethodShape) (b : Method) : Prop where
  own : (e.classAt c).method? key = some b
  concrete : b.isAbstract = false
  static : b.isStatic = shape.isStatic
  early : b.key.isStaticInit = false
  declaring : b.declaring = (e.typeAt t).first.unit.name
  isPrivate : m.modifiers.isPrivate = true → b.modifiers.isPrivate = true
  count : b.argCount = shape.sig.arity + if shape.isStatic then 0 else 1
  entry : (e.typeAt t).live.dispatch.lookup key = some .host ∨
    ∃ a target id slot behind, (e.typeAt t).live.artifacts = some a ∧
      (e.typeAt t).live.dispatch.lookup key = some (.executor target) ∧
      (e.classAt a.executor).method? (executorKey (e.typeAt t).name shape) = some target ∧
      target.argCount = b.argCount ∧ b.code = .entryCheck id slot :: behind ∧
      ∀ (n : Nat) (args : List Value) (e' : Engine), e'.skeleton = e.skeleton →
        args.length = b.argCount →
        (Machine.of (e.typeAt t).scope (n + 1)).replacement? e' id slot.toNat b args =
          some ((Machine.of (e.typeAt t).scope (n + 1)).call a.executor target args)

theorem Hosted.meets_own (hosted : e.Hosted t c)
    (verified : (e.typeAt t).first.unit.verify = .ok ()) (recorded : e.Recorded t v)
    (balanced : (e.typeAt t).Balanced) (published : (e.typeAt t).published = some v)
    (few : (e.typeAt t).slots.slots.length ≤ UInt32.size) {m : MethodDef}
    (placed : (e.typeAt t).Checked key m) {shape : MethodShape}
    (declares : v.shape.method? key = some shape) (concrete : shape.isAbstract = false)
    (constructs : shape.isConstructor = true → shape.isStatic = false)
    (static : shape.isStatic = m.modifiers.isStatic) : ∃ b, e.MeetsOwn t c key m shape b := by
  obtain ⟨b, slot, behind, own, known, keyed, bodied, kind, declaring, isPrivate, code⟩ :=
    hosted.method?_checked verified placed
  have live : (e.typeAt t).live = v := ManagedType.live_of_published published
  have shape_key : shape.key = key := by simpa using List.find?_some declares
  have first : key ∈ (e.typeAt t).first.unit.methods.map MethodDef.key :=
    List.mem_map.2 ⟨m, List.mem_of_find?_eq_some placed.declared,
      by simpa using List.find?_some placed.declared⟩
  have sig : b.key.sig = shape.sig := by
    rw [keyed, ← shape_key]
    rfl
  have count : b.argCount = shape.sig.arity + if shape.isStatic then 0 else 1 := by
    unfold Method.argCount
    rw [kind, static, sig]
  obtain ⟨lookup, entry⟩ := recorded.entry_cases balanced live declares concrete first known
  refine ⟨b, own, bodied, kind.trans static.symm, keyed.symm ▸ placed.early, declaring, isPrivate,
    count, ?_⟩
  rw [live]
  rcases entry with host | ⟨a, target, generated, found, executes⟩
  · exact .inl (lookup.trans host)
  · have early : shape.isStaticInit = false := by
      have early := placed.early
      rw [← shape_key] at early
      exact early
    have takes := recorded.argCount_executor generated constructs early found
    have small : (UInt32.ofNat slot).toNat = slot := by
      obtain ⟨lt, -⟩ := List.findIdx?_eq_some_iff_getElem.1 known
      exact UInt32.toNat_ofNat_of_lt' (Nat.lt_of_lt_of_le lt few)
    refine .inr ⟨a, target, _, _, behind, generated, lookup.trans executes, found,
      takes.trans count.symm, code, fun n args e' same fits => ?_⟩
    obtain ⟨-, -, published', -, id, registered⟩ := hosted.unchanged same
    rw [← id] at registered
    have runs := Machine.replacement?_executor
      (m := Machine.of (e.typeAt t).scope (n + 1)) (b := b) registered
      (published'.trans published) generated executes ((fits.trans count).trans takes.symm)
    rw [small, ← id]
    exact runs

/-- A call of the host's own method of a member does what the engine's call of the live member
does, with at most one unit of fuel more, as long as there is room for a call. -/
theorem MeetsOwn.calls {m : MethodDef} {shape : MethodShape} {b : Method}
    (meets : e.MeetsOwn t c key m shape b) (hosted : e.Hosted t c)
    (declares : (e.typeAt t).live.shape.method? key = some shape) :
    ∃ k ≤ 1, ∀ (n : Nat) (args : List Value) (e' : Engine), e'.skeleton = e.skeleton →
      e'.depth < (e'.scopeAt (e.typeAt t).scope).options.maxCallDepth →
      args.length = shape.sig.arity + (if shape.isStatic then 0 else 1) →
      (Machine.of (e.typeAt t).scope (n + 1 + k)).call c b args e' =
        (Machine.of (e.typeAt t).scope (n + 1)).callLive t key args e' := by
  rcases meets.entry with host | ⟨a, target, id, slot, behind, generated, executes, -, -, code,
      replaced⟩
  · refine ⟨0, Nat.zero_le _, fun n args e' same room count => ?_⟩
    obtain ⟨native, -, -, live, -, -⟩ := hosted.unchanged same
    have own : (e'.classAt c).method? key = some b := by
      have methods : (e'.classAt c).skeleton.method? key = (e.classAt c).skeleton.method? key :=
        congrArg (Class.method? · key) (classAt_of_skeleton_eq same c)
      exact methods.trans meets.own
    exact (Machine.callLive_host native (by rw [live, host]) own args).symm
  · refine ⟨1, Nat.le_refl _, fun n args e' same room count => ?_⟩
    obtain ⟨native, -, -, live, -, -⟩ := hosted.unchanged same
    have fits : args.length = b.argCount := count.trans meets.count.symm
    rw [Machine.call_replaced code meets.concrete meets.early fits
        (fun e'' same' => replaced n args e'' (same'.trans same) fits) room,
      Machine.callLive_executor native (by rw [live, executes]) (by rw [live, generated])
        (by rw [live, declares]) args, meets.static]

/-- For a member that the first version has with the same kind, a call of the host's own method
does what the engine's call of the live member does, with at most one unit of fuel more, as long
as there is room for a call. -/
theorem Hosted.calls_own (hosted : e.Hosted t c)
    (verified : (e.typeAt t).first.unit.verify = .ok ()) (recorded : e.Recorded t v)
    (balanced : (e.typeAt t).Balanced) (published : (e.typeAt t).published = some v)
    (few : (e.typeAt t).slots.slots.length ≤ UInt32.size) {m : MethodDef}
    (enterable : (e.typeAt t).Enterable key m) {shape : MethodShape}
    (declares : v.shape.method? key = some shape) (concrete : shape.isAbstract = false)
    (static : shape.isStatic = m.modifiers.isStatic) : ∃ b, (e.classAt c).method? key = some b ∧
      b.isStatic = shape.isStatic ∧ b.declaring = (e.typeAt t).first.unit.name ∧
      (m.modifiers.isPrivate = true → b.modifiers.isPrivate = true) ∧
      ∃ k ≤ 1, ∀ (n : Nat) (args : List Value) (e' : Engine), e'.skeleton = e.skeleton →
        e'.depth < (e'.scopeAt (e.typeAt t).scope).options.maxCallDepth →
        args.length = shape.sig.arity + (if shape.isStatic then 0 else 1) →
        (Machine.of (e.typeAt t).scope (n + 1 + k)).call c b args e' =
          (Machine.of (e.typeAt t).scope (n + 1)).callLive t key args e' := by
  have key_eq : shape.key = key := by simpa using List.find?_some declares
  have plain : shape.isConstructor = false := by
    have plain := enterable.plain.1
    rw [← key_eq] at plain
    exact plain
  obtain ⟨b, meets⟩ := hosted.meets_own verified recorded balanced published few enterable.checked
    declares concrete (fun constructor => absurd constructor (by rw [plain]; exact nofun)) static
  exact ⟨b, meets.own, meets.static, meets.declaring, meets.isPrivate,
    meets.calls hosted (by rw [ManagedType.live_of_published published, declares])⟩

end Engine

end LiveUpdate
