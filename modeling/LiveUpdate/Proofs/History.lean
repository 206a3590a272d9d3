import LiveUpdate.Proofs.Growth

/-!
# The history of a managed type

The versions of a managed type are the first one and, after it, those that were published.
Of every published version it stays known where it came from: the bytes it was read from,
the unit that its classes were generated from, and the slots that its dispatch table was
built over.
-/

set_option autoImplicit false

namespace LiveUpdate

/-- A dispatch table depends on the methods of the executor only. -/
theorem DispatchTable.build_skeleton (typeName : String) (slots : SlotTable) (live : TypeShape)
    (cumulative : Option ShapeDiff) (executor : Option Class) :
    build typeName slots live cumulative (executor.map Class.skeleton) =
      build typeName slots live cumulative executor := by
  cases executor with
  | none => rfl
  | some cls => rfl

namespace Engine

variable {e e' : Engine} {t : TypeRef}

/-- A managed type has its place, and the host has a class for it. -/
def IsManaged (e : Engine) (t : TypeRef) : Prop :=
  t < e.types.size ∧ (e.typeAt t).native.isSome

instance (e : Engine) (t : TypeRef) : Decidable (e.IsManaged t) :=
  inferInstanceAs (Decidable (_ ∧ _))

/-- What stays known of a published version of a managed type. -/
structure Recorded (e : Engine) (t : TypeRef) (v : LiveVersion) : Prop where
  decoded : TypeUnit.decode v.data = .ok v.unit
  verified : v.unit.verify = .ok ()
  shaped : TypeShape.extract v.unit = .ok v.shape
  named : v.unit.name = (e.typeAt t).name
  digest : v.digest = TypeUnit.storedDigest? v.data
  cumulative : v.cumulative =
    let difference := ShapeDiff.between (e.typeAt t).first.shape v.shape
    if difference.isEmpty then none else some difference
  /-- The classes were generated for this version or for another one with its digest. -/
  artifacts : ∀ a, v.artifacts = some a → ∃ w ∈ (e.typeAt t).versions, w.digest = v.digest ∧
    TypeUnit.decode w.data = .ok w.unit ∧ w.unit.verify = .ok () ∧
    TypeShape.extract w.unit = .ok w.shape ∧ w.digest = TypeUnit.storedDigest? w.data ∧
    e.Compiles t w.unit w.shape a
  generated : v.artifacts.isSome = v.cumulative.isSome
  dispatch : ∃ slots : SlotTable, slots.slots <+: (e.typeAt t).slots.slots ∧
    (∀ m ∈ v.shape.methods, m.isStaticInit = false → (slots.slotOf? m.key).isSome) ∧
    v.dispatch = DispatchTable.build (e.typeAt t).name slots v.shape v.cumulative
      (v.artifacts.map fun a => (e.classAt a.executor).skeleton)
  safe : (e.optionsOf t).verifyReloads → ∀ native ∈ (e.typeAt t).native,
    (ShapeDiff.between (e.typeAt t).first.shape v.shape).isSafe (e.inheritedVtable native)

/-- The first version of a managed type is the unit that it was defined with; the versions
after it are on record, and the last of them is in force. -/
structure Chronicled (e : Engine) (t : TypeRef) : Prop where
  decoded : TypeUnit.decode (e.typeAt t).first.data = .ok (e.typeAt t).first.unit
  verified : (e.typeAt t).first.unit.verify = .ok ()
  shaped : TypeShape.extract (e.typeAt t).first.unit = .ok (e.typeAt t).first.shape
  named : (e.typeAt t).first.unit.name = (e.typeAt t).name
  first : ∃ slots : SlotTable, slots.slots <+: (e.typeAt t).slots.slots ∧ (e.typeAt t).first =
    .first (e.typeAt t).first.data (e.typeAt t).first.unit (e.typeAt t).first.shape slots
  later : ∃ later, (e.typeAt t).versions = (e.typeAt t).first :: later ∧
    (e.typeAt t).published = later.getLast? ∧ ∀ v ∈ later, e.Recorded t v

/-- What is on record stays on record. -/
theorem Recorded.of_grows {v : LiveVersion} (recorded : e.Recorded t v) (grows : e.Grows e')
    (grounded : e.Grounded) (type_lt : t < e.types.size) : e'.Recorded t v := by
  have kept := grows.typeAt t type_lt
  refine { recorded with named := ?_, cumulative := ?_, artifacts := ?_, dispatch := ?_, safe := ?_ }
  · rw [kept.name]
    exact recorded.named
  · rw [kept.first]
    exact recorded.cumulative
  · intro a some_a
    obtain ⟨w, mem, same, decoded, verified, shaped, digest, compiles⟩ := recorded.artifacts a some_a
    exact ⟨w, kept.versions.subset mem, same, decoded, verified, shaped, digest,
      compiles.of_grows grows grounded type_lt⟩
  · obtain ⟨slots, grown, covered, dispatch⟩ := recorded.dispatch
    refine ⟨slots, grown.trans kept.slots, covered, ?_⟩
    rw [kept.name, dispatch]
    cases some_a : v.artifacts with
    | none => rfl
    | some a =>
      obtain ⟨w, -, -, -, -, -, -, compiles⟩ := recorded.artifacts a some_a
      obtain ⟨native, names, number, -, -, -, described⟩ := compiles.executor
      simp only [Option.map_some, grows.classAt a.executor described.lt]
  · intro verifies native hosted
    rw [kept.native] at hosted
    have home := grounded.hosted t type_lt native hosted
    rw [grows.optionsOf grounded type_lt hosted] at verifies
    rw [kept.first, grows.inheritedVtable grounded.parent_lt home.1]
    exact recorded.safe verifies native hosted

/-- An edit leaves the versions of a managed type as they are, publishes one, or is the
definition of the type. -/
theorem Edit.versions (edit : e.Edit e') (lt : t < e'.types.size)
    (hosted : (e'.typeAt t).native.isSome) :
    (t < e.types.size ∧ (e'.typeAt t).versions = (e.typeAt t).versions ∧
        (e'.typeAt t).published = (e.typeAt t).published) ∨
      (∃ v, e.Offers t v ∧ e' = e.publish t v) ∨
      (t = e.types.size ∧ ∃ s form parent interfaces,
        e.Manages s (e'.typeAt t) form parent interfaces) := by
  cases edit with
  | run same lawful =>
    have sizes : e'.skeleton.types.size = e.skeleton.types.size := by rw [same]
    have versions : (e'.typeAt t).skeleton.versions = (e.typeAt t).skeleton.versions := by
      rw [typeAt_of_skeleton_eq same]
    have published : (e'.typeAt t).skeleton.published = (e.typeAt t).skeleton.published := by
      rw [typeAt_of_skeleton_eq same]
    simp only [skeleton, Array.size_map] at sizes
    exact .inl ⟨sizes ▸ lt, versions, published⟩
  | setDepth | openScope | addRegistry | number | countClass | addClass | observe | close | trace =>
    exact .inl ⟨lt, rfl, rfl⟩
  | manage s type form parent interfaces cls manages home admits =>
    have at_ : ((e.addType s type).addClass s cls).typeAt t =
        if t = e.types.size then type else e.typeAt t := getD_push _ _ _ _
    by_cases last : t = e.types.size
    · rw [at_, if_pos last]
      exact .inr (.inr ⟨last, s, form, parent, interfaces, manages⟩)
    · rw [at_, if_neg last]
      have lt : t < e.types.size + 1 := by
        simpa [Engine.addClass, Engine.addType, updateScope] using lt
      exact .inl ⟨Nat.lt_of_le_of_ne (Nat.le_of_lt_succ lt) last, rfl, rfl⟩
  | abandon type unhosted unexecuted =>
    rw [typeAt_push] at hosted ⊢
    by_cases last : t = e.types.size
    · rw [if_pos last, unhosted] at hosted
      cases hosted
    · rw [if_neg last]
      have lt : t < e.types.size + 1 := by simpa using lt
      exact .inl ⟨Nat.lt_of_le_of_ne (Nat.le_of_lt_succ lt) last, rfl, rfl⟩
  | countArtifact t' | refuse t' | remember t' | addSlots t' =>
    have lt : t < e.types.size := by simpa [updateType] using lt
    rw [e.typeAt_updateType t' _ lt]
    by_cases here : t' = t
    · rw [if_pos here]
      exact .inl ⟨lt, rfl, rfl⟩
    · rw [if_neg here]
      exact .inl ⟨lt, rfl, rfl⟩
  | publish t' v offers =>
    by_cases here : t' = t
    · subst here
      exact .inr (.inl ⟨v, offers, rfl⟩)
    · have lt : t < e.types.size := by
        simpa [Engine.publish, updateScope, updateType] using lt
      have at_ : (e.publish t' v).typeAt t = e.typeAt t := by
        rw [show (e.publish t' v).typeAt t = _ from e.typeAt_updateType t' _ lt, if_neg here]
      rw [at_]
      exact .inl ⟨lt, rfl, rfl⟩

/-- The version in force is the first one or on record. -/
theorem Chronicled.live_cases (chronicled : e.Chronicled t) :
    ((e.typeAt t).published = none ∧ (e.typeAt t).live = (e.typeAt t).first) ∨
      ((e.typeAt t).published = some (e.typeAt t).live ∧ e.Recorded t (e.typeAt t).live) := by
  obtain ⟨later, -, published, recorded⟩ := chronicled.later
  unfold ManagedType.live
  cases last : later.getLast? with
  | none =>
    rw [published, last]
    exact .inl ⟨rfl, rfl⟩
  | some v =>
    rw [published, last]
    exact .inr ⟨rfl, recorded v (List.mem_of_getLast? last)⟩

/-- The version in force is on record. -/
theorem Chronicled.recorded (chronicled : e.Chronicled t) {v : LiveVersion}
    (published : (e.typeAt t).published = some v) : e.Recorded t v := by
  obtain ⟨later, -, last, recorded⟩ := chronicled.later
  rw [published] at last
  exact recorded v (List.mem_of_getLast? last.symm)

/-- Where the classes of the version in force come from. -/
theorem Chronicled.live_artifacts (chronicled : e.Chronicled t) {a : Artifacts}
    (some_a : (e.typeAt t).live.artifacts = some a) :
    ∃ w ∈ (e.typeAt t).versions, w.digest = (e.typeAt t).live.digest ∧
      TypeUnit.decode w.data = .ok w.unit ∧ w.unit.verify = .ok () ∧
      TypeShape.extract w.unit = .ok w.shape ∧ w.digest = TypeUnit.storedDigest? w.data ∧
      e.Compiles t w.unit w.shape a := by
  rcases chronicled.live_cases with ⟨-, isFirst⟩ | ⟨-, recorded⟩
  · obtain ⟨slots, -, first⟩ := chronicled.first
    have none_ : (e.typeAt t).live.artifacts = none := by
      rw [isFirst, first]
      rfl
    rw [none_] at some_a
    cases some_a
  · exact recorded.artifacts a some_a

/-- A published version is on record. -/
theorem Offers.recorded {v : LiveVersion} (offers : e.Offers t v) (grounded : e.Grounded)
    (chronicled : e.Chronicled t) : (e.publish t v).Recorded t v := by
  have grows : e.Grows (e.publish t v) := (Edit.publish t v offers).grows
  have kept := grows.typeAt t offers.type_lt
  obtain ⟨native, hosted⟩ := Option.isSome_iff_exists.1 offers.hosted
  have home := grounded.hosted t offers.type_lt native hosted
  have at_ := e.typeAt_publish v offers.type_lt
  have present : v ∈ ((e.publish t v).typeAt t).versions := by
    rw [at_]
    exact List.mem_append_right _ (List.mem_singleton_self v)
  refine {
    decoded := offers.decoded, verified := offers.verified, shaped := offers.shaped
    named := offers.named.trans kept.name.symm
    digest := offers.digest
    cumulative := by rw [kept.first]; exact offers.cumulative
    artifacts := ?_, generated := ?_, dispatch := ?_, safe := ?_ }
  · intro a some_a
    rcases offers.artifacts with ⟨-, none_⟩ | ⟨-, a', some_a', source⟩
    · rw [none_] at some_a
      cases some_a
    · rw [some_a'] at some_a
      cases some_a
      rcases source with ⟨-, same, older⟩ | compiles
      · obtain ⟨w, mem, digest, rest⟩ := chronicled.live_artifacts older
        exact ⟨w, kept.versions.subset mem, digest.trans same.symm, rest.1, rest.2.1, rest.2.2.1,
          rest.2.2.2.1, rest.2.2.2.2.of_grows grows grounded offers.type_lt⟩
      · exact ⟨v, present, rfl, offers.decoded, offers.verified, offers.shaped, offers.digest,
          compiles.of_grows grows grounded offers.type_lt⟩
  · rcases offers.artifacts with ⟨none_, none_'⟩ | ⟨some_, a, some_a, -⟩
    · rw [none_, none_']
      rfl
    · rw [some_, some_a]
      rfl
  · refine ⟨(e.typeAt t).slots, ?_, offers.slots, ?_⟩
    · exact kept.slots
    · rw [kept.name, offers.dispatch, ← DispatchTable.build_skeleton, Option.map_map]
      rfl
  · intro verifies native' hosted'
    rw [kept.native] at hosted'
    have home' := grounded.hosted t offers.type_lt native' hosted'
    rw [grows.optionsOf grounded offers.type_lt hosted'] at verifies
    rw [kept.first, grows.inheritedVtable grounded.parent_lt home'.1]
    exact offers.safe verifies native' hosted'

/-- What is chronicled of a type stays so as long as no version is published. -/
theorem Chronicled.of_grows (chronicled : e.Chronicled t) (grows : e.Grows e')
    (grounded : e.Grounded) (type_lt : t < e.types.size)
    (versions : (e'.typeAt t).versions = (e.typeAt t).versions)
    (published : (e'.typeAt t).published = (e.typeAt t).published) : e'.Chronicled t := by
  have kept := grows.typeAt t type_lt
  obtain ⟨slots, grown, first⟩ := chronicled.first
  obtain ⟨later, all, last, recorded⟩ := chronicled.later
  refine ⟨?_, ?_, ?_, ?_, ⟨slots, ?_, ?_⟩, later, ?_, ?_, ?_⟩
  · rw [kept.first]
    exact chronicled.decoded
  · rw [kept.first]
    exact chronicled.verified
  · rw [kept.first]
    exact chronicled.shaped
  · rw [kept.first, kept.name]
    exact chronicled.named
  · exact grown.trans kept.slots
  · rw [kept.first]
    exact first
  · rw [kept.first, versions]
    exact all
  · rw [published]
    exact last
  · exact fun v mem => (recorded v mem).of_grows grows grounded type_lt

/-- A publication adds its version to the chronicle. -/
theorem Offers.chronicled {v : LiveVersion} (offers : e.Offers t v) (grounded : e.Grounded)
    (chronicled : e.Chronicled t) : (e.publish t v).Chronicled t := by
  have grows : e.Grows (e.publish t v) := (Edit.publish t v offers).grows
  have kept := grows.typeAt t offers.type_lt
  have at_ := e.typeAt_publish v offers.type_lt
  obtain ⟨slots, grown, first⟩ := chronicled.first
  obtain ⟨later, all, last, recorded⟩ := chronicled.later
  refine ⟨?_, ?_, ?_, ?_, ⟨slots, grown.trans kept.slots, ?_⟩, later ++ [v], ?_, ?_, ?_⟩
  · rw [kept.first]
    exact chronicled.decoded
  · rw [kept.first]
    exact chronicled.verified
  · rw [kept.first]
    exact chronicled.shaped
  · rw [kept.first, kept.name]
    exact chronicled.named
  · rw [kept.first]
    exact first
  · rw [at_]
    show (e.typeAt t).versions ++ [v] = _
    rw [all]
    rfl
  · rw [at_]
    simp [ManagedType.publish]
  · intro w mem
    rcases List.mem_append.1 mem with older | same
    · exact (recorded w older).of_grows grows grounded offers.type_lt
    · rcases List.mem_singleton.1 same with rfl
      exact offers.recorded grounded chronicled

/-- A unit that becomes a managed type is its first version, and there is no other. -/
theorem Manages.chronicled {s : ScopeRef} {form : HostForm} {parent : Option ClassRef}
    {interfaces : List ClassRef}
    (manages : e.Manages s (e'.typeAt t) form parent interfaces) : e'.Chronicled t := by
  have defines := manages.defines
  refine ⟨manages.decoded, manages.verified, manages.shaped, ?_, ⟨form.slots, ?_, ?_⟩, [], ?_, ?_,
    fun v mem => by cases mem⟩
  · rw [defines]
    rfl
  · rw [defines]
    exact List.prefix_refl _
  · exact congrArg ManagedType.first defines
  · rw [defines]
    rfl
  · rw [defines]
    rfl

/-- A managed type is chronicled from its definition on. -/
theorem Edit.chronicled (edit : e.Edit e') (grounded : e.Grounded)
    (before : ∀ t, e.IsManaged t → e.Chronicled t) :
    ∀ t, e'.IsManaged t → e'.Chronicled t := by
  intro t managed
  obtain ⟨lt, hosted⟩ := managed
  rcases edit.versions lt hosted with ⟨old, versions, published⟩ | ⟨v, offers, rfl⟩ |
      ⟨-, s, form, parent, interfaces, manages⟩
  · have kept := edit.grows.typeAt t old
    rw [kept.native] at hosted
    exact (before t ⟨old, hosted⟩).of_grows edit.grows grounded old versions published
  · exact offers.chronicled grounded (before t ⟨offers.type_lt, offers.hosted⟩)
  · exact manages.chronicled

theorem Edits.chronicled (edits : e.Edits e') (grounded : e.Grounded)
    (before : ∀ t, e.IsManaged t → e.Chronicled t) :
    ∀ t, e'.IsManaged t → e'.Chronicled t := by
  induction edits with
  | refl => exact before
  | tail edits edit ih => exact edit.chronicled (Edits.grounded edits grounded) ih

end Engine

end LiveUpdate
