import LiveUpdate.Proofs.Bookkeeping
import LiveUpdate.Proofs.Differences

/-!
# What the slots of a version run

The dispatch table of a version is built from the slots of its type, from what the version
declares, from its difference from the first version and from its executor.  That these fit
together is known of every version that was published, and so the table has for every slot
the entry that the version requires, and none because a method of the executor was missing.
-/

set_option autoImplicit false

namespace LiveUpdate

open MethodShape

/-- A member is concrete in a later shape, and its code and its kind are those of the first. -/
def TypeShape.KeepsCode (first live : TypeShape) (key : MemberKey) : Prop :=
  ∃ m₀ m, first.method? key = some m₀ ∧ live.method? key = some m ∧ m.isAbstract = false ∧
    m.codeDigest = m₀.codeDigest ∧ m.isStatic = m₀.isStatic

/-- An entry is the one that a slot of a version requires. -/
structure DispatchEntry.Fits (entry : DispatchEntry) (typeName : String) (first live : TypeShape)
    (executor : Option Class) (slot : Slot) : Prop where
  abstract : entry = .abstract ↔ ∃ m, live.method? slot.key = some m ∧ m.isAbstract = true
  host : entry = .host ↔ (slot.origin = .declared ∧ first.KeepsCode live slot.key) ∨
    (slot.origin = .catcher ∧ live.method? slot.key = none)
  deleted : entry = .deleted ↔ live.method? slot.key = none ∧ slot.origin ≠ .catcher
  executor : ∀ target, entry = .executor target → ∃ m, live.method? slot.key = some m ∧
    (executor.bind fun c => c.method? (executorKey typeName m)) = some target

/-- The difference of a version from the first one, as it is kept. -/
def ShapeDiff.cumulative (first live : TypeShape) : Option ShapeDiff :=
  let difference := between first live
  if difference.isEmpty then none else some difference

namespace ShapeDiff

variable {first live : TypeShape} {key : MemberKey} {m m₀ : MethodShape}

theorem cumulative_of_isEmpty (empty : (between first live).isEmpty = true) :
    cumulative first live = none :=
  if_pos empty

theorem cumulative_of_not_isEmpty (differ : ¬ (between first live).isEmpty = true) :
    cumulative first live = some (between first live) :=
  if_neg differ

/-- A method of the first version counts as unchanged when its code and its kind are the
same. -/
theorem isUnchanged_cumulative (simple : first.Simple) (simple' : live.Simple)
    (before : first.method? key = some m₀) (declared : live.method? key = some m) :
    DispatchTable.isUnchanged (cumulative first live) key = true ↔
      m.codeDigest = m₀.codeDigest ∧ m.isStatic = m₀.isStatic := by
  have key_eq : m.key = key := by simpa using List.find?_some declared
  have before : first.method? m.key = some m₀ := key_eq.symm ▸ before
  unfold DispatchTable.isUnchanged
  by_cases empty : (between first live).isEmpty = true
  · rw [cumulative_of_isEmpty empty]
    have unlisted := methodChangeOf?_eq_none_of_isEmpty empty (List.mem_of_find?_eq_some declared)
    exact iff_of_true rfl (same_of_methodChangeOf?_eq_none simple before unlisted)
  · rw [cumulative_of_not_isEmpty empty, Option.bind_some, methodChange?_between simple' declared]
    cases change : methodChangeOf? first m with
    | none => exact iff_of_true rfl (same_of_methodChangeOf?_eq_none simple before change)
    | some entry =>
      unfold methodChangeOf? at change
      rw [lastMethod?_eq simple, before] at change
      obtain ⟨-, same⟩ := Option.ite_none_right_eq_some.1 change
      cases same
      rw [eq_comm (a := m.codeDigest), eq_comm (a := m.isStatic)]
      simp [MethodChange.between]

/-- A version in which a method is new or changed differs from the first one. -/
theorem cumulative_isSome (simple : first.Simple) (declared : live.method? key = some m)
    (differs : first.method? key = none ∨
      DispatchTable.isUnchanged (cumulative first live) key = false) :
    (cumulative first live).isSome := by
  by_cases empty : (between first live).isEmpty = true
  · rcases differs with new | changed
    · have key_eq : m.key = key := by simpa using List.find?_some declared
      have unlisted := methodChangeOf?_eq_none_of_isEmpty empty (List.mem_of_find?_eq_some declared)
      unfold methodChangeOf? at unlisted
      rw [lastMethod?_eq simple, key_eq, new] at unlisted
      cases unlisted
    · rw [cumulative_of_isEmpty empty] at changed
      cases changed
  · rw [cumulative_of_not_isEmpty empty]
    rfl

end ShapeDiff

namespace DispatchTable

variable {typeName : String} {first live : TypeShape} {executor : Option Class} {slot : Slot}

theorem not_keepsCode_of_undeclared {key : MemberKey} (undeclared : live.method? key = none) :
    ¬ first.KeepsCode live key := by
  rintro ⟨m₀, m, -, found, -⟩
  rw [undeclared] at found
  cases found

theorem not_keepsCode_of_abstract {key : MemberKey} {m : MethodShape}
    (declared : live.method? key = some m) (abstract : m.isAbstract = true) :
    ¬ first.KeepsCode live key := by
  rintro ⟨m₀, m', -, found, concrete, -⟩
  rw [declared] at found
  cases found
  rw [abstract] at concrete
  cases concrete

/-- A concrete member keeps its code when the table counts it as an unchanged member of the
first version. -/
theorem keepsCode_iff (simple : first.Simple) (simple' : live.Simple)
    (origin : slot.origin = .declared ↔ (first.method? slot.key).isSome) {m : MethodShape}
    (declared : live.method? slot.key = some m) (concrete : m.isAbstract = false) :
    first.KeepsCode live slot.key ↔ slot.origin = .declared ∧
      isUnchanged (ShapeDiff.cumulative first live) slot.key = true := by
  rw [origin]
  constructor
  · rintro ⟨m₀, m', before, found, -, same⟩
    exact ⟨before ▸ rfl, (ShapeDiff.isUnchanged_cumulative simple simple' before found).2 same⟩
  · rintro ⟨known, unchanged⟩
    obtain ⟨m₀, before⟩ := Option.isSome_iff_exists.1 known
    exact ⟨m₀, m, before, declared, concrete,
      (ShapeDiff.isUnchanged_cumulative simple simple' before declared).1 unchanged⟩

/-- A version in which a concrete member has other code than in the first differs from it. -/
theorem cumulative_isSome_of_not_keepsCode (simple : first.Simple) (simple' : live.Simple)
    (origin : slot.origin = .declared ↔ (first.method? slot.key).isSome) {m : MethodShape}
    (declared : live.method? slot.key = some m) (concrete : m.isAbstract = false)
    (differs : ¬ first.KeepsCode live slot.key) : (ShapeDiff.cumulative first live).isSome := by
  refine ShapeDiff.cumulative_isSome simple declared ?_
  by_cases own : slot.origin = .declared
  · refine .inr ?_
    cases unchanged : isUnchanged (ShapeDiff.cumulative first live) slot.key with
    | false => rfl
    | true =>
      exact absurd ((keepsCode_iff simple simple' origin declared concrete).2 ⟨own, unchanged⟩)
        differs
  · exact .inl (by simpa using fun known => own (origin.2 known))

/-- The entry of a slot fits when the executor has what is new or changed. -/
theorem fits_entryFor (simple : first.Simple) (simple' : live.Simple)
    (origin : slot.origin = .declared ↔ (first.method? slot.key).isSome)
    (compiled : ∀ m, live.method? slot.key = some m → m.isAbstract = false →
      (ShapeDiff.cumulative first live).isSome →
      (executor.bind fun c => c.method? (executorKey typeName m)).isSome) :
    (entryFor typeName live (ShapeDiff.cumulative first live) executor slot).Fits typeName first
      live executor slot := by
  unfold entryFor
  cases declared : live.method? slot.key with
  | none =>
    have undeclared : ¬ first.KeepsCode live slot.key := not_keepsCode_of_undeclared declared
    by_cases caught : slot.origin = .catcher
    · dsimp only
      rw [if_pos (by simpa using caught)]
      constructor <;> simp [declared, caught]
    · dsimp only
      rw [if_neg (by simpa using caught)]
      constructor <;> simp [declared, caught, undeclared]
  | some m =>
    dsimp only
    by_cases abstract : m.isAbstract = true
    · have bodiless : ¬ first.KeepsCode live slot.key :=
        not_keepsCode_of_abstract declared abstract
      rw [if_pos abstract]
      constructor <;> simp [declared, abstract, bodiless]
    · have concrete : m.isAbstract = false := by simpa using abstract
      have keeps_iff := keepsCode_iff simple simple' origin declared concrete
      rw [if_neg abstract]
      by_cases keeps : first.KeepsCode live slot.key
      · obtain ⟨own, unchanged⟩ := keeps_iff.1 keeps
        rw [if_pos (by simp [own, unchanged])]
        constructor <;> simp [declared, concrete, own, keeps]
      · have differs : ¬ (decide (slot.origin = .declared) &&
            isUnchanged (ShapeDiff.cumulative first live) slot.key) = true := by
          simpa using fun own unchanged => keeps (keeps_iff.2 ⟨own, unchanged⟩)
        have changed := cumulative_isSome_of_not_keepsCode simple simple' origin declared concrete
          keeps
        obtain ⟨target, found⟩ := Option.isSome_iff_exists.1 (compiled m declared concrete changed)
        rw [if_neg differs, found]
        constructor <;> simp [declared, concrete, keeps, found]

/-- A version with the same members as the first runs the host's bodies. -/
theorem entryFor_of_same (origin : slot.origin = .declared ↔ (live.method? slot.key).isSome)
    (early : slot.origin ≠ .added) : entryFor typeName live none executor slot =
      if (live.method? slot.key).any MethodShape.isAbstract then .abstract else .host := by
  unfold entryFor
  cases declared : live.method? slot.key with
  | none =>
    have caught : slot.origin = .catcher := by
      cases from_ : slot.origin with
      | declared =>
        rw [declared] at origin
        cases origin.1 from_
      | catcher => rfl
      | added => exact absurd from_ early
    simp [caught]
  | some m =>
    have own : slot.origin = .declared := origin.2 (declared ▸ rfl)
    simp [own, isUnchanged]

/-- The entry that a built table has for a slot. -/
theorem getElem?_build {slots : SlotTable} {cumulative : Option ShapeDiff} {i : Nat}
    (at_ : slots.slots[i]? = some slot) :
    (build typeName slots live cumulative executor).entries[i]? =
      some (slot.key, entryFor typeName live cumulative executor slot) := by
  unfold build
  rw [List.getElem?_map, at_]
  rfl

end DispatchTable

namespace Engine

variable {e : Engine} {t : TypeRef}

/-- The executor of a unit has a method for every method with a body. -/
theorem Compiles.method?_isSome {w : LiveVersion} {a : Artifacts}
    (shaped : TypeShape.extract w.unit = .ok w.shape) (compiles : e.Compiles t w.unit w.shape a)
    {m : MethodDef} (mem : m ∈ w.unit.bodied) :
    ((e.classAt a.executor).method? (executorKey (e.typeAt t).name (.ofDef m))).isSome := by
  obtain ⟨native, names, number, hosted, had, -, described⟩ := compiles.executor
  let ctx := e.executorContext t native w.shape
  have live : ctx.live = .ofUnit w.unit := TypeShape.eq_ofUnit shaped
  unfold Class.method?
  rw [described.methods_eq, ExecutorContext.methodsOf_spec live, Option.isSome_map]
  unfold TypeUnit.memberSource?
  rw [List.find?_isSome]
  exact ⟨m, List.mem_reverse.2 mem, decide_eq_true rfl⟩

variable {v : LiveVersion}

/-- The executor of a recorded version that differs from the first has a method for every
concrete one of the version, unless its digest is that of another. -/
theorem Recorded.compiled (recorded : e.Recorded t v) {key : MemberKey} {m : MethodShape}
    (declared : v.shape.method? key = some m) (concrete : m.isAbstract = false)
    (differs : (ShapeDiff.cumulative (e.typeAt t).first.shape v.shape).isSome) :
    (∃ w ∈ (e.typeAt t).versions, TypeUnit.DigestsCollide w.data v.data) ∨
      ((v.artifacts.map fun a => e.classAt a.executor).bind fun c =>
        c.method? (executorKey (e.typeAt t).name m)).isSome := by
  have generated : v.artifacts.isSome := by
    rw [recorded.generated, recorded.cumulative]
    exact differs
  obtain ⟨a, artifacts⟩ := Option.isSome_iff_exists.1 generated
  obtain ⟨w, mem, digest, decoded, -, shaped, stored, compiles⟩ := recorded.artifacts a artifacts
  -- The classes may be those of an earlier version whose payload had the same digest.
  have same := TypeUnit.collide_or_methods_eq decoded recorded.decoded
    (by rw [← stored, ← recorded.digest, digest])
  refine same.imp (fun collide => ⟨w, mem, collide⟩) fun methods => ?_
  rw [TypeShape.eq_ofUnit recorded.shaped, TypeShape.method?_ofUnit] at declared
  obtain ⟨own, inUnit, rfl⟩ := Option.map_eq_some_iff.1 declared
  have bodied : own ∈ w.unit.bodied := by
    have own_bodied := (TypeUnit.mem_bodied recorded.verified).2
      ⟨List.mem_of_find?_eq_some inUnit, concrete⟩
    unfold TypeUnit.bodied at own_bodied ⊢
    rwa [methods]
  rw [artifacts]
  exact compiles.method?_isSome shaped bodied

/-- When a version is recorded and its table covers the slots of the type, the table was built
over them. -/
theorem Recorded.dispatch_eq (recorded : e.Recorded t v)
    (covered : v.dispatch.entries.map Prod.fst = (e.typeAt t).slots.slots.map Slot.key) :
    v.dispatch = .build (e.typeAt t).name (e.typeAt t).slots v.shape
      (ShapeDiff.cumulative (e.typeAt t).first.shape v.shape)
      (v.artifacts.map fun a => e.classAt a.executor) := by
  obtain ⟨slots, grown, -, dispatch⟩ := recorded.dispatch
  have executor : v.artifacts.map (fun a => (e.classAt a.executor).skeleton) =
      (v.artifacts.map fun a => e.classAt a.executor).map Class.skeleton := by
    rw [Option.map_map]
    rfl
  rw [executor, DispatchTable.build_skeleton, recorded.cumulative] at dispatch
  -- Slots are only appended, so the slots it was built over are all slots if they are as many.
  have length : slots.slots.length = (e.typeAt t).slots.slots.length := by
    have counted := congrArg List.length covered
    rw [dispatch] at counted
    simpa [DispatchTable.build] using counted
  have all : slots = (e.typeAt t).slots := congrArg SlotTable.mk (grown.eq_of_length length)
  rw [← all]
  exact dispatch

/-- A slot has the origin of a declared member exactly when the first version declares its
member. -/
theorem Chronicled.origin_iff (chronicled : e.Chronicled t) (balanced : (e.typeAt t).Balanced)
    {slot : Slot} (mem : slot ∈ (e.typeAt t).slots.slots) :
    slot.origin = .declared ↔ ((e.typeAt t).first.shape.method? slot.key).isSome := by
  rw [balanced.serves.origin slot mem, TypeShape.eq_ofUnit chronicled.shaped,
    TypeShape.method?_ofUnit, Option.isSome_map]
  unfold TypeUnit.method?
  rw [List.find?_isSome, List.mem_map]
  simp

/-- The entry that is made for a slot of a recorded version is the one that the version requires,
unless its digest is that of another. -/
theorem Recorded.fits (recorded : e.Recorded t v) (chronicled : e.Chronicled t)
    (balanced : (e.typeAt t).Balanced) {slot : Slot} (mem : slot ∈ (e.typeAt t).slots.slots) :
    (∃ w ∈ (e.typeAt t).versions, TypeUnit.DigestsCollide w.data v.data) ∨
      (DispatchTable.entryFor (e.typeAt t).name v.shape
        (ShapeDiff.cumulative (e.typeAt t).first.shape v.shape)
        (v.artifacts.map fun a => e.classAt a.executor) slot).Fits (e.typeAt t).name
          (e.typeAt t).first.shape v.shape (v.artifacts.map fun a => e.classAt a.executor) slot := by
  by_cases collide : ∃ w ∈ (e.typeAt t).versions, TypeUnit.DigestsCollide w.data v.data
  · exact .inl collide
  · have simple : (e.typeAt t).first.shape.Simple :=
      TypeShape.eq_ofUnit chronicled.shaped ▸ TypeShape.simple_ofUnit chronicled.verified
    have simple' : v.shape.Simple :=
      TypeShape.eq_ofUnit recorded.shaped ▸ TypeShape.simple_ofUnit recorded.verified
    refine .inr (DispatchTable.fits_entryFor simple simple' (chronicled.origin_iff balanced mem)
      fun m declared concrete differs => ?_)
    exact (recorded.compiled declared concrete differs).resolve_left collide

end Engine

/-- In a reachable engine the dispatch table of a version that was published last has an entry
for every slot, and the entry is the one that the version requires, unless the digest of the
version is that of another payload.  A version with the shape of the first one has no generated
classes and runs the host's bodies, but for what is abstract in it. -/
theorem dispatch_table_follows_version {e : Engine} {t : TypeRef} {v : LiveVersion}
    (reachable : e.Reachable) (managed : e.IsManaged t)
    (published : (e.typeAt t).published = some v) :
    v.dispatch.entries.map Prod.fst = (e.typeAt t).slots.slots.map Slot.key ∧
    ((∃ w ∈ (e.typeAt t).versions, TypeUnit.DigestsCollide w.data v.data) ∨
      ∀ (i : Nat) (slot : Slot), (e.typeAt t).slots.slots[i]? = some slot →
        ∃ entry, v.dispatch.entries[i]? = some (slot.key, entry) ∧
          entry.Fits (e.typeAt t).name (e.typeAt t).first.shape v.shape
            (v.artifacts.map fun a => e.classAt a.executor) slot) ∧
    (v.shape = (e.typeAt t).first.shape → v.artifacts = none ∧
      ∀ (i : Nat) (slot : Slot), (e.typeAt t).slots.slots[i]? = some slot → slot.origin ≠ .added →
        v.dispatch.entries[i]? = some (slot.key,
          if (v.shape.method? slot.key).any MethodShape.isAbstract then .abstract else .host)) := by
  have chronicled := reachable.chronicled managed
  have recorded := chronicled.recorded published
  have balanced := reachable.balanced t managed.1
  have covered := balanced.covered
  have live : (e.typeAt t).live = v := by
    unfold ManagedType.live
    rw [published]
    rfl
  rw [live] at covered
  have dispatch := recorded.dispatch_eq covered
  refine ⟨covered, ?_, fun same => ?_⟩
  · by_cases collide : ∃ w ∈ (e.typeAt t).versions, TypeUnit.DigestsCollide w.data v.data
    · exact .inl collide
    · refine .inr fun i slot at_ => ⟨_, dispatch ▸ DispatchTable.getElem?_build at_, ?_⟩
      exact (recorded.fits chronicled balanced (List.mem_of_getElem? at_)).resolve_left collide
  · have alike : ShapeDiff.cumulative (e.typeAt t).first.shape v.shape = none := by
      rw [same]
      refine ShapeDiff.cumulative_of_isEmpty (ShapeDiff.isEmpty_between_self ?_)
      exact TypeShape.eq_ofUnit chronicled.shaped ▸ TypeShape.simple_ofUnit chronicled.verified
    have generated : v.artifacts.isSome =
        (ShapeDiff.cumulative (e.typeAt t).first.shape v.shape).isSome := by
      rw [recorded.generated, recorded.cumulative]
      rfl
    rw [alike] at generated
    refine ⟨by simpa using generated, fun i slot at_ early => ?_⟩
    have known := chronicled.origin_iff balanced (List.mem_of_getElem? at_)
    rw [← same] at known
    rw [dispatch, DispatchTable.getElem?_build at_, alike,
      DispatchTable.entryFor_of_same known early]

open Overloaded in
/-- The slots of a reloaded type have the entries that its later version requires. -/
theorem dispatch_table_follows_version_overloaded :
    ∃ v, (engine.typeAt 0).published = some v ∧
      ((∃ w ∈ (engine.typeAt 0).versions, TypeUnit.DigestsCollide w.data v.data) ∨
        ∀ (i : Nat) (slot : Slot), (engine.typeAt 0).slots.slots[i]? = some slot →
          ∃ entry, v.dispatch.entries[i]? = some (slot.key, entry) ∧
            entry.Fits (engine.typeAt 0).name (engine.typeAt 0).first.shape v.shape
              (v.artifacts.map fun a => engine.classAt a.executor) slot) :=
  ⟨_, published, (dispatch_table_follows_version reachable entries.2.1 published).2.1⟩

namespace Bodiless

/-- An abstract type with an abstract method. -/
def bodiless : TypeUnit :=
  ((TypeUnit.named "app.T").withModifiers (.publicBit ||| .abstractBit)).addMethod
    (.make "m" .void (.publicBit ||| .abstractBit) [])

/-- A scope in which the type was defined. -/
def defined : Engine := (Engine.opened { included := ["app.*"] }).defining 4 bodiless

/-- The scope after a reload of the same unit. -/
def engine : Engine := defined.reloading 4 0 "again" bodiless

set_option maxRecDepth 100000 in
theorem entries : 0 < defined.types.size ∧ engine.IsManaged 0 ∧ (engine.typeAt 0).published.isSome ∧
    (engine.typeAt 0).live.shape = (engine.typeAt 0).first.shape ∧
    (engine.typeAt 0).slots.slots = [⟨⟨"m", .void⟩, .declared⟩] ∧
    (engine.typeAt 0).live.dispatch.entries = [(⟨"m", .void⟩, .abstract)] := by
  decide +kernel

end Bodiless

open Bodiless in
/-- A version with the shape of the first one does not run the host's body everywhere. -/
theorem dispatch_table_not_all_host :
    ¬ ∀ (e : Engine) (t : TypeRef) (v : LiveVersion), e.Reachable → e.IsManaged t →
      (e.typeAt t).published = some v → v.shape = (e.typeAt t).first.shape →
      ∀ (i : Nat) (slot : Slot), (e.typeAt t).slots.slots[i]? = some slot → slot.origin ≠ .added →
        v.dispatch.entries[i]? = some (slot.key, .host) := by
  intro all
  obtain ⟨known, managed, reloaded, same, slots, table⟩ := entries
  have reachable : engine.Reachable :=
    ((Engine.reachable_opened _).defining 4 _ (by decide)).reloading 4 0 _ _ known
  have published : (engine.typeAt 0).published = some (engine.typeAt 0).live := by
    obtain ⟨v, some_v⟩ := Option.isSome_iff_exists.1 reloaded
    unfold ManagedType.live
    rw [some_v]
    rfl
  have first_slot : (engine.typeAt 0).slots.slots[0]? = some ⟨⟨"m", .void⟩, .declared⟩ := by
    rw [slots]
    rfl
  have entry := all engine 0 _ reachable managed published same 0 _ first_slot (by decide)
  rw [table] at entry
  cases entry

end LiveUpdate
