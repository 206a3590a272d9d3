import LiveUpdate.Proofs.Growth
import Mathlib.Data.List.Nodup

/-!
# Slot tables over the life of a type

Slots are only added, and only to members that have none.  So no member ever has two, a
dispatch table that was built over the slots there were once still answers for them, and a
slot has the origin of a declared member exactly when the first unit declares its member.
-/

set_option autoImplicit false

namespace LiveUpdate

namespace SlotTable

variable {t : SlotTable} {key : MemberKey} {origin : SlotOrigin}

/-- A member without a slot is the key of none. -/
theorem slotOf?_eq_none_iff : t.slotOf? key = none ↔ key ∉ t.slots.map Slot.key := by
  unfold slotOf?
  rw [List.findIdx?_eq_none_iff]
  simp

/-- What holds of the table and of a slot that a member without one is given holds of the table
after the member was given a slot. -/
theorem assign_induction {motive : SlotTable → Prop} (old : motive t)
    (new : key ∉ t.slots.map Slot.key → motive ⟨t.slots ++ [⟨key, origin⟩]⟩) :
    motive (t.assign key origin) := by
  unfold assign
  split
  · exact old
  next absent => exact new (slotOf?_eq_none_iff.1 (by simpa using absent))

/-- What every single assignment keeps the assignment of a list of members keeps. -/
theorem assignAll_induction {motive : SlotTable → Prop} {keys : List MemberKey} (start : motive t)
    (step : ∀ t, ∀ key ∈ keys, motive t → motive (t.assign key origin)) :
    motive (t.assignAll keys origin) := by
  induction keys generalizing t with
  | nil => exact start
  | cons key rest ih =>
    exact ih (step t key List.mem_cons_self start)
      fun t' key' mem => step t' key' (List.mem_cons_of_mem _ mem)

/-- No member has two slots. -/
def Distinct (t : SlotTable) : Prop := (t.slots.map Slot.key).Nodup

theorem distinct_empty : Distinct {} := List.nodup_nil

theorem Distinct.assign (distinct : t.Distinct) (key : MemberKey) (origin : SlotOrigin) :
    (t.assign key origin).Distinct := by
  refine assign_induction (motive := Distinct) distinct fun absent => ?_
  unfold Distinct
  rw [List.map_append, List.nodup_append]
  refine ⟨distinct, List.nodup_singleton _, fun a mem b last => ?_⟩
  rcases List.mem_singleton.1 last with rfl
  rintro rfl
  exact absent mem

theorem Distinct.assignAll (distinct : t.Distinct) (keys : List MemberKey) (origin : SlotOrigin) :
    (t.assignAll keys origin).Distinct :=
  assignAll_induction (motive := Distinct) distinct fun _ key _ before => before.assign key origin

/-- The slots are those of a type whose first unit declares these members: every declared member
that calls can enter has a slot, and a slot has the origin of a declared member exactly when
its member is one. -/
structure Serves (t : SlotTable) (declared : List MemberKey) : Prop where
  covered : ∀ key ∈ declared, key.isStaticInit = false → (t.slotOf? key).isSome
  origin : ∀ slot ∈ t.slots, slot.origin = .declared ↔ slot.key ∈ declared

variable {declared : List MemberKey}

/-- Any member but a declared static initializer may be given a slot of another origin. -/
theorem Serves.assign (serves : t.Serves declared)
    (enterable : key ∈ declared → key.isStaticInit = false) (other : origin ≠ .declared) :
    (t.assign key origin).Serves declared := by
  refine assign_induction (motive := (Serves · declared)) serves fun absent => ⟨?_, ?_⟩
  · intro key' mem plain
    obtain ⟨slot, found⟩ := Option.isSome_iff_exists.1 (serves.covered key' mem plain)
    exact Option.isSome_iff_exists.2 ⟨slot, slotOf?_of_prefix (List.prefix_append _ _) found⟩
  · intro slot mem
    rcases List.mem_append.1 mem with old | new
    · exact serves.origin slot old
    · rcases List.mem_singleton.1 new with rfl
      refine iff_of_false other fun isDeclared => ?_
      have found := serves.covered key isDeclared (enterable isDeclared)
      rw [slotOf?_eq_none_iff.2 absent] at found
      cases found

theorem Serves.assignAll (serves : t.Serves declared) {keys : List MemberKey}
    (enterable : ∀ key ∈ keys, key ∈ declared → key.isStaticInit = false)
    (other : origin ≠ .declared) : (t.assignAll keys origin).Serves declared :=
  assignAll_induction (motive := (Serves · declared)) serves fun _ key mem before =>
    before.assign (enterable key mem) other

/-- What holds of all slots and of those that may be added holds of all slots afterwards. -/
theorem forall_assignAll {P : Slot → Prop} {keys : List MemberKey} (old : ∀ slot ∈ t.slots, P slot)
    (new : ∀ key ∈ keys, P ⟨key, origin⟩) : ∀ slot ∈ (t.assignAll keys origin).slots, P slot := by
  refine assignAll_induction (motive := fun t => ∀ slot ∈ t.slots, P slot) old
    fun t key mem before => ?_
  refine assign_induction (motive := fun t => ∀ slot ∈ t.slots, P slot) before fun _ slot mem' => ?_
  rcases List.mem_append.1 mem' with had | added
  · exact before slot had
  · rcases List.mem_singleton.1 added with rfl
    exact new key mem

/-- The slots that a definition begins with. -/
theorem serves_declared (declared : List MemberKey) :
    (assignAll {} (declared.filter fun key => !key.isStaticInit) .declared).Serves declared := by
  refine ⟨fun key mem plain => ?_, fun slot mem => ?_⟩
  · exact slotOf?_assignAll_isSome {} .declared (List.mem_filter.2 ⟨mem, by simp [plain]⟩)
  · have slots : ∀ slot ∈ (assignAll {} (declared.filter fun key => !key.isStaticInit)
        .declared).slots, slot.origin = .declared ∧ slot.key ∈ declared :=
      forall_assignAll (fun slot absent => by cases absent) fun key mem =>
        ⟨rfl, (List.mem_filter.1 mem).1⟩
    exact iff_of_true (slots slot mem).1 (slots slot mem).2

end SlotTable

/-- A dispatch table that was built over the first slots of a table answers for a member what
it has for the slot of the member. -/
theorem DispatchTable.lookup_eq_entry? {d : DispatchTable} {slots : SlotTable}
    (built : d.entries.map Prod.fst <+: slots.slots.map Slot.key) (key : MemberKey) :
    d.lookup key = (slots.slotOf? key).bind d.entry? := by
  obtain ⟨others, keys⟩ := built
  have slot : slots.slotOf? key = ((d.entries.map Prod.fst) ++ others).findIdx? (· = key) := by
    rw [keys, List.findIdx?_map]
    rfl
  have inTable : (d.entries.map Prod.fst).findIdx? (· = key) =
      d.entries.findIdx? fun entry => entry.1 = key := List.findIdx?_map
  rw [slot, List.findIdx?_append, inTable]
  unfold lookup entry?
  cases found : d.entries.findIdx? fun entry => entry.1 = key with
  | none =>
    have missed : d.entries.find? (fun entry => entry.1 = key) = none := by
      rw [List.find?_eq_none]
      exact fun entry mem => by simpa using List.findIdx?_eq_none_iff.1 found entry mem
    rw [missed, Option.none_or]
    cases others.findIdx? (· = key) with
    | none => rfl
    | some i => simp
  | some i =>
    obtain ⟨lt, hit, first⟩ := List.findIdx?_eq_some_iff_getElem.1 found
    have found' : d.entries.find? (fun entry => entry.1 = key) = some d.entries[i] :=
      List.find?_eq_some_iff_getElem.2 ⟨hit, i, lt, rfl, fun j lt => by simpa using first j lt⟩
    rw [found']
    simp [lt]

end LiveUpdate
