import LiveUpdate.Proofs.HostMembers
import LiveUpdate.Proofs.Verifying

/-!
# Classes that are built by definitions

A class comes about by a definition below a class that came about in the same way.  So what
virtual calls select in it was declared in one of the units along the way, it may be selected,
and no key has two entries.  The members that a host form generates from such a parent are
told apart by their keys, as long as no ancestor has taken the name of a super-dispatcher for a
method of its own.
-/

set_option autoImplicit false

namespace LiveUpdate

namespace Table

variable {α β : Type} [DecidableEq α]

theorem mem_put {t : Table α β} {key : α} {value : β} {entry : α × β}
    (mem : entry ∈ t.put key value) : entry = (key, value) ∨ entry ∈ t := by
  induction t with
  | nil => exact .inl (List.mem_singleton.1 mem)
  | cons first rest ih =>
    unfold put at mem
    split at mem
    next same =>
      rcases List.mem_cons.1 mem with new | old
      · exact .inl (new.trans (same ▸ rfl))
      · exact .inr (List.mem_cons_of_mem _ old)
    · rcases List.mem_cons.1 mem with same | mem
      · exact .inr (same ▸ List.mem_cons_self)
      · exact (ih mem).imp_right (List.mem_cons_of_mem _)

/-- What is in a table after entries were put in was put in, or was there before. -/
theorem mem_putAll {t : Table α β} {entries : List (α × β)} {entry : α × β}
    (mem : entry ∈ t.putAll entries) : entry ∈ entries ∨ entry ∈ t := by
  induction entries generalizing t with
  | nil => exact .inr mem
  | cons first rest ih =>
    rcases ih mem with new | old
    · exact .inl (List.mem_cons_of_mem _ new)
    · rcases mem_put old with rfl | old
      · exact .inl List.mem_cons_self
      · exact .inr old

end Table

namespace Class

/-- A class that was built by definitions from accepted units, one below the other.  Running
code only gets on with its static fields and its initialization. -/
inductive Built (accepts : TypeUnit → Prop) : Class → Prop
  | define {place : ClassRef} {id : Nat} {spec : ClassSpec} {parent : Option Class}
    {interfaces : List Class} {c : Class} (accepted : accepts spec.unit)
    (above : ∀ p ∈ parent, Built accepts p)
    (defined : Class.define place id spec parent interfaces = .ok c) : Built accepts c
  | run {c : Class} (built : Built accepts c) (statics : List Value) (init : InitState) :
    Built accepts { c with statics, init }

/-- What virtual calls may select under a key: a method that an accepted unit declares under it,
with the modifiers that it has there. -/
structure Selects (accepts : TypeUnit → Prop) (key : MemberKey) (m : Method) : Prop where
  key_eq : m.key = key
  selectable : m.isSelectable = true
  declared : ∃ u, accepts u ∧ ∃ d ∈ u.methods, d.key = key ∧ d.modifiers = m.modifiers

namespace Built

variable {accepts : TypeUnit → Prop} {c : Class}

/-- Every entry comes from the unit of the class or from the parent. -/
theorem selects (built : c.Built accepts) {key : MemberKey} {m : Method}
    (mem : (key, m) ∈ c.vtable) : Selects accepts key m := by
  induction built with
  | run _ _ _ ih => exact ih mem
  | @define place id spec parent interfaces c accepted above defined ih =>
    rw [(define_eq_ok defined).1] at mem
    rcases Table.mem_putAll mem with own | inherited
    · obtain ⟨listed, selectable⟩ := List.mem_filter.1 own
      rcases Table.mem_putAll listed with bound | absent
      · obtain ⟨d, there, entry⟩ := List.mem_map.1 bound
        obtain ⟨rfl, rfl⟩ := Prod.mk.inj entry
        exact ⟨rfl, selectable, spec.unit, accepted, d, there, rfl, rfl⟩
      · cases absent
    · cases parent with
      | none => cases inherited
      | some p => exact ih p rfl inherited

/-- No key has two entries in what virtual calls select. -/
theorem nodup_vtable (built : c.Built accepts) : (c.vtable.map Prod.fst).Nodup := by
  induction built with
  | run _ _ _ ih => exact ih
  | @define place id spec parent interfaces c accepted above defined ih =>
    rw [(define_eq_ok defined).1]
    refine Table.nodup_putAll ?_ _
    cases parent with
    | none => exact List.nodup_nil
    | some p => exact ih p rfl

end Built

/-- No method that virtual calls select has the name of a super-dispatcher without being one. -/
def MarksDispatchers (c : Class) : Prop :=
  ∀ entry ∈ c.vtable, "__super$".toList <+: entry.1.name.toList →
    entry.2.modifiers.contains .superDispatcherBit = true

instance (c : Class) : Decidable c.MarksDispatchers :=
  inferInstanceAs (Decidable (∀ entry ∈ c.vtable, _ → _))

end Class

/-! ### Members generated from a parent -/

theorem superDispatcherName_prefix (typeName method : String) :
    "__super$".toList <+: (superDispatcherName typeName method).toList := by
  unfold superDispatcherName
  simp only [String.toList_append, List.append_assoc, toString]
  exact ⟨_, rfl⟩

/-- A method that a type may call has an entry in what the parent's virtual calls select, and may be
called. -/
theorem of_mem_inheritedMethods {typeName : String} {parent : Class}
    {entry : MemberKey × Method} (mem : entry ∈ inheritedMethods typeName parent) :
    entry ∈ parent.vtable ∧ isReachable typeName entry.1 entry.2 = true :=
  List.mem_filter.1 (List.mem_mergeSort.1 mem)

/-- A method that a type may call of what the parent's virtual calls select has fewer parameters
than a frame has local slots: its own frame holds them, behind its receiver. -/
theorem Class.Built.arity_lt {accepts : TypeUnit → Prop} {p : Class} (built : p.Built accepts)
    (seats : ∀ u, accepts u → u.Seats) {typeName : String} {entry : MemberKey × Method}
    (mem : entry ∈ inheritedMethods typeName p) :
    entry.1.isConstructor = false ∧ entry.1.sig.arity + 1 < UInt16.size := by
  obtain ⟨selected, reachable⟩ := of_mem_inheritedMethods mem
  unfold isReachable at reachable
  simp only [Bool.and_eq_true, Bool.not_eq_true'] at reachable
  obtain ⟨⟨⟨⟨⟨concrete, receives⟩, -⟩, plain⟩, -⟩, -⟩ := reachable
  obtain ⟨-, -, u, accepted, d, declared, key, modifiers⟩ := built.selects selected
  have concrete : d.modifiers.isAbstract = false := modifiers ▸ concrete
  have receives : d.modifiers.isStatic = false := modifiers ▸ receives
  have room := seats u accepted d declared concrete receives
  have sig : d.sig = entry.1.sig := congrArg MemberKey.sig key
  rw [sig] at room
  exact ⟨plain, room⟩

/-- Sorting and leaving out entries does not make a key occur twice. -/
theorem nodup_inheritedMethods (typeName : String) {parent : Class}
    (distinct : (parent.vtable.map Prod.fst).Nodup) :
    ((inheritedMethods typeName parent).map Prod.fst).Nodup := by
  have sorted := List.mergeSort_perm (parent.vtable.filter fun e => isReachable typeName e.1 e.2)
    fun a b => decide (a.1.text ≤ b.1.text)
  exact (sorted.map Prod.fst).nodup_iff.2 (distinct.sublist (List.filter_sublist.map _))

/-- Catchers have the keys of what they catch. -/
theorem keys_catchers (u : TypeUnit) (parent : Class) :
    (catchers u parent).map (fun c => c.method.key) =
      ((inheritedMethods u.name parent).filter fun e =>
        !e.2.modifiers.isFinal && (u.method? e.1).isNone).map Prod.fst := by
  unfold catchers
  rw [List.map_map]
  rfl

theorem nodup_catchers (u : TypeUnit) {parent : Class}
    (distinct : (parent.vtable.map Prod.fst).Nodup) :
    ((catchers u parent).map fun c => c.method.key).Nodup := by
  rw [keys_catchers]
  exact (nodup_inheritedMethods u.name distinct).sublist (List.filter_sublist.map _)

/-- Super-dispatchers have their names from what they dispatch to. -/
theorem keys_superDispatchers (u : TypeUnit) (parent : Class) :
    (superDispatchers u parent).map MethodDef.key =
      (((inheritedMethods u.name parent).filter fun e =>
        (u.method? (dispatcherRef u.name e.1).key).isNone).map Prod.fst).map fun key =>
          (dispatcherRef u.name key).key := by
  unfold superDispatchers
  induction inheritedMethods u.name parent with
  | nil => rfl
  | cons entry rest ih =>
    rw [List.filterMap_cons, List.filter_cons]
    cases free : u.method? (dispatcherRef u.name entry.1).key with
    | some own =>
      have taken : u.method? ⟨superDispatcherName u.name entry.1.name, entry.1.sig⟩ = some own :=
        free
      simpa [taken] using ih
    | none =>
      have open_ : u.method? ⟨superDispatcherName u.name entry.1.name, entry.1.sig⟩ = none := free
      simp only [open_, Option.isSome_none, Bool.false_eq_true, if_false, Option.isNone_none, if_true,
        List.map_cons]
      exact congrArg (List.cons _) ih

theorem nodup_superDispatchers (u : TypeUnit) {parent : Class}
    (distinct : (parent.vtable.map Prod.fst).Nodup) :
    ((superDispatchers u parent).map MethodDef.key).Nodup := by
  rw [keys_superDispatchers]
  refine List.Nodup.map (fun a b same => dispatcherRef_injective same) ?_
  exact (nodup_inheritedMethods u.name distinct).sublist (List.filter_sublist.map _)

namespace HostForm

variable (u : TypeUnit) {parent : Option Class}

/-- A generated member forwards to a method that the type inherits and may call. -/
theorem of_mem_generated {m : MethodDef} (mem : m ∈ generated u parent) :
    ∃ p ∈ parent, ∃ entry ∈ inheritedMethods u.name p,
      m = forwardingMethod entry.1.name p.name entry.1 .catcherBit ∨
        m = forwardingMethod (superDispatcherName u.name entry.1.name) p.name entry.1
          .superDispatcherBit := by
  cases parent with
  | none => cases mem
  | some p =>
    refine ⟨p, rfl, ?_⟩
    rcases List.mem_append.1 mem with caught | dispatches
    · obtain ⟨catcher, listed, rfl⟩ := List.mem_map.1 caught
      obtain ⟨entry, inherited, rfl⟩ := List.mem_map.1 listed
      exact ⟨entry, (List.mem_filter.1 inherited).1, .inl rfl⟩
    · obtain ⟨entry, inherited, made⟩ := List.mem_filterMap.1 dispatches
      dsimp only at made
      split at made
      · cases made
      · cases made
        exact ⟨entry, inherited, .inr rfl⟩

/-- The members that a host form generates are told apart by their keys. -/
theorem nodup_generated (distinct : ∀ p ∈ parent, (p.vtable.map Prod.fst).Nodup)
    (marked : ∀ p ∈ parent, p.MarksDispatchers) :
    ((generated u parent).map MethodDef.key).Nodup := by
  cases parent with
  | none => exact List.nodup_nil
  | some p =>
    show ((((catchers u p).map Catcher.method) ++ superDispatchers u p).map MethodDef.key).Nodup
    rw [List.map_append, List.map_map, List.nodup_append]
    refine ⟨nodup_catchers u (distinct p rfl), nodup_superDispatchers u (distinct p rfl), ?_⟩
    rintro caught mem _ mem' rfl
    -- What is caught is no super-dispatcher, so that it does not have the name of one.
    rw [show (catchers u p).map (MethodDef.key ∘ Catcher.method) = _ from keys_catchers u p] at mem
    rw [keys_superDispatchers] at mem'
    obtain ⟨entry, listed, rfl⟩ := List.mem_map.1 mem
    obtain ⟨key, -, same⟩ := List.mem_map.1 mem'
    obtain ⟨selected, reachable⟩ := of_mem_inheritedMethods (List.mem_filter.1 listed).1
    have named : "__super$".toList <+: entry.1.name.toList := by
      rw [← same]
      exact superDispatcherName_prefix _ _
    have flagged := marked p rfl entry selected named
    simp [isReachable, flagged] at reachable

/-- The members of a host form are told apart by their keys. -/
theorem nodup_keys (id : TypeId) (own : (u.methods.map MethodDef.key).Nodup)
    (distinct : ∀ p ∈ parent, (p.vtable.map Prod.fst).Nodup)
    (marked : ∀ p ∈ parent, p.MarksDispatchers) :
    ((ofUnit u id parent).unit.methods.map MethodDef.key).Nodup := by
  have keys : (ofUnit u id parent).unit.methods.map MethodDef.key =
      u.methods.map MethodDef.key ++ (generated u parent).map MethodDef.key := by
    rw [methods_ofUnit, List.map_map, ← List.map_append]
    exact List.map_congr_left fun m _ => key_place u id parent m
  rw [keys, List.nodup_append]
  refine ⟨own, nodup_generated u distinct marked, ?_⟩
  rintro _ mem _ mem' rfl
  obtain ⟨m, declared, same⟩ := List.mem_map.1 mem
  obtain ⟨g, made, rfl⟩ := List.mem_map.1 mem'
  have free := List.find?_eq_none.1 (mem_generated made).1 m declared
  simp [same] at free

end HostForm

end LiveUpdate
