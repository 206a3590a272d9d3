import LiveUpdate.Proofs.Evolving
import LiveUpdate.Proofs.Lineage

/-!
# What names mean in one scope

In an engine with one scope no two classes have one name.  So the names of a class and of a field
tell the declaration, and every slot that the names lead to has the type of the declaration.  This
holds of fields as the host links them and, where they are kept in slots, as live versions
declare them.
-/

set_option autoImplicit false

namespace LiveUpdate.Engine

variable {e : Engine} {s : ScopeRef} {c d : ClassRef} {t : TypeRef}

/-- Only a class that is there declares fields. -/
theorem lt_of_mem_fields {f : FieldDef} (mem : f ∈ (e.classAt c).unit.fields) :
    c < e.classes.size :=
  lt_of_classAt (fun cls => f ∈ cls.unit.fields) mem List.not_mem_nil

/-- Only scopes that were opened know managed types. -/
theorem scope_lt_of_typeWithId? {id : TypeId} (known : e.typeWithId? s id = some t) :
    s < e.scopes.size := by
  refine Nat.lt_of_not_le fun beyond => ?_
  have empty : e.scopeAt s = default := getD_of_le _ _ beyond
  unfold Engine.typeWithId? at known
  rw [empty] at known
  cases known

/-- There is one scope at most. -/
theorem scope_eq (one : e.scopes.size ≤ 1) {s' : ScopeRef} (lt : s < e.scopes.size)
    (lt' : s' < e.scopes.size) : s = s' := by
  have first (s : ScopeRef) (lt : s < e.scopes.size) : s = 0 :=
    Nat.lt_one_iff.1 (Nat.lt_of_lt_of_le lt one)
  rw [first s lt, first s' lt']

/-- The field that the host finds in a class is one that the class declares, and its place is
where the host says, if no superclass has the name of the class. -/
theorem Lineage.ownField? (lineage : e.Lineage)
    (apart : ∀ b ∈ (e.classAt d).superclasses, e.nameOf b ≠ e.nameOf d) {name : String}
    {index : Nat} {slot : FieldSlot}
    (found : (e.classAt d).ownField? name = some (index, slot)) :
    ∃ f ∈ (e.classAt d).unit.fields, f.name = name ∧ slot = Class.slotOf (e.nameOf d) f ∧
      (slot.isStatic = true → (e.classAt d).staticFields[index]? = some slot) := by
  unfold Class.ownField? at found
  split at found
  next place =>
    obtain ⟨slot', declared, same⟩ := Option.map_eq_some_iff.1 found
    cases same
    obtain ⟨lt, called, -⟩ := List.findIdx?_eq_some_iff_getElem.1 place
    obtain ⟨-, rfl⟩ := List.getElem?_eq_some_iff.1 declared
    have called : ((e.classAt d).staticFields[index]).name = name := of_decide_eq_true called
    obtain ⟨f, mem, -, same⟩ := lineage.mem_staticFields (List.getElem_mem lt)
    rw [same] at called
    exact ⟨f, mem, called, same, fun _ => List.getElem?_eq_getElem lt⟩
  next =>
    split at found
    · obtain ⟨place, found_at, found⟩ := Option.bind_eq_some_iff.1 found
      obtain ⟨slot', declared, same⟩ := Option.bind_eq_some_iff.1 found
      cases same
      obtain ⟨mem, declaring, called⟩ := Machine.declared_of_fieldSlot? found_at declared
      obtain ⟨d', above, g, g_mem, instance_, rfl⟩ := lineage.mem_instanceFields mem
      obtain rfl : d' = d :=
        (List.mem_cons.1 above).resolve_right fun above => apart d' above declaring
      refine ⟨g, g_mem, called, rfl, fun static => ?_⟩
      cases instance_.symm.trans static
    · cases found

section OneScope

variable (lineage : e.Lineage) (one : e.scopes.size ≤ 1)
include lineage one

/-- All classes are known to the one scope. -/
theorem Lineage.homes (lt : c < e.classes.size) (scope_lt : s < e.scopes.size) : e.Homes s c := by
  obtain ⟨spec, founded⟩ := lineage c lt
  obtain ⟨s', known⟩ := founded.known
  obtain rfl := scope_eq one scope_lt (scope_lt_of_class? known)
  exact ⟨_, known⟩

/-- Classes are told by their names. -/
theorem Lineage.eq_of_nameOf_eq (lt : c < e.classes.size) (lt' : d < e.classes.size)
    (same : e.nameOf c = e.nameOf d) : c = d := by
  obtain ⟨spec, founded⟩ := lineage c lt
  obtain ⟨spec', founded'⟩ := lineage d lt'
  obtain ⟨s, known⟩ := founded.known
  obtain ⟨s', known'⟩ := founded'.known
  obtain rfl := scope_eq one (scope_lt_of_class? known) (scope_lt_of_class? known')
  rw [founded.described.nameOf_eq, founded'.described.nameOf_eq] at same
  rw [same, known'] at known
  exact (Option.some.inj known).symm

/-- The slots under the names of a class and of a field of it have the type of the field. -/
theorem Lineage.slotsHave {f : FieldDef} (mem : f ∈ (e.classAt d).unit.fields) :
    e.SlotsHave (e.nameOf d) f.name f.sig := by
  intro c slot slot_mem declaring named
  obtain ⟨d', -, g, declared, -, rfl⟩ := lineage.mem_instanceFields slot_mem
  obtain rfl : d' = d :=
    lineage.eq_of_nameOf_eq one (lt_of_mem_fields declared) (lt_of_mem_fields mem) declaring
  exact congrArg FieldDef.sig (lineage.field_eq declared mem named)

/-- A live field that is a field of a class is backed by the slots of the class. -/
theorem Lineage.backs {live : LiveField} {f : FieldDef}
    (mem : f ∈ (e.classAt live.cls).unit.fields) (declaring : live.declaring = e.nameOf live.cls)
    (named : live.name = f.name) (sig : live.sig = f.sig) : e.Backs live := by
  refine ⟨fun index slot place declared => ?_, ?_⟩
  · obtain ⟨lt, called, -⟩ := List.findIdx?_eq_some_iff_getElem.1 place
    obtain ⟨-, rfl⟩ := List.getElem?_eq_some_iff.1 declared
    have called : ((e.classAt live.cls).staticFields[index]).name = live.name :=
      of_decide_eq_true called
    obtain ⟨g, g_mem, -, same⟩ := lineage.mem_staticFields (List.getElem_mem lt)
    rw [same] at called ⊢
    rw [lineage.field_eq g_mem mem (called.trans named), sig]
    rfl
  · rw [declaring, named, sig]
    exact lineage.slotsHave one mem

/-- No superclass has the name of the class. -/
theorem Lineage.apart : ∀ b ∈ (e.classAt d).superclasses, e.nameOf b ≠ e.nameOf d := by
  intro b above same
  have before := lineage.superclass_lt b above
  have lt : d < e.classes.size :=
    lt_of_classAt (fun cls => b ∈ cls.superclasses) above List.not_mem_nil
  exact Nat.ne_of_lt before (lineage.eq_of_nameOf_eq one (Nat.lt_trans before lt) lt same)

/-- Fields as the host links them are where the host says. -/
theorem Lineage.holds {name : String} {h : HostField} (found : e.hostField? c name = some h) :
    ∃ f ∈ (e.classAt h.cls).unit.fields, f.name = name ∧
      h.slot = Class.slotOf (e.nameOf h.cls) f ∧ e.Holds h := by
  obtain ⟨d, -, linked⟩ := List.exists_of_findSome?_eq_some found
  clear found
  obtain ⟨⟨index, slot⟩, own, rfl⟩ := Option.map_eq_some_iff.1 linked
  clear linked
  obtain ⟨f, mem, called, rfl, place⟩ := lineage.ownField? (lineage.apart one) own
  exact ⟨f, mem, called, rfl, place, fun _ => lineage.slotsHave one mem⟩

end OneScope

/-- A field that a managed type keeps in a slot is declared by the first version with the same
type. -/
theorem declared_of_native {live : LiveField} {f : FieldDef} (managed : live.managed = some t)
    (placed : live.placement = (e.typeAt t).fieldPlacement f) (kept : live.storedBy? = none) :
    ∃ g, (e.typeAt t).first.shape.field? f.name = some g ∧ g.sig = f.sig := by
  have unstored : live.placement ≠ .store := fun store => by
    unfold LiveField.storedBy? at kept
    rw [if_pos store, managed] at kept
    cases kept
  rw [placed] at unstored
  unfold ManagedType.fieldPlacement placement at unstored
  split at unstored
  next g first =>
    split at unstored
    next same => exact ⟨g, first, same.1⟩
    next => exact absurd rfl unstored
  · exact absurd rfl unstored

/-- A field of a live version that is kept in a slot has the type of a field of its class. -/
theorem backs_of_fieldIn? (reachable : e.Reachable) (one : e.scopes.size ≤ 1) {name : String}
    {live : LiveField} (found : e.fieldIn? s name c = some live) (kept : live.storedBy? = none) :
    e.Backs live := by
  have lineage := reachable.lineage
  have housed := reachable.housed
  unfold fieldIn? at found
  cases own : e.ownLiveField? s name c with
  | none =>
    -- A field of an interface, as the host links it.
    rw [own] at found
    obtain ⟨h, linked, rfl⟩ := Option.map_eq_some_iff.1
      (show e.interfaceField? name c = some live from found)
    obtain ⟨i, -, linked⟩ := List.exists_of_findSome?_eq_some linked
    obtain ⟨f, mem, -, same, -⟩ := lineage.holds one linked
    rw [same]
    exact lineage.backs one mem rfl rfl rfl
  | some live' =>
    rw [own] at found
    cases found
    unfold ownLiveField? at own
    dsimp only at own
    split at own
    next t managed =>
      -- A field of a managed type: it has a slot because the first version declares it alike.
      obtain ⟨f, declared, rfl⟩ := Option.map_eq_some_iff.1 own
      have named := TypeShape.name_of_field? declared
      obtain ⟨id, some_id, known⟩ := Option.bind_eq_some_iff.1 managed
      have lt : c < e.classes.size :=
        lt_of_classAt (fun cls => cls.managed = some id) some_id nofun
      have home := lineage.homes one lt (scope_lt_of_typeWithId? known)
      have hosted := housed.hosted_of_managedOf? home managed
      obtain ⟨g, first, sig⟩ := declared_of_native rfl rfl kept
      have shaped := (reachable.chronicled (housed.types s id t known).1).shaped
      rw [TypeShape.eq_ofUnit shaped] at first
      have mem : g ∈ (e.classAt c).unit.fields := hosted.fields ▸ List.mem_of_find?_eq_some first
      have called : g.name = f.name := TypeShape.name_of_field? first
      exact lineage.backs one mem rfl (named.symm.trans called.symm) sig.symm
    next =>
      obtain ⟨f, declared, rfl⟩ := Option.map_eq_some_iff.1 own
      have named : f.name = name := by simpa using List.find?_some declared
      exact lineage.backs one (List.mem_of_find?_eq_some declared) rfl named.symm rfl

/-- In a reachable engine with one scope names tell what they mean. -/
theorem Reachable.coherent (reachable : e.Reachable) (one : e.scopes.size ≤ 1) : e.Coherent where
  known := reachable.grounded.class_lt
  hosted c name h found := by
    obtain ⟨f, -, -, -, holds⟩ := reachable.lineage.holds one found
    exact holds
  backed s c name live found kept := by
    obtain ⟨d, -, here⟩ := List.exists_of_findSome?_eq_some (fieldIn?_of_resolveField found)
    exact backs_of_fieldIn? reachable one here kept

end LiveUpdate.Engine
