import LiveUpdate.Proofs.HostMembers

/-!
# What virtual calls select and what names mean

For a class and a member the host has two answers.  Virtual calls select the method of the
nearest class, going up, that declares one which may be selected.  A name means the method of
the nearest class that declares one at all.  So both answers are the same exactly when the
nearest method may be selected.
-/

set_option autoImplicit false

namespace LiveUpdate

/-- A search that passes over what does not satisfy a condition finds what the search finds
without the condition, if that satisfies it. -/
theorem findSome?_filter {α β : Type} {f : α → Option β} {q : β → Bool} {places : List α} {b : β}
    (found : places.findSome? (fun a => (f a).filter q) = some b) :
    ∃ nearest, places.findSome? f = some nearest ∧ (q nearest = true → nearest = b) := by
  induction places with
  | nil => cases found
  | cons a rest ih =>
    rw [List.findSome?_cons] at found ⊢
    cases here : f a with
    | none =>
      rw [here] at found
      exact ih found
    | some nearest =>
      refine ⟨nearest, rfl, fun passes => ?_⟩
      rw [here, Option.filter_some, if_pos passes] at found
      exact Option.some.inj found

namespace Engine

variable {e : Engine} {s : ScopeRef} {c : ClassRef} {key : MemberKey}

/-- The nearest method under a key that a class or a superclass of it declares. -/
def nearest? (e : Engine) (c : ClassRef) (key : MemberKey) : Option (ClassRef × Method) :=
  (c :: (e.classAt c).superclasses).findSome? (e.ownHostMethod? key)

/-- The nearest such method that virtual calls may select. -/
def nearestSelectable? (e : Engine) (c : ClassRef) (key : MemberKey) : Option (ClassRef × Method) :=
  (c :: (e.classAt c).superclasses).findSome? fun d =>
    (e.ownHostMethod? key d).filter fun found => found.2.isSelectable

/-- Virtual calls select the nearest method that they may select. -/
theorem Described.get?_vtable (described : e.Described) (c : ClassRef) (key : MemberKey) :
    (e.classAt c).vtable.get? key = (e.nearestSelectable? c key).map Prod.snd := by
  have own (d : ClassRef) : ((e.ownHostMethod? key d).filter fun found => found.2.isSelectable).map
      Prod.snd = ((e.classAt d).method? key).filter Method.isSelectable := by
    unfold ownHostMethod?
    cases (e.classAt d).method? key with
    | none => rfl
    | some m => cases selectable : m.isSelectable <;> simp [Option.filter, selectable]
  unfold nearestSelectable?
  induction c using described.induction with
  | absent c absent =>
    have none_ : e.ownHostMethod? key c = none := by
      unfold ownHostMethod?
      rw [absent]
      rfl
    rw [absent, List.findSome?_cons, none_]
    rfl
  | present c spec here ih =>
    have above : (e.inheritedVtable c).get? key =
        ((e.classAt c).superclasses.findSome? fun d =>
          (e.ownHostMethod? key d).filter fun found => found.2.isSelectable).map Prod.snd := by
      unfold inheritedVtable
      rw [here.parent_eq, here.superclasses_eq]
      cases parent : spec.parent with
      | none => rfl
      | some p => exact ih p (here.parent_lt p parent)
    rw [here.get?_vtable, above, List.findSome?_cons, ← own]
    cases (e.ownHostMethod? key c).filter fun found => found.2.isSelectable <;> rfl

theorem Lineage.get?_vtable (lineage : e.Lineage) (c : ClassRef) (key : MemberKey) :
    (e.classAt c).vtable.get? key = (e.nearestSelectable? c key).map Prod.snd :=
  lineage.described.get?_vtable c key

/-- Where virtual calls select a method, some class declares it, and the nearest declaration is that
one if virtual calls may select it. -/
theorem Lineage.nearest_of_selected (lineage : e.Lineage) {selected : Method}
    (selects : (e.classAt c).vtable.get? key = some selected) :
    ∃ owner ∈ c :: (e.classAt c).superclasses, (e.classAt owner).method? key = some selected ∧
      selected.isSelectable = true ∧ ∃ nearest, e.nearest? c key = some nearest ∧
        (nearest.2.isSelectable = true → nearest = (owner, selected)) := by
  rw [lineage.get?_vtable] at selects
  obtain ⟨⟨owner, m⟩, found, rfl⟩ := Option.map_eq_some_iff.1 selects
  obtain ⟨d, mem, here⟩ := List.exists_of_findSome?_eq_some found
  obtain ⟨own, selectable⟩ := Option.filter_eq_some_iff.1 here
  obtain ⟨m', declared, same⟩ := Option.map_eq_some_iff.1 own
  cases same
  exact ⟨owner, mem, declared, selectable, findSome?_filter found⟩

/-- A name means the nearest method. -/
theorem Housed.hostMethod?_of_nearest (housed : e.Housed) (home : e.Homes s c)
    (plain : key.isConstructor = false) (plain' : key.isStaticInit = false)
    {nearest : ClassRef × Method} (found : e.nearest? c key = some nearest) :
    e.hostMethod? c key = some nearest :=
  housed.hostMethod?_of_superclass home plain plain' found

/-- A class's methods are those of its unit, bound to its name. -/
theorem Described.exists_bound (described : e.Described) {m : Method}
    (declared : (e.classAt c).method? key = some m) : ∃ own ∈ (e.classAt c).unit.methods,
      own.key = key ∧ ∃ access, m = Class.bind (e.nameOf c) access own := by
  have lt : c < e.classes.size :=
    lt_of_classAt (fun cls => cls.method? key = some m) declared nofun
  obtain ⟨spec, here⟩ := described c lt
  unfold Class.method? at declared
  rw [here.methods_eq, Class.get?_methodsOf] at declared
  obtain ⟨own, found, rfl⟩ := Option.map_eq_some_iff.1 declared
  have keyed : own.key = key := by simpa using List.find?_some found
  have mem := List.mem_reverse.1 (List.mem_of_find?_eq_some found)
  refine ⟨own, here.unit_eq ▸ mem, keyed, spec.declaredAccess, ?_⟩
  rw [here.nameOf_eq]

/-- They carry its name and their keys. -/
theorem Described.method_eq (described : e.Described) {m : Method}
    (declared : (e.classAt c).method? key = some m) :
    m.declaring = e.nameOf c ∧ m.key = key := by
  obtain ⟨own, -, keyed, access, rfl⟩ := described.exists_bound declared
  exact ⟨rfl, keyed⟩

theorem Lineage.method_eq (lineage : e.Lineage) {m : Method}
    (declared : (e.classAt c).method? key = some m) :
    m.declaring = e.nameOf c ∧ m.key = key :=
  lineage.described.method_eq declared

/-- A static initializer is never what a virtual call selects. -/
theorem Lineage.isStaticInit_of_selectable (lineage : e.Lineage) {m : Method}
    (declared : (e.classAt c).method? key = some m) (selectable : m.isSelectable = true) :
    key.isStaticInit = false := by
  unfold Method.isSelectable at selectable
  simp only [Bool.and_eq_true, Bool.not_eq_true'] at selectable
  exact (lineage.method_eq declared).2 ▸ selectable.1.2

/-- A superclass is found by its name. -/
theorem Housed.ancestor?_eq (housed : e.Housed) (home : e.Homes s c) {owner : ClassRef}
    (mem : owner ∈ c :: (e.classAt c).superclasses) :
    e.ancestor? c (e.nameOf owner) = some owner := by
  have homes : ∀ d ∈ c :: (e.classAt c).superclasses, e.Homes s d := by
    intro d mem
    rcases List.mem_cons.1 mem with rfl | above
    · exact home
    · exact ((housed.superclasses_descend home).1 d above).2
  unfold ancestor?
  cases search : (c :: (e.classAt c).superclasses).find? fun d =>
      (e.classAt d).name = e.nameOf owner with
  | none =>
    have missed := List.find?_eq_none.1 search owner mem
    exact absurd (decide_eq_true rfl) missed
  | some d =>
    have named : (e.classAt d).name = e.nameOf owner := by simpa using List.find?_some search
    rw [housed.eq_of_nameOf_eq (homes d (List.mem_of_find?_eq_some search)) (homes owner mem) named]

end Engine

namespace Machine

open Exec

variable {m : Machine} {e : Engine}

/-- The call that virtual calls select for a class runs the method that the class has for them. -/
theorem callSelected_apply {p c : ClassRef} {key : MemberKey} {selected : Method}
    (selects : (e.classAt p).vtable.get? key = some selected)
    (concrete : selected.isAbstract = false) (above : e.ancestor? p selected.declaring = some c)
    (args : List Value) : m.callSelected p key args e = m.call c selected args e := by
  unfold callSelected
  rw [bind_apply, ask_apply]
  dsimp only
  rw [selects]
  dsimp only
  rw [concrete]
  simp only [Bool.false_eq_true, if_false]
  rw [bind_apply, check_apply, above]

/-- Where they select nothing, or an abstract method, live versions decide. -/
theorem callSelected_undecided {p : ClassRef} {key : MemberKey}
    (undecided : ∀ selected, (e.classAt p).vtable.get? key = some selected →
      selected.isAbstract = true) (args : List Value) :
    m.callSelected p key args e = m.callVirtual p key args e := by
  unfold callSelected
  rw [bind_apply, ask_apply]
  dsimp only
  cases selects : (e.classAt p).vtable.get? key with
  | none => rfl
  | some selected =>
    dsimp only
    rw [if_pos (undecided selected selects)]

end Machine

end LiveUpdate
