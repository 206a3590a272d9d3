import LiveUpdate.Proofs.Assembling
import LiveUpdate.Proofs.Catchers

/-!
# Nearest declarations

For each key the table that virtual calls select from holds the method of the nearest class,
going up, that declares one which has a receiver and is not private, a constructor or a static
initializer.  Where no class of the chain is the host of a managed type, the search that live
versions make ends with the same method.
-/

set_option autoImplicit false

namespace LiveUpdate

/-- What the search of the live versions makes of a method that it finds in a class. -/
def Selection.ofHost (found : ClassRef × Method) : Selection :=
  if found.2.isAbstract then .abstract found.1 else .host found.1 found.2

namespace Engine

open Exec

variable {e : Engine} {s : ScopeRef} {c d : ClassRef} {key : MemberKey}

/-- A class declares a method under a key that it contributes to the tables: one that has a receiver
and is not private, a constructor or a static initializer. -/
structure Contributes (e : Engine) (d : ClassRef) (key : MemberKey) (own : MethodDef) : Prop where
  mem : own ∈ (e.classAt d).unit.methods
  keyed : own.key = key
  received : own.modifiers.isStatic = false
  open_ : own.modifiers.isPrivate = false
  plain : key.isConstructor = false
  plain' : key.isStaticInit = false

/-- The first class, going up from one, that contributes a method under a key. -/
def NearestContributes (e : Engine) (c d : ClassRef) (key : MemberKey) (own : MethodDef) : Prop :=
  ∃ below above, c :: (e.classAt c).superclasses = below ++ d :: above ∧ e.Contributes d key own ∧
    ∀ x ∈ below, ∀ m, ¬ e.Contributes x key m

theorem NearestContributes.mem {own : MethodDef} (nearest : e.NearestContributes c d key own) :
    d ∈ c :: (e.classAt c).superclasses := by
  obtain ⟨below, above, split, -⟩ := nearest
  rw [split]
  exact List.mem_append_right _ List.mem_cons_self

theorem NearestContributes.contributes {own : MethodDef}
    (nearest : e.NearestContributes c d key own) : e.Contributes d key own := by
  obtain ⟨below, above, -, contributes, -⟩ := nearest
  exact contributes

/-- The keys of the methods of a class are different. -/
def DistinctKeys (e : Engine) (d : ClassRef) : Prop :=
  ((e.classAt d).unit.methods.map MethodDef.key).Nodup

section Declarations

variable (described : e.Described)
include described

/-- What a class declares it has, bound to its name. -/
theorem Described.method?_declared {own : MethodDef} (keys : e.DistinctKeys d)
    (mem : own ∈ (e.classAt d).unit.methods) (keyed : own.key = key) :
    ∃ access, (e.classAt d).method? key = some (Class.bind (e.nameOf d) access own) := by
  obtain ⟨spec, here⟩ := described d
    (lt_of_classAt (fun cls => own ∈ cls.unit.methods) mem List.not_mem_nil)
  unfold DistinctKeys at keys
  rw [here.unit_eq] at mem keys
  subst keyed
  have found := find?_label_eq_some keys mem
  refine ⟨spec.declaredAccess, ?_⟩
  rw [here.method?_eq, Class.get?_methodsOf, find?_label_reverse keys, found, here.nameOf_eq]
  rfl

/-- A method of a class that virtual calls may select was declared so. -/
theorem Described.contributes_of_method? {m : Method} (found : (e.classAt d).method? key = some m)
    (selectable : m.isSelectable = true) :
    ∃ own access, e.Contributes d key own ∧ m = Class.bind (e.nameOf d) access own := by
  obtain ⟨own, mem, rfl, access, rfl⟩ := described.exists_bound found
  have conditions : ((own.modifiers.isStatic = false ∧ own.key.isConstructor = false) ∧
      own.key.isStaticInit = false) ∧ own.modifiers.isPrivate = false := by
    simpa [Method.isSelectable, Method.isStatic, Method.isConstructor, Class.bind] using selectable
  obtain ⟨⟨⟨received, plain⟩, plain'⟩, open_⟩ := conditions
  exact ⟨own, access, ⟨mem, rfl, received, open_, plain, plain'⟩, rfl⟩

theorem Contributes.method? {own : MethodDef} (contributes : e.Contributes d key own)
    (keys : e.DistinctKeys d) :
    ∃ m, (e.classAt d).method? key = some m ∧ m.isSelectable = true := by
  obtain ⟨access, found⟩ := described.method?_declared keys contributes.mem contributes.keyed
  refine ⟨_, found, ?_⟩
  obtain ⟨-, rfl, received, open_, plain, plain'⟩ := contributes
  simp [Method.isSelectable, Method.isStatic, Method.isConstructor, Class.bind, received, open_,
    plain, plain']

/-- The nearest method that virtual calls may select is that of the nearest declaration. -/
theorem Described.nearestContributes (keys : ∀ x ∈ c :: (e.classAt c).superclasses, e.DistinctKeys x)
    {m : Method} (nearest : e.nearestSelectable? c key = some (d, m)) :
    ∃ own access, e.NearestContributes c d key own ∧ (e.classAt d).method? key = some m ∧
      m = Class.bind (e.nameOf d) access own := by
  obtain ⟨below, d', above, split, here, silent⟩ := List.findSome?_eq_some_iff.1 nearest
  obtain ⟨found, selectable⟩ := Option.filter_eq_some_iff.1 here
  obtain ⟨m', found, same⟩ := Option.map_eq_some_iff.1 found
  cases same
  obtain ⟨own, access, contributes, bound⟩ := described.contributes_of_method? found selectable
  refine ⟨own, access, ⟨below, above, split, contributes, ?_⟩, found, bound⟩
  -- a class in front of it that contributed a method would have stopped the search
  intro x mem own' contributes'
  have inside : x ∈ c :: (e.classAt c).superclasses := split ▸ List.mem_append_left _ mem
  obtain ⟨m', found', selectable'⟩ := contributes'.method? described (keys x inside)
  have passed := silent x mem
  unfold ownHostMethod? at passed
  rw [found', Option.map_some, Option.filter_some, if_pos selectable'] at passed
  cases passed

/-- Virtual calls select something where a class of the chain contributes a method. -/
theorem Described.isSome_get?_vtable
    (keys : ∀ x ∈ c :: (e.classAt c).superclasses, e.DistinctKeys x) :
    ((e.classAt c).vtable.get? key).isSome ↔
      ∃ d ∈ c :: (e.classAt c).superclasses, ∃ own, e.Contributes d key own := by
  constructor
  · intro some_
    obtain ⟨entry, selects⟩ := Option.isSome_iff_exists.1 some_
    rw [described.get?_vtable] at selects
    obtain ⟨⟨d, m⟩, nearest, -⟩ := Option.map_eq_some_iff.1 selects
    obtain ⟨own, -, contributes, -⟩ := described.nearestContributes keys nearest
    exact ⟨d, contributes.mem, own, contributes.contributes⟩
  · rintro ⟨d, mem, own, contributes⟩
    obtain ⟨m, found, selectable⟩ := contributes.method? described (keys d mem)
    rw [described.get?_vtable, Option.isSome_map]
    refine List.findSome?_isSome_iff.2 ⟨d, mem, ?_⟩
    unfold ownHostMethod?
    rw [found, Option.map_some, Option.filter_some, if_pos selectable]
    rfl

end Declarations

/-- A superclass whose name no other class of the chain has is found by its name. -/
theorem ancestor?_eq_of_nodup (names : ((c :: (e.classAt c).superclasses).map e.nameOf).Nodup)
    (mem : d ∈ c :: (e.classAt c).superclasses) : e.ancestor? c (e.nameOf d) = some d :=
  find?_label_eq_some names mem

/-! ### The search that live versions make -/

/-- No class of the chain is the host of a managed type of a scope. -/
def Unmanaged (e : Engine) (s : ScopeRef) (c : ClassRef) : Prop :=
  ∀ x ∈ c :: (e.classAt c).superclasses, e.managedOf? s x = none

/-- In a class that is not managed live versions select what virtual calls may select. -/
theorem Described.selectIn?_eq (described : e.Described) (unmanaged : e.managedOf? s d = none)
    (plain : key.isConstructor = false) (plain' : key.isStaticInit = false) :
    e.selectIn? s key d = ((e.ownHostMethod? key d).filter fun found =>
      found.2.isSelectable).map Selection.ofHost := by
  unfold selectIn? ownHostMethod?
  dsimp only
  rw [unmanaged]
  cases found : (e.classAt d).method? key with
  | none => rfl
  | some m =>
    have keyed := (described.method_eq found).2
    have same : m.isSelectable = (!m.modifiers.isStatic && !m.modifiers.isPrivate) := by
      simp [Method.isSelectable, Method.isStatic, Method.isConstructor, keyed, plain, plain']
    simp only [Option.map_some, Option.filter_some, same]
    split <;> rfl

/-- A chain without managed types is that of the classes as they were defined. -/
theorem Described.liveChain_of_unmanaged (described : e.Described) (lt : c < e.classes.size)
    (unmanaged : e.Unmanaged s c) :
    e.liveChain s c = ⟨c :: (e.classAt c).superclasses, .top⟩ := by
  refine liveChain_of_superclasses (fun _ => True) (fun d _ => ?_) trivial lt ?_
  · obtain ⟨superclasses, before⟩ := described.superclasses_eq d
    exact ⟨superclasses, fun p parent => ⟨before p parent, trivial⟩⟩
  · intro d mem
    unfold liveParent
    rw [unmanaged d mem]

/-- Without managed types the search of the live versions ends with the nearest method that
virtual calls may select. -/
theorem Described.selectVirtual_eq (described : e.Described) (lt : c < e.classes.size)
    (unmanaged : e.Unmanaged s c) (plain : key.isConstructor = false)
    (plain' : key.isStaticInit = false) :
    e.selectVirtual s c key = .ok ((e.nearestSelectable? c key).map Selection.ofHost) := by
  have search : (c :: (e.classAt c).superclasses).findSome? (e.selectIn? s key) =
      (e.nearestSelectable? c key).map Selection.ofHost := by
    unfold nearestSelectable?
    rw [List.map_findSome?]
    refine findSome?_congr ?_
    intro x mem
    exact described.selectIn?_eq (unmanaged x mem) plain plain'
  unfold selectVirtual
  rw [described.liveChain_of_unmanaged lt unmanaged, LiveChain.findSome?_top, search]

/-- A dispatch that selects a method of the host runs it. -/
theorem dispatchVirtual_host {m : Machine} {method : Method}
    (selects : e.selectVirtual m.scope c key = .ok (some (.host d method))) (args : List Value) :
    m.dispatchVirtual c key args e = (some <$> m.call d method args) e := by
  unfold Machine.dispatchVirtual
  rw [bind_apply, resolve_apply, selects]

/-! ### Final methods -/

/-- What virtual calls select in a superclass, if it is final, they select below. -/
theorem Orderly.get?_vtable_final (orderly : e.Orderly) {a : ClassRef}
    (mem : a ∈ (e.classAt c).superclasses) {entry : Method}
    (selects : (e.classAt a).vtable.get? key = some entry)
    (final : entry.modifiers.isFinal = true) : (e.classAt c).vtable.get? key = some entry := by
  refine orderly.described.below_induction ?_ ?_ (List.mem_cons_of_mem c mem)
  · exact selects
  intro c spec p here parent above
  have inherited : (e.inheritedVtable c).get? key = some entry := by
    unfold inheritedVtable
    rw [here.parent_eq, parent]
    exact above
  -- a method of the class itself would override the final one
  rw [here.get?_vtable, inherited]
  cases own : ((e.classAt c).method? key).filter Method.isSelectable with
  | none => rfl
  | some m =>
    obtain ⟨found, selectable⟩ := Option.filter_eq_some_iff.1 own
    have open_ := orderly.permits c here.lt key m found selectable entry inherited
    cases final.symm.trans open_

/-! ### The table -/

/-- What virtual calls select for a class under a key: the method of a class of the chain, bound
as that class declares it.  The class is found by the name that the method carries, and without
managed types both searches, that of the table and that of the live versions, run its method. -/
structure Chooses (e : Engine) (c d : ClassRef) (key : MemberKey) (entry : Method) : Prop where
  declared : (e.classAt d).method? key = some entry
  nearest : ∃ own access, e.NearestContributes c d key own ∧
    entry = Class.bind (e.nameOf d) access own
  ancestor : e.ancestor? c entry.declaring = some d
  selects : ∀ s, e.Unmanaged s c →
    e.selectVirtual s c key = .ok (some (Selection.ofHost (d, entry)))
  runs : entry.isAbstract = false → ∀ (m : Machine) (args : List Value),
    m.callSelected c key args e = m.call d entry args e ∧
    (e.Unmanaged m.scope c → m.dispatchVirtual c key args e = (some <$> m.call d entry args) e)

theorem Orderly.chooses (orderly : e.Orderly)
    (names : ((c :: (e.classAt c).superclasses).map e.nameOf).Nodup)
    (keys : ∀ x ∈ c :: (e.classAt c).superclasses, e.DistinctKeys x) {entry : Method}
    (selected : (e.classAt c).vtable.get? key = some entry) : ∃ d, e.Chooses c d key entry := by
  have described := orderly.described
  have there := selected
  rw [described.get?_vtable] at selected
  obtain ⟨⟨d, m⟩, nearest, rfl⟩ := Option.map_eq_some_iff.1 selected
  obtain ⟨own, access, contributes, found, bound⟩ := described.nearestContributes keys nearest
  have here := contributes.contributes
  have ancestor : e.ancestor? c m.declaring = some d := by
    rw [(described.method_eq found).1]
    exact ancestor?_eq_of_nodup names contributes.mem
  have lt : c < e.classes.size :=
    lt_of_classAt (fun cls => cls.vtable.get? key = some m) there nofun
  have selects (s : ScopeRef) (unmanaged : e.Unmanaged s c) :
      e.selectVirtual s c key = .ok (some (Selection.ofHost (d, m))) := by
    rw [described.selectVirtual_eq lt unmanaged here.plain here.plain', nearest]
    rfl
  refine ⟨d, found, ⟨own, access, contributes, bound⟩, ancestor, selects, ?_⟩
  intro concrete m' args
  refine ⟨m'.callSelected_apply there concrete ancestor args, fun unmanaged => ?_⟩
  refine dispatchVirtual_host ?_ args
  rw [selects m'.scope unmanaged]
  unfold Selection.ofHost
  rw [concrete]
  rfl

end Engine

/-- The table of a class is the map of nearest declarations.  It has a key exactly where a class
of the chain contributes a method under it; the method is then that of the nearest such class, which
both searches run.  What is final above is selected below. -/
theorem vtable_is_nearest_declaration {e : Engine} {c : ClassRef} (assembled : e.Assembled)
    (names : ((c :: (e.classAt c).superclasses).map e.nameOf).Nodup)
    (keys : ∀ x ∈ c :: (e.classAt c).superclasses, e.DistinctKeys x) (key : MemberKey) :
    (((e.classAt c).vtable.get? key).isSome ↔
      ∃ d ∈ c :: (e.classAt c).superclasses, ∃ own, e.Contributes d key own) ∧
    (∀ entry, (e.classAt c).vtable.get? key = some entry → ∃ d, e.Chooses c d key entry) ∧
    ∀ a ∈ (e.classAt c).superclasses, ∀ entry, (e.classAt a).vtable.get? key = some entry →
      entry.modifiers.isFinal = true → (e.classAt c).vtable.get? key = some entry := by
  have orderly := assembled.solid.orderly
  refine ⟨orderly.described.isSome_get?_vtable keys, fun entry selected => ?_, ?_⟩
  · exact orderly.chooses names keys selected
  · intro a mem entry selects final
    exact orderly.get?_vtable_final mem selects final

namespace Overlaid

/-- The method of two types. -/
def key : MemberKey := ⟨"m", ⟨[], .int⟩⟩

/-- A type with a method that gives a number. -/
def declaring (typeName : String) (modifiers : Modifiers) (number : Int64) : TypeUnit :=
  (TypeUnit.named typeName).addMethod
    (.make key.name key.sig modifiers [.constInt number, .retValue])

/-- A class with a final method, one below it with a private one under the same key, and one below
both that declares none. -/
def engine : Engine :=
  ((({} : Engine).extended (declaring "A" (.publicBit ||| .finalBit) 1)).extended
    (declaring "B" .privateBit 2)).extended (.named "C")

set_option maxRecDepth 100000 in
theorem outcomes :
    (engine.classAt 2).superclasses = [1, 0] ∧ [2, 1, 0].map engine.nameOf = ["C", "B", "A"] ∧
    (∀ x ∈ [2, 1, 0], engine.DistinctKeys x) ∧ engine.ancestor? 2 "A" = some 0 ∧
    ((engine.classAt 2).vtable.get? key).map (fun m => (m.declaring, m.isAbstract)) =
      some ("A", false) := by
  unfold Engine.DistinctKeys
  decide +kernel

theorem assembled : engine.Assembled :=
  ((Engine.Assembled.empty.extended _).extended _).extended _

end Overlaid

open Overlaid in
/-- The private method is passed over: for the lowest class the final one is selected. -/
theorem vtable_is_nearest_declaration_layered : ∃ entry,
    (engine.classAt 2).vtable.get? key = some entry ∧ engine.Chooses 2 0 key entry := by
  obtain ⟨above, named, keys, ancestor, selected⟩ := outcomes
  have assembled := assembled
  generalize engine = e at *
  obtain ⟨entry, here, same⟩ := Option.map_eq_some_iff.1 selected
  obtain ⟨declaring, -⟩ := Prod.mk.inj same
  have names : ((2 :: (e.classAt 2).superclasses).map e.nameOf).Nodup := by
    rw [above, named]
    decide
  obtain ⟨-, chooses, -⟩ := vtable_is_nearest_declaration assembled names (above ▸ keys) key
  obtain ⟨d, chosen⟩ := chooses entry here
  have found := chosen.ancestor
  rw [declaring, ancestor] at found
  obtain rfl : 0 = d := Option.some.inj found
  exact ⟨entry, here, chosen⟩

end LiveUpdate
