import LiveUpdate.Proofs.Interfaces
import LiveUpdate.Proofs.Showing
import LiveUpdate.Proofs.Traversal

/-!
# The searches of reflection

Reflection searches the types above a type by their names, and meets each of them once.  Where
the types show what they were defined above, it goes through their places: for a field through
the interfaces that a type shows and then its parent, for a method through the parent first.
-/

set_option autoImplicit false

namespace LiveUpdate

open Exec

/-- Methods that are put together have, under every key, the method that is found first. -/
theorem Reflect.find?_mergeMethods (found methods : List MethodInfo) (key : MemberKey) :
    (mergeMethods found methods).find? (fun m => m.member.key = key) =
      (found.find? fun m => m.member.key = key).or
        (methods.find? fun m => m.member.key = key) := by
  unfold mergeMethods
  induction methods generalizing found with
  | nil => exact Option.or_none.symm
  | cons m rest ih =>
    rw [List.foldl_cons, ih, List.find?_cons]
    by_cases keyed : m.member.key = key
    · rw [decide_eq_true keyed]
      split
      next known =>
        obtain ⟨f, mem, same⟩ := List.any_eq_true.1 known
        have same : f.member.key = key := (of_decide_eq_true same).trans keyed
        cases first : found.find? fun m => m.member.key = key with
        | some f' => rfl
        | none => exact absurd (decide_eq_true same) (List.find?_eq_none.1 first f mem)
      · rw [List.find?_append, List.find?_singleton, if_pos (decide_eq_true keyed)]
        cases found.find? fun m => m.member.key = key <;> rfl
    · rw [decide_eq_false keyed]
      split
      · rfl
      · rw [List.find?_append, List.find?_singleton, decide_eq_false keyed,
          if_neg Bool.false_ne_true, Option.or_none]

namespace Engine

variable {e e₁ : Engine} {s : ScopeRef} {top c d : ClassRef} {name : String} {key : MemberKey}
  {shape : TypeShape}

/-- What a class extends and implements. -/
def placesAbove (e : Engine) (c : ClassRef) : List ClassRef :=
  (e.classAt c).interfaces ++ (e.classAt c).parent.toList

/-- What a class shows that it implements and extends, in the order of a search for a field. -/
def shownAbove (e : Engine) (s : ScopeRef) (c : ClassRef) : List ClassRef :=
  e.shownInterfaces s c ++ (e.classAt c).parent.toList

/-- What a class extends and shows that it implements, in the order of a search for a method. -/
def shownMethodsAbove (e : Engine) (s : ScopeRef) (c : ClassRef) : List ClassRef :=
  (e.classAt c).parent.toList ++ e.shownInterfaces s c

/-- A class and everything above it show what they were defined above, and list nothing
generated. -/
def ShowsAll (e : Engine) (s : ScopeRef) (c : ClassRef) : Prop :=
  ∀ d ∈ (e.classAt c).fieldOrder, ∃ shape, e.Shows s d shape

instance (e : Engine) (s : ScopeRef) (c : ClassRef) : Decidable (e.ShowsAll s c) :=
  inferInstanceAs (Decidable (∀ d ∈ (e.classAt c).fieldOrder, ∃ shape, e.Shows s d shape))

section Places

variable (layered : e.Layered) (housed : e.Housed) (home : e.Homes s c)
include layered housed home

/-- The host searches a class for a field and then what is above it. -/
theorem Layered.fieldOrder_eq : (e.classAt c).fieldOrder =
      SearchOrder.joined ([c] :: ((e.placesAbove c).map e.classAt).map Class.fieldOrder) ∧
    ∀ p ∈ e.placesAbove c, p < c ∧ e.Homes s p := by
  obtain ⟨spec, described, above⟩ := layered.above housed home
  unfold placesAbove
  rw [described.interfaces_eq, described.parent_eq]
  refine ⟨described.fieldOrder_eq, fun p mem => above p ?_⟩
  exact List.mem_append.2 (List.mem_append.1 mem).symm

theorem Layered.mem_fieldOrder : d ∈ (e.classAt c).fieldOrder ↔
    d = c ∨ ∃ p ∈ e.placesAbove c, d ∈ (e.classAt p).fieldOrder := by
  rw [(layered.fieldOrder_eq housed home).1, mem_order]

theorem Layered.self_mem_fieldOrder : c ∈ (e.classAt c).fieldOrder :=
  (layered.mem_fieldOrder housed home).2 (.inl rfl)

/-- What is above a class that is searched was defined before it, and is searched as well. -/
theorem Layered.fieldOrder_closed (mem : d ∈ (e.classAt c).fieldOrder) :
    ∀ p ∈ e.placesAbove d, p < d ∧ p ∈ (e.classAt c).fieldOrder := by
  induction c using Nat.strongRecOn with
  | ind c ih =>
    intro p above
    obtain ⟨-, before⟩ := layered.fieldOrder_eq housed home
    rcases (layered.mem_fieldOrder housed home).1 mem with rfl | ⟨q, above_c, mem⟩
    · obtain ⟨lt, home_p⟩ := before p above
      exact ⟨lt, (layered.mem_fieldOrder housed home).2
        (.inr ⟨p, above, layered.self_mem_fieldOrder housed home_p⟩)⟩
    · obtain ⟨lt, home_q⟩ := before q above_c
      obtain ⟨lt_p, mem_p⟩ := ih q lt home_q mem p above
      exact ⟨lt_p, (layered.mem_fieldOrder housed home).2 (.inr ⟨q, above_c, mem_p⟩)⟩

/-- A way to go up that leads from a class to what is above it stays in what is searched. -/
theorem Layered.descends {above : ClassRef → List ClassRef}
    (same : ∀ d ∈ (e.classAt c).fieldOrder, ∀ p, p ∈ above d ↔ p ∈ e.placesAbove d) :
    Descends above (· ∈ (e.classAt c).fieldOrder) :=
  fun d mem p above_d => layered.fieldOrder_closed housed home mem p ((same d mem p).1 above_d)

/-- Such a way comes to everything that is searched. -/
theorem Layered.mem_walk_iff {above : ClassRef → List ClassRef}
    (same : ∀ d ∈ (e.classAt c).fieldOrder, ∀ p, p ∈ above d ↔ p ∈ e.placesAbove d) :
    d ∈ walk above c ↔ d ∈ (e.classAt c).fieldOrder := by
  have descends := layered.descends housed home same
  suffices every : ∀ b ∈ (e.classAt c).fieldOrder, e.Homes s b →
      (d ∈ walk above b ↔ d ∈ (e.classAt b).fieldOrder) from
    every c (layered.self_mem_fieldOrder housed home) home
  intro b mem home_b
  induction b using Nat.strongRecOn with
  | ind b ih =>
    rw [mem_walk descends mem, layered.mem_fieldOrder housed home_b]
    refine or_congr_right (exists_congr fun p => ?_)
    rw [same b mem p]
    refine and_congr_right fun above_b => ?_
    obtain ⟨lt, mem_p⟩ := layered.fieldOrder_closed housed home mem p above_b
    exact ih p lt mem_p ((layered.fieldOrder_eq housed home_b).2 p above_b).2

end Places

section Names

/-- What comes next is told by its names. -/
theorem Housed.map_nextOf (housed : e.Housed) {met places pending : List ClassRef}
    (homes : ∀ d ∈ met, e.Homes s d) (homes' : ∀ d ∈ places ++ pending, e.Homes s d) :
    ((places.map e.nameOf ++ pending.map e.nameOf).filter fun other =>
      !(met.map e.nameOf).contains other) = (nextOf met places pending).map e.nameOf := by
  unfold nextOf
  rw [← List.map_append, List.filter_map]
  refine congrArg (List.map e.nameOf) (List.filter_congr fun d mem => ?_)
  refine congrArg Bool.not (Bool.eq_iff_iff.2 ?_)
  rw [List.contains_iff_mem, List.contains_iff_mem]
  refine ⟨fun named => ?_, List.mem_map_of_mem⟩
  obtain ⟨d', mem', same⟩ := List.mem_map.1 named
  exact housed.eq_of_nameOf_eq (homes d' mem') (homes' d mem) same ▸ mem'

/-- So are those that come next where a way to go up stays in what is searched. -/
theorem Layered.map_nextOf (layered : e.Layered) (housed : e.Housed) (home : e.Homes s top)
    {above : ClassRef → List ClassRef} {met pending : List ClassRef}
    (meets : Meets (· ∈ (e.classAt top).fieldOrder) met (d :: pending))
    (descends : Descends above (· ∈ (e.classAt top).fieldOrder)) :
    (((above d).map e.nameOf ++ pending.map e.nameOf).filter fun other =>
      !((d :: met).map e.nameOf).contains other) =
        (nextOf (d :: met) (above d) pending).map e.nameOf := by
  have homes := layered.fieldOrder_homes housed home
  refine housed.map_nextOf (fun b mem => homes b (meets.met_known b mem)) fun b mem => homes b ?_
  rcases List.mem_append.1 mem with above_d | later
  · exact (descends d meets.here b above_d).2
  · exact meets.pending_known b later

/-- Asked for its metadata, a type gives what it shows, whatever has been asked before. -/
theorem Shows.metadata_eq (shown : e.Shows s d shape) (housed : e.Housed) (home : e.Homes s d)
    (reachable₁ : e₁.Reachable) (skeleton₁ : e₁.skeleton = e.skeleton) :
    ∃ version e₂, Reflect.metadata s (e.nameOf d) e₁ = .ok (.ofShape shape version) e₂ ∧
      e₂.Reachable ∧ e₂.skeleton = e.skeleton := by
  obtain ⟨name, known⟩ := home
  have during : e.During e₁ := .of_skeleton_eq skeleton₁
  rw [← housed.name_eq known, ← during.class?] at known
  have shaped := shown.shaped
  rw [← during.shapeOf] at shaped
  obtain ⟨e₂, asked, reachable₂, skeleton₂⟩ := reachable₁.metadata_eq known shaped
  exact ⟨_, e₂, asked, reachable₂, skeleton₂.trans skeleton₁⟩

/-- What comes next in a search for a field is told by what is shown. -/
theorem Shows.map_shownAbove (shown : e.Shows s d shape) (housed : e.Housed) :
    (e.shownAbove s d).map e.nameOf = shape.interfaces ++ shape.superName.toList := by
  unfold shownAbove
  rw [List.map_append, shown.map_nameOf housed, shown.superName housed]

/-- So is what comes next in the collection of methods. -/
theorem Shows.map_shownMethodsAbove (shown : e.Shows s d shape) (housed : e.Housed) :
    (e.shownMethodsAbove s d).map e.nameOf = shape.superName.toList ++ shape.interfaces := by
  unfold shownMethodsAbove
  rw [List.map_append, shown.map_nameOf housed, shown.superName housed]

end Names

/-- The field that a walk through what classes show comes to. -/
def shownFieldAbove? (e : Engine) (s : ScopeRef) (name : String) (c : ClassRef) :
    Option FieldInfo :=
  (walk (e.shownAbove s) c).findSome? (e.shownField? s name)

/-- The method that a walk through what classes show comes to. -/
def shownMethodAbove? (e : Engine) (s : ScopeRef) (key : MemberKey) (c : ClassRef) :
    Option MethodInfo :=
  (walk (e.shownMethodsAbove s) c).findSome? (e.shownMethod? s key)

section Searches

/-- A step of the search for a field. -/
theorem searchField_cons {n : Nat} {met pending : List String} {current : String}
    {t : TypeMetadata} {e₂ : Engine} (asked : Reflect.metadata s current e₁ = .ok t e₂) :
    Reflect.searchField s name (n + 1) met (current :: pending) e₁ =
      match t.field? name with
      | some f => .ok (some f) e₂
      | none => Reflect.searchField s name n (current :: met)
          ((t.interfaces ++ t.superName.toList ++ pending).filter fun other =>
            !(current :: met).contains other) e₂ := by
  rw [Reflect.searchField, bind_apply, asked]
  dsimp only
  cases t.field? name <;> rfl

/-- A step of the collection of methods. -/
theorem collectMethods_cons {n : Nat} {found : List MethodInfo} {met pending : List String}
    {current : String} {t : TypeMetadata} {e₂ : Engine}
    (asked : Reflect.metadata s current e₁ = .ok t e₂) :
    Reflect.collectMethods s (n + 1) found met (current :: pending) e₁ =
      Reflect.collectMethods s n (Reflect.mergeMethods found t.methods) (current :: met)
        ((t.superName.toList ++ t.interfaces ++ pending).filter fun other =>
          !(current :: met).contains other) e₂ := by
  rw [Reflect.collectMethods, bind_apply, asked]

variable (reachable : e.Reachable) (home : e.Homes s top) (all : e.ShowsAll s top)

section Above

include all

theorem ShowsAll.mem_shownAbove : ∀ d ∈ (e.classAt top).fieldOrder, ∀ p,
    p ∈ e.shownAbove s d ↔ p ∈ e.placesAbove d := by
  intro d mem p
  obtain ⟨shape, shown⟩ := all d mem
  unfold shownAbove placesAbove
  rw [List.mem_append, List.mem_append, shown.mem_shownInterfaces]

theorem ShowsAll.mem_shownMethodsAbove : ∀ d ∈ (e.classAt top).fieldOrder, ∀ p,
    p ∈ e.shownMethodsAbove s d ↔ p ∈ e.placesAbove d := by
  intro d mem p
  obtain ⟨shape, shown⟩ := all d mem
  unfold shownMethodsAbove placesAbove
  rw [List.mem_append, List.mem_append, shown.mem_shownInterfaces]
  exact or_comm

end Above

include reachable home all

/-- The search for a field comes to the one that a walk through the pending places comes to.  The
fuel is enough for the places that were not met. -/
theorem ShowsAll.searchField_apply (name : String) {fuel : Nat} {met pending : List ClassRef}
    (meets : Meets (· ∈ (e.classAt top).fieldOrder) met pending)
    (covers : Covers (e.shownFieldAbove? s name) met pending)
    (enough : top < met.length + fuel) (reachable₁ : e₁.Reachable)
    (skeleton₁ : e₁.skeleton = e.skeleton) :
    ∃ e₂, Reflect.searchField s name fuel (met.map e.nameOf) (pending.map e.nameOf) e₁ =
        .ok (pending.findSome? (e.shownFieldAbove? s name)) e₂ ∧ e₂.skeleton = e.skeleton := by
  have layered := reachable.layered
  have housed := reachable.housed
  have descends := layered.descends housed home all.mem_shownAbove
  induction fuel generalizing met pending e₁ with
  | zero =>
    cases pending with
    | nil =>
      refine ⟨e₁, ?_, skeleton₁⟩
      unfold Reflect.searchField
      rfl
    | cons d rest =>
      exact absurd (meets.length_le fun d mem => reachable.lineage.fieldOrder_le d mem)
        (Nat.not_le_of_lt enough)
  | succ n ih =>
    cases pending with
    | nil =>
      refine ⟨e₁, ?_, skeleton₁⟩
      unfold Reflect.searchField
      rfl
    | cons d rest =>
      obtain ⟨shape, shown⟩ := all d meets.here
      have home_d := layered.fieldOrder_homes housed home d meets.here
      obtain ⟨version, e₂, asked, reachable₂, skeleton₂⟩ :=
        shown.metadata_eq housed home_d reachable₁ skeleton₁
      have own : (TypeMetadata.ofShape shape version).field? name = e.shownField? s name d := by
        rw [shown.shownField?, shown.plain.field?_ofShape]
      have goesUp : e.shownFieldAbove? s name d = (e.shownField? s name d).or
          ((e.shownAbove s d).findSome? (e.shownFieldAbove? s name)) :=
        findSome?_walk descends meets.here _
      rw [List.map_cons, searchField_cons asked, own]
      cases declared : e.shownField? s name d with
      | some f =>
        rw [declared, Option.some_or] at goesUp
        rw [List.findSome?_cons, goesUp]
        exact ⟨e₂, rfl, skeleton₂⟩
      | none =>
        rw [declared, Option.none_or] at goesUp
        have names : (TypeMetadata.ofShape shape version).interfaces ++
            (TypeMetadata.ofShape shape version).superName.toList =
              (e.shownAbove s d).map e.nameOf := (shown.map_shownAbove housed).symm
        have longer : top < (d :: met).length + n := by
          rw [List.length_cons, Nat.add_right_comm]
          exact enough
        dsimp only
        rw [names, ← List.map_cons, layered.map_nextOf housed home meets descends,
          ← covers.findSome?_next meets descends goesUp]
        exact ih (meets.next descends) (covers.next meets descends goesUp) longer reachable₂
          skeleton₂

/-- The collection of methods has, under a key that is inherited, the method that was found first,
or the one that a walk through the pending places comes to. -/
theorem ShowsAll.collectMethods_apply (inherited : key.isPlain = true) {fuel : Nat}
    (found : List MethodInfo) {met pending : List ClassRef}
    (meets : Meets (· ∈ (e.classAt top).fieldOrder) met pending)
    (covers : found.find? (fun m => m.member.key = key) = none →
      Covers (e.shownMethodAbove? s key) met pending)
    (enough : top < met.length + fuel) (reachable₁ : e₁.Reachable)
    (skeleton₁ : e₁.skeleton = e.skeleton) :
    ∃ methods e₂, Reflect.collectMethods s fuel found (met.map e.nameOf) (pending.map e.nameOf)
        e₁ = .ok methods e₂ ∧ e₂.skeleton = e.skeleton ∧
      methods.find? (fun m => m.member.key = key) =
        (found.find? fun m => m.member.key = key).or
          (pending.findSome? (e.shownMethodAbove? s key)) := by
  have layered := reachable.layered
  have housed := reachable.housed
  have descends := layered.descends housed home all.mem_shownMethodsAbove
  induction fuel generalizing found met pending e₁ with
  | zero =>
    cases pending with
    | nil =>
      refine ⟨found, e₁, ?_, skeleton₁, Option.or_none.symm⟩
      unfold Reflect.collectMethods
      rfl
    | cons d rest =>
      exact absurd (meets.length_le fun d mem => reachable.lineage.fieldOrder_le d mem)
        (Nat.not_le_of_lt enough)
  | succ n ih =>
    cases pending with
    | nil =>
      refine ⟨found, e₁, ?_, skeleton₁, Option.or_none.symm⟩
      unfold Reflect.collectMethods
      rfl
    | cons d rest =>
      obtain ⟨shape, shown⟩ := all d meets.here
      have home_d := layered.fieldOrder_homes housed home d meets.here
      obtain ⟨version, e₂, asked, reachable₂, skeleton₂⟩ :=
        shown.metadata_eq housed home_d reachable₁ skeleton₁
      have own : (TypeMetadata.ofShape shape version).methods.find? (fun m => m.member.key = key) =
          e.shownMethod? s key d := by
        rw [shown.shownMethod? inherited, ← shown.plain.method?_ofShape version inherited]
        rfl
      have goesUp : e.shownMethodAbove? s key d = (e.shownMethod? s key d).or
          ((e.shownMethodsAbove s d).findSome? (e.shownMethodAbove? s key)) :=
        findSome?_walk descends meets.here _
      have names : (TypeMetadata.ofShape shape version).superName.toList ++
          (TypeMetadata.ofShape shape version).interfaces =
            (e.shownMethodsAbove s d).map e.nameOf := (shown.map_shownMethodsAbove housed).symm
      have longer : top < (d :: met).length + n := by
        rw [List.length_cons, Nat.add_right_comm]
        exact enough
      rw [List.map_cons, collectMethods_cons asked, names, ← List.map_cons,
        layered.map_nextOf housed home meets descends]
      have merged := Reflect.find?_mergeMethods found (TypeMetadata.ofShape shape version).methods
        key
      rw [own] at merged
      have next := meets.next descends
      cases before : found.find? fun m => m.member.key = key with
      | some m =>
        rw [before, Option.some_or] at merged
        obtain ⟨methods, e₃, collected, skeleton₃, first⟩ := ih _ next
          (fun missed => nomatch merged.symm.trans missed) longer reachable₂ skeleton₂
        rw [merged, Option.some_or] at first
        exact ⟨methods, e₃, collected, skeleton₃, first⟩
      | none =>
        rw [before, Option.none_or] at merged
        rw [Option.none_or]
        cases here : e.shownMethod? s key d with
        | some m =>
          rw [here] at merged goesUp
          obtain ⟨methods, e₃, collected, skeleton₃, first⟩ := ih _ next
            (fun missed => nomatch merged.symm.trans missed) longer reachable₂ skeleton₂
          rw [merged, Option.some_or] at first
          rw [List.findSome?_cons, goesUp]
          exact ⟨methods, e₃, collected, skeleton₃, first⟩
        | none =>
          rw [here] at merged
          rw [here, Option.none_or] at goesUp
          obtain ⟨methods, e₃, collected, skeleton₃, first⟩ := ih _ next
            (fun _ => (covers before).next meets descends goesUp) longer reachable₂ skeleton₂
          rw [merged, Option.none_or, (covers before).findSome?_next meets descends goesUp] at first
          exact ⟨methods, e₃, collected, skeleton₃, first⟩

/-- Asked for a field, reflection gives the one that a walk through what classes show comes to. -/
theorem ShowsAll.field_apply {typeName : String} (known : e.class? s typeName = some top)
    {fuel : Nat} (enough : top < fuel) (name : String) :
    ∃ e', Reflect.field fuel s typeName name e = .ok (e.shownFieldAbove? s name top) e' ∧
      e'.skeleton = e.skeleton := by
  have self := reachable.layered.self_mem_fieldOrder reachable.housed home
  obtain ⟨e', searched, skeleton⟩ := all.searchField_apply reachable home name (meets_nil self)
    (covers_nil _ _) (by simpa using enough) reachable rfl
  refine ⟨e', ?_, skeleton⟩
  unfold Reflect.field
  rw [← reachable.housed.name_eq known]
  rw [List.findSome?_singleton] at searched
  exact searched

/-- Asked for a method under a key that is inherited, it gives the one that a walk comes to. -/
theorem ShowsAll.method_apply {typeName : String} (known : e.class? s typeName = some top)
    {fuel : Nat} (enough : top < fuel) (inherited : key.isPlain = true) :
    ∃ e', Reflect.method fuel s typeName key e = .ok (e.shownMethodAbove? s key top) e' ∧
      e'.skeleton = e.skeleton := by
  have self := reachable.layered.self_mem_fieldOrder reachable.housed home
  obtain ⟨methods, e', collected, skeleton, first⟩ := all.collectMethods_apply reachable home
    inherited [] (meets_nil self) (fun _ => covers_nil _ _) (by simpa using enough) reachable rfl
  refine ⟨e', ?_, skeleton⟩
  rw [List.find?_nil, Option.none_or, List.findSome?_singleton] at first
  unfold Reflect.method Reflect.methods
  have collected : Reflect.collectMethods s fuel [] [] [typeName] e = .ok methods e' := by
    rw [← reachable.housed.name_eq known]
    exact collected
  rw [bind_apply, collected, ← first]
  rfl

end Searches

end Engine

end LiveUpdate
