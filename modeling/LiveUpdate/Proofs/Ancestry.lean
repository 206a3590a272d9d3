import LiveUpdate.Proofs.Bodies
import LiveUpdate.Proofs.Hosting

/-!
# Nearer and farther ancestors

A search for a method goes up from a class to its ancestors.  A search that starts higher up
finds the same method exactly when no class that it leaves out declares one.  This holds for
the superclasses that a class was defined with, and for those that live versions give it.
-/

set_option autoImplicit false

namespace LiveUpdate

open Exec

/-- A search that may leave out the first places finds what it would have found with them
exactly when none of them has an answer, if no answer of theirs is the one that is found. -/
theorem findSome?_append_eq_some_iff {α β : Type} {f : α → Option β} {before after : List α}
    {b : β} (found : after.findSome? f = some b) (apart : ∀ a ∈ before, f a ≠ some b) :
    (before ++ after).findSome? f = some b ↔ ∀ a ∈ before, f a = none := by
  rw [List.findSome?_append, found]
  cases nearer : before.findSome? f with
  | none => exact iff_of_true rfl (List.findSome?_eq_none_iff.1 nearer)
  | some b' =>
    obtain ⟨a, mem, answers⟩ := List.exists_of_findSome?_eq_some nearer
    refine iff_of_false (fun same => ?_) fun none_ => ?_
    · have same : b' = b := Option.some.inj same
      exact apart a mem (same ▸ answers)
    · cases answers.symm.trans (none_ a mem)

namespace Engine

variable {e : Engine} {s : ScopeRef} {c d : ClassRef} {key : MemberKey}

/-- The classes of a chain that are nearer than the one with a name. -/
def nearerThan (e : Engine) (name : String) (chain : List ClassRef) : List ClassRef :=
  chain.takeWhile fun c => e.nameOf c ≠ name

/-- The method that a class itself was defined with. -/
def ownHostMethod? (e : Engine) (key : MemberKey) (c : ClassRef) : Option (ClassRef × Method) :=
  ((e.classAt c).method? key).map fun m => (c, m)

/-- A class of a scope has the name that the scope knows it by. -/
theorem Housed.name_eq (housed : e.Housed) {name : String} (known : e.class? s name = some c) :
    e.nameOf c = name := by
  obtain ⟨spec, described, named, -, -⟩ := housed.classes s name c known
  exact described.nameOf_eq.trans named

/-- Classes of a scope are told apart by their names. -/
theorem Housed.eq_of_nameOf_eq (housed : e.Housed) (home : e.Homes s c) (home' : e.Homes s d)
    (same : e.nameOf c = e.nameOf d) : c = d := by
  obtain ⟨name, known⟩ := home
  obtain ⟨name', known'⟩ := home'
  rw [housed.name_eq known, housed.name_eq known'] at same
  rw [same, known'] at known
  exact (Option.some.inj known).symm

/-- The part of a chain below the class with a name. -/
theorem Housed.nearerThan_eq (housed : e.Housed) {before after : List ClassRef}
    (homes : ∀ b ∈ before, e.Homes s b) (absent : c ∉ before) {name : String}
    (known : e.class? s name = some c) : e.nearerThan name (before ++ c :: after) = before := by
  unfold nearerThan
  rw [List.takeWhile_append_of_pos fun b mem => ?_, List.takeWhile_cons_of_neg ?_,
    List.append_nil]
  · simpa using housed.name_eq known
  · refine decide_eq_true fun same => absent ?_
    have home : e.Homes s c := ⟨name, known⟩
    have same : e.nameOf b = e.nameOf c := same.trans (housed.name_eq known).symm
    exact housed.eq_of_nameOf_eq (homes b mem) home same ▸ mem

/-- A search along a chain of classes ends as the one that starts with a farther class exactly
when no nearer class has an answer. -/
theorem Housed.findSome?_chain_iff (housed : e.Housed) {before after : List ClassRef}
    (homes : ∀ d ∈ before ++ c :: after, e.Homes s d) (distinct : (before ++ c :: after).Nodup)
    {name : String} (known : e.class? s name = some c) {β : Type} {f : ClassRef → Option β} {b : β}
    (found : (c :: after).findSome? f = some b)
    (told : ∀ d d', f d = some b → f d' = some b → e.nameOf d = e.nameOf d') :
    (before ++ c :: after).findSome? f = some b ↔
      ∀ d ∈ e.nearerThan name (before ++ c :: after), f d = none := by
  rw [List.nodup_append] at distinct
  have lower (d : ClassRef) (mem : d ∈ before) : e.Homes s d :=
    homes d (List.mem_append_left _ mem)
  obtain ⟨d', mem', answers'⟩ := List.exists_of_findSome?_eq_some found
  have apart : ∀ d ∈ before, f d ≠ some b := by
    intro d mem answers
    have same := housed.eq_of_nameOf_eq (lower d mem) (homes d' (List.mem_append_right _ mem'))
      (told d d' answers answers')
    exact distinct.2.2 d mem d' mem' same
  have absent : c ∉ before := fun mem => distinct.2.2 c mem c List.mem_cons_self rfl
  rw [housed.nearerThan_eq lower absent known, findSome?_append_eq_some_iff found apart]

section Orders

/-! The order in which the host searches a class and what is above it. -/

/-- A search through a class and the orders of others looks into the class and then through each
of these orders. -/
theorem findSome?_order {α : Type} (e : Engine) (c : ClassRef) (order : Class → List ClassRef)
    (places : List ClassRef) (f : ClassRef → Option α) :
    (SearchOrder.joined ([c] :: (places.map e.classAt).map order)).findSome? f =
      (f c).or (places.findSome? fun d => (order (e.classAt d)).findSome? f) := by
  rw [SearchOrder.findSome?_joined, List.flatten_cons, List.findSome?_append,
    List.findSome?_singleton]
  refine congrArg ((f c).or ·) ?_
  induction places with
  | nil => rfl
  | cons d rest ih =>
    rw [List.map_cons, List.map_cons, List.flatten_cons, List.findSome?_append, ih,
      List.findSome?_cons]
    cases (order (e.classAt d)).findSome? f <;> rfl

/-- Such an order has the class and what these orders have. -/
theorem mem_order {e : Engine} {order : Class → List ClassRef} {places : List ClassRef} :
    d ∈ SearchOrder.joined ([c] :: (places.map e.classAt).map order) ↔
      d = c ∨ ∃ p ∈ places, d ∈ order (e.classAt p) := by
  simp [SearchOrder.mem_joined]

variable {spec : ClassSpec} (described : e.Describes c spec)
include described

theorem Describes.methodOrder_eq : (e.classAt c).methodOrder = SearchOrder.joined ([c] ::
    ((spec.parent.toList ++ spec.interfaces).map e.classAt).map Class.methodOrder) := by
  obtain ⟨id, fresh⟩ := described.fresh
  have order : (e.classAt c).methodOrder = SearchOrder.joined ([c] ::
      ((spec.parent.map e.classAt).toList ++ spec.interfaces.map e.classAt).map
        Class.methodOrder) := congrArg Class.methodOrder fresh
  rw [order, Option.toList_map, ← List.map_append]

theorem Describes.fieldOrder_eq : (e.classAt c).fieldOrder = SearchOrder.joined ([c] ::
    ((spec.interfaces ++ spec.parent.toList).map e.classAt).map Class.fieldOrder) := by
  obtain ⟨id, fresh⟩ := described.fresh
  have order : (e.classAt c).fieldOrder = SearchOrder.joined ([c] ::
      (spec.interfaces.map e.classAt ++ (spec.parent.map e.classAt).toList).map
        Class.fieldOrder) := congrArg Class.fieldOrder fresh
  rw [order, Option.toList_map, ← List.map_append]

/-- The host looks for a method in a class, then in its parent, then in its interfaces. -/
theorem Describes.findSome?_methodOrder {α : Type} (f : ClassRef → Option α) :
    (e.classAt c).methodOrder.findSome? f = (f c).or
      ((spec.parent.toList ++ spec.interfaces).findSome? fun d =>
        (e.classAt d).methodOrder.findSome? f) := by
  rw [described.methodOrder_eq, findSome?_order]

omit described in
/-- Under a key that is inherited the host searches the whole order. -/
theorem hostMethod?_eq (e : Engine) (c : ClassRef) (plain : key.isConstructor = false)
    (plain' : key.isStaticInit = false) :
    e.hostMethod? c key = (e.classAt c).methodOrder.findSome? (e.ownHostMethod? key) := by
  unfold hostMethod?
  simp only [plain, plain', Bool.or_self, Bool.false_eq_true, if_false]
  rfl

end Orders

section Superclasses

/-! The superclasses that a class was defined with. -/

/-- The superclasses of a class are its parent and the superclasses of that, which was defined
earlier. -/
theorem Housed.superclasses_eq (housed : e.Housed) (home : e.Homes s c) :
    (e.classAt c).superclasses = (match (e.classAt c).parent with
      | some p => p :: (e.classAt p).superclasses
      | none => []) ∧
    ∀ p, (e.classAt c).parent = some p → p < c ∧ e.Homes s p := by
  obtain ⟨name, known⟩ := home
  obtain ⟨spec, described, -, parents, -⟩ := housed.classes s name c known
  rw [described.superclasses_eq, described.parent_eq]
  refine ⟨?_, fun p mem => ⟨described.parent_lt p mem, parents p mem⟩⟩
  cases spec.parent <;> rfl

/-- A class and its superclasses belong to the scope, and each was defined earlier than the one
below it. -/
theorem Housed.superclasses_descend (housed : e.Housed) (home : e.Homes s c) :
    (∀ d ∈ (e.classAt c).superclasses, d < c ∧ e.Homes s d) ∧
    (e.classAt c).superclasses.Pairwise (· > ·) := by
  induction c using Nat.strongRecOn with
  | ind c ih =>
    obtain ⟨above, parents⟩ := housed.superclasses_eq home
    cases parent : (e.classAt c).parent with
    | none =>
      rw [above, parent]
      exact ⟨fun d mem => (nomatch mem), .nil⟩
    | some p =>
      obtain ⟨lt, home_p⟩ := parents p parent
      obtain ⟨below, descend⟩ := ih p lt home_p
      rw [above, parent]
      refine ⟨fun d mem => ?_, .cons (fun d mem => (below d mem).1) descend⟩
      rcases List.mem_cons.1 mem with rfl | mem
      · exact ⟨lt, home_p⟩
      · exact ⟨Nat.lt_trans (below d mem).1 lt, (below d mem).2⟩

/-- Behind a superclass stand the superclasses of it. -/
theorem Housed.superclasses_split (housed : e.Housed) (home : e.Homes s c)
    (mem : d ∈ (e.classAt c).superclasses) :
    ∃ before, (e.classAt c).superclasses = before ++ d :: (e.classAt d).superclasses := by
  induction c using Nat.strongRecOn with
  | ind c ih =>
    obtain ⟨above, parents⟩ := housed.superclasses_eq home
    cases parent : (e.classAt c).parent with
    | none =>
      rw [above, parent] at mem
      cases mem
    | some p =>
      obtain ⟨lt, home_p⟩ := parents p parent
      rw [above, parent] at mem ⊢
      rcases List.mem_cons.1 mem with rfl | mem
      · exact ⟨[], rfl⟩
      · obtain ⟨before, split⟩ := ih p lt home_p mem
        exact ⟨p :: before, congrArg (p :: ·) split⟩

/-- The host's search for a method begins with the class and its superclasses. -/
theorem Housed.findSome?_methodOrder (housed : e.Housed) (home : e.Homes s c) {α : Type}
    {f : ClassRef → Option α} {found : α}
    (search : (c :: (e.classAt c).superclasses).findSome? f = some found) :
    (e.classAt c).methodOrder.findSome? f = some found := by
  induction c using Nat.strongRecOn with
  | ind c ih =>
    obtain ⟨above, parents⟩ := housed.superclasses_eq home
    obtain ⟨name, known⟩ := home
    obtain ⟨spec, described, -, -, -⟩ := housed.classes s name c known
    have parent := described.parent_eq
    rw [described.findSome?_methodOrder]
    rw [above, List.findSome?_cons] at search
    cases own : f c with
    | some found' =>
      rw [own] at search
      exact search
    | none =>
      rw [own] at search
      rw [Option.none_or]
      cases some_p : spec.parent with
      | none =>
        rw [parent, some_p] at search
        cases search
      | some p =>
        rw [parent, some_p] at search
        obtain ⟨lt, home_p⟩ := parents p (parent.trans some_p)
        rw [Option.toList_some, List.cons_append, List.findSome?_cons, ih p lt home_p search]

/-- So it finds the method that is nearest among these. -/
theorem Housed.hostMethod?_of_superclass (housed : e.Housed) (home : e.Homes s c)
    (plain : key.isConstructor = false) (plain' : key.isStaticInit = false)
    {found : ClassRef × Method}
    (search : (c :: (e.classAt c).superclasses).findSome? (e.ownHostMethod? key) = some found) :
    e.hostMethod? c key = some found :=
  (e.hostMethod?_eq c plain plain').trans (housed.findSome?_methodOrder home search)

/-- The parent of a class has the method that a superclass has exactly when no nearer one
declares it. -/
theorem Housed.hostMethod?_parent_iff (housed : e.Housed) (home : e.Homes s c) {p x : ClassRef}
    (parent : (e.classAt c).parent = some p) (mem : x ∈ (e.classAt c).superclasses)
    {name : String} (known : e.class? s name = some x) (plain : key.isConstructor = false)
    (plain' : key.isStaticInit = false) {found : ClassRef × Method}
    (linked : e.hostMethod? x key = some found)
    (above : found.1 ∈ x :: (e.classAt x).superclasses) :
    e.hostMethod? p key = some found ↔
      ∀ d ∈ e.nearerThan name (e.classAt c).superclasses, (e.classAt d).method? key = none := by
  obtain ⟨before, split⟩ := housed.superclasses_split home mem
  obtain ⟨homes, descend⟩ := housed.superclasses_descend home
  have distinct : (e.classAt c).superclasses.Nodup := descend.imp Nat.ne_of_gt
  have whole : (e.classAt c).superclasses = p :: (e.classAt p).superclasses := by
    rw [(housed.superclasses_eq home).1, parent]
  have home_p := ((housed.superclasses_eq home).2 p parent).2
  have told (d : ClassRef) (own : e.ownHostMethod? key d = some found) : d = found.1 := by
    obtain ⟨m, -, rfl⟩ := Option.map_eq_some_iff.1 own
    rfl
  -- the search from the ancestor ends among its superclasses
  have upper : (x :: (e.classAt x).superclasses).findSome? (e.ownHostMethod? key) =
      some found := by
    cases search : (x :: (e.classAt x).superclasses).findSome? (e.ownHostMethod? key) with
    | some found' =>
      exact (housed.hostMethod?_of_superclass ⟨name, known⟩ plain plain' search).symm.trans linked
    | none =>
      have absent := List.findSome?_eq_none_iff.1 search found.1 above
      obtain ⟨d, -, here⟩ := List.exists_of_findSome?_eq_some linked
      have here : e.ownHostMethod? key d = some found := here
      rw [told d here] at here
      cases here.symm.trans absent
  have lower : e.hostMethod? p key =
      (e.classAt c).superclasses.findSome? (e.ownHostMethod? key) := by
    obtain ⟨found', search⟩ : ∃ found', (e.classAt c).superclasses.findSome?
        (e.ownHostMethod? key) = some found' := by
      rw [split, List.findSome?_append, upper]
      cases before.findSome? (e.ownHostMethod? key) <;> exact ⟨_, rfl⟩
    rw [search]
    rw [whole] at search
    exact housed.hostMethod?_of_superclass home_p plain plain' search
  rw [split] at homes distinct lower ⊢
  rw [lower, housed.findSome?_chain_iff (fun d mem => (homes d mem).2) distinct known upper
    fun d d' own own' => by rw [told d own, told d' own']]
  simp only [ownHostMethod?, Option.map_eq_none_iff]

/-- What a class extends, other than itself, is among its superclasses. -/
theorem Housed.mem_superclasses_of_descendsFrom (housed : e.Housed) (home : e.Homes s c)
    {name : String} {x : ClassRef} (extends_ : e.descendsFrom c name = true)
    (known : e.class? s name = some x) (other : e.nameOf c ≠ name) :
    x ∈ (e.classAt c).superclasses := by
  unfold descendsFrom ancestor? at extends_
  obtain ⟨d, found⟩ := Option.isSome_iff_exists.1 extends_
  have named : (e.classAt d).name = name := by simpa using List.find?_some found
  have named : e.nameOf d = name := named
  rcases List.mem_cons.1 (List.mem_of_find?_eq_some found) with rfl | mem
  · exact absurd named other
  · have home_d := ((housed.superclasses_descend home).1 d mem).2
    have same : d = x := housed.eq_of_nameOf_eq home_d ⟨_, known⟩
      (named.trans (housed.name_eq known).symm)
    exact same ▸ mem

/-- A class extends its parent. -/
theorem Housed.descendsFrom_parent (housed : e.Housed) (home : e.Homes s c) {p : ClassRef}
    (parent : (e.classAt c).parent = some p) : e.descendsFrom c (e.nameOf p) = true := by
  have above := (housed.superclasses_eq home).1
  rw [parent] at above
  unfold descendsFrom ancestor?
  rw [above]
  by_cases first : (e.classAt c).name = e.nameOf p <;> simp [first, nameOf]

end Superclasses

section LiveChains

/-! The supertypes that live versions give a class. -/

/-- A live parent of a class of a scope belongs to the scope. -/
theorem Housed.liveParent_homes (housed : e.Housed) (home : e.Homes s c)
    (parent : e.liveParent s c = .ok (some d)) : e.Homes s d := by
  unfold liveParent at parent
  split at parent
  · exact ((housed.superclasses_eq home).2 d (Except.ok.inj parent)).2
  · split at parent
    · cases parent
    · split at parent
      next known =>
        cases parent
        exact ⟨_, known⟩
      · cases parent

/-- The chain of a class goes on with that of its live parent, or it ends with the class. -/
theorem liveChainWithin_cases (e : Engine) (s : ScopeRef) (c : ClassRef) :
    (∃ p, e.liveParent s c = .ok (some p) ∧ ∀ n, e.liveChainWithin s (n + 1) c =
      ⟨c :: (e.liveChainWithin s n p).classes, (e.liveChainWithin s n p).finish⟩) ∨
    (∀ p, e.liveParent s c ≠ .ok (some p)) ∧
      ∃ finish, ∀ n, e.liveChainWithin s (n + 1) c = ⟨[c], finish⟩ := by
  cases parent : e.liveParent s c with
  | error name =>
    refine .inr ⟨fun p => by simp, .missing name, fun n => ?_⟩
    rw [liveChainWithin, parent]
  | ok found =>
    cases found with
    | none =>
      refine .inr ⟨fun p => by simp, .top, fun n => ?_⟩
      rw [liveChainWithin, parent]
    | some p =>
      refine .inl ⟨p, rfl, fun n => ?_⟩
      rw [liveChainWithin, parent]

/-- A chain of classes of a scope stays in the scope. -/
theorem Housed.liveChainWithin_homes (housed : e.Housed) (n : Nat) (home : e.Homes s c) :
    ∀ d ∈ (e.liveChainWithin s n c).classes, e.Homes s d := by
  induction n generalizing c with
  | zero => exact fun d mem => (nomatch mem)
  | succ n ih =>
    intro d mem
    rcases liveChainWithin_cases e s c with ⟨p, parent, goesOn⟩ | ⟨-, finish, stops⟩
    · rw [goesOn n] at mem
      rcases List.mem_cons.1 mem with rfl | mem
      · exact home
      · exact ih (housed.liveParent_homes home parent) d mem
    · rw [stops n] at mem
      exact List.mem_singleton.1 mem ▸ home

/-- As long as the live parents are those that the classes were defined with, the chain of a
class consists of the class and its superclasses. -/
theorem liveChain_of_superclasses (inside : ClassRef → Prop)
    (above : ∀ d, inside d → (e.classAt d).superclasses = (match (e.classAt d).parent with
      | some p => p :: (e.classAt p).superclasses
      | none => []) ∧ ∀ p, (e.classAt d).parent = some p → p < d ∧ inside p)
    (here : inside c) (lt : c < e.classes.size)
    (parents : ∀ d ∈ c :: (e.classAt c).superclasses,
      e.liveParent s d = .ok (e.classAt d).parent) :
    e.liveChain s c = ⟨c :: (e.classAt c).superclasses, .top⟩ := by
  suffices within : ∀ n, c < n →
      e.liveChainWithin s n c = ⟨c :: (e.classAt c).superclasses, .top⟩ from
    within _ (Nat.lt_succ_of_lt lt)
  clear lt
  intro n long
  induction n generalizing c with
  | zero => cases long
  | succ n ih =>
    obtain ⟨superclasses, before⟩ := above c here
    rw [liveChainWithin, parents c List.mem_cons_self]
    cases parent : (e.classAt c).parent with
    | none =>
      rw [superclasses, parent]
    | some p =>
      obtain ⟨lt, inside_p⟩ := before p parent
      rw [superclasses, parent] at parents ⊢
      dsimp only
      rw [ih inside_p (fun d mem => parents d (List.mem_cons_of_mem _ mem))
        (Nat.lt_of_lt_of_le lt (Nat.le_of_lt_succ long))]

theorem Housed.liveChain_of_parents (housed : e.Housed) (home : e.Homes s c)
    (parents : ∀ d ∈ c :: (e.classAt c).superclasses,
      e.liveParent s d = .ok (e.classAt d).parent) :
    e.liveChain s c = ⟨c :: (e.classAt c).superclasses, .top⟩ := by
  obtain ⟨name, known⟩ := home
  obtain ⟨spec, described, -, -, -⟩ := housed.classes s name c known
  exact liveChain_of_superclasses (e.Homes s) (fun d home => housed.superclasses_eq home) ⟨name, known⟩
    described.lt parents

/-- A chain that ends is the same when it is followed for longer. -/
theorem liveChainWithin_of_le {n n' : Nat} (le : n ≤ n')
    (ends : (e.liveChainWithin s n c).finish ≠ .endless) :
    e.liveChainWithin s n' c = e.liveChainWithin s n c := by
  induction n generalizing n' c with
  | zero => exact absurd rfl ends
  | succ n ih =>
    obtain ⟨n', rfl⟩ : ∃ k, n' = k + 1 := ⟨n' - 1, by omega⟩
    rcases liveChainWithin_cases e s c with ⟨p, -, goesOn⟩ | ⟨-, finish, stops⟩
    · rw [goesOn n] at ends
      rw [goesOn n', goesOn n, ih (Nat.le_of_succ_le_succ le) ends]
    · rw [stops n', stops n]

/-- A class in a chain that ends is followed by its own chain. -/
theorem liveChainWithin_split {n : Nat} (ends : (e.liveChainWithin s n c).finish ≠ .endless)
    (mem : d ∈ (e.liveChainWithin s n c).classes) :
    ∃ before, ∃ k ≤ n, (e.liveChainWithin s k d).finish ≠ .endless ∧
      (e.liveChainWithin s n c).classes = before ++ (e.liveChainWithin s k d).classes := by
  induction n generalizing c with
  | zero => cases mem
  | succ n ih =>
    by_cases first : d = c
    · subst first
      exact ⟨[], n + 1, Nat.le_refl _, ends, rfl⟩
    · rcases liveChainWithin_cases e s c with ⟨p, -, goesOn⟩ | ⟨-, finish, stops⟩
      · rw [goesOn n] at ends mem ⊢
        obtain ⟨before, k, le, ends', split⟩ := ih ends ((List.mem_cons.1 mem).resolve_left first)
        exact ⟨c :: before, k, Nat.le_succ_of_le le, ends', congrArg (c :: ·) split⟩
      · rw [stops n] at mem
        exact absurd (List.mem_singleton.1 mem) first

/-- A chain that ends holds no class twice. -/
theorem nodup_liveChainWithin {n : Nat} (ends : (e.liveChainWithin s n c).finish ≠ .endless) :
    (e.liveChainWithin s n c).classes.Nodup := by
  induction n generalizing c with
  | zero => exact .nil
  | succ n ih =>
    rcases liveChainWithin_cases e s c with ⟨p, -, goesOn⟩ | ⟨-, finish, stops⟩
    · have whole := goesOn n
      rw [whole] at ends ⊢
      refine List.nodup_cons.2 ⟨fun again => ?_, ih ends⟩
      -- a class that came again would be followed by its whole chain
      obtain ⟨before, k, le, ends', split⟩ := liveChainWithin_split ends again
      have longer := liveChainWithin_of_le (Nat.le_succ_of_le le) ends'
      rw [whole] at longer
      have lengths := congrArg (fun chain => chain.classes.length) longer
      have parts := congrArg List.length split
      simp only [List.length_cons, List.length_append] at lengths parts
      omega
    · rw [stops n]
      exact List.pairwise_singleton _ c

/-- The method that a class itself declares now names the class. -/
theorem declaring_of_ownLiveMethod? {live : LiveMethod}
    (own : e.ownLiveMethod? s key c = some live) : live.declaring = e.nameOf c := by
  unfold ownLiveMethod? at own
  dsimp only at own
  split at own
  all_goals
    obtain ⟨m, -, rfl⟩ := Option.map_eq_some_iff.1 own
    rfl

/-- The chain of a class begins with the class. -/
theorem liveChain_eq_cons (e : Engine) (s : ScopeRef) (c : ClassRef) :
    ∃ above, (e.liveChain s c).classes = c :: above := by
  rcases liveChainWithin_cases e s c with ⟨p, -, goesOn⟩ | ⟨-, finish, stops⟩
  · exact ⟨_, congrArg LiveChain.classes (goesOn e.classes.size)⟩
  · exact ⟨_, congrArg LiveChain.classes (stops e.classes.size)⟩

/-- A class that has live ancestors has a live parent. -/
theorem exists_liveParent {x : ClassRef} (mem : x ∈ (e.liveChain s c).classes.tail) :
    ∃ p, e.liveParent s c = .ok (some p) := by
  rcases liveChainWithin_cases e s c with ⟨p, parent, -⟩ | ⟨-, finish, stops⟩
  · exact ⟨p, parent⟩
  · have chain : e.liveChain s c = _ := stops e.classes.size
    rw [chain] at mem
    cases mem

/-- The live parent of the class of a managed type is the supertype of the live version. -/
theorem superName_of_liveParent {t : TypeRef} {p : ClassRef} (managed : e.managedOf? s c = some t)
    (parent : e.liveParent s c = .ok (some p)) :
    ∃ superName, (e.typeAt t).live.shape.superName = some superName ∧
      e.class? s superName = some p := by
  unfold liveParent at parent
  rw [managed] at parent
  dsimp only at parent
  split at parent
  · cases parent
  next superName super =>
    split at parent
    next known =>
      cases parent
      exact ⟨superName, super, known⟩
    · cases parent

/-- A chain that ends goes on behind its class with the chain of the live parent. -/
theorem liveChain_tail {p : ClassRef} (parent : e.liveParent s c = .ok (some p))
    (ends : (e.liveChain s c).finish ≠ .endless) :
    (e.liveChain s c).classes.tail = (e.liveChain s p).classes ∧
      (e.liveChain s p).finish ≠ .endless := by
  rcases liveChainWithin_cases e s c with ⟨p', parent', goesOn⟩ | ⟨last, -⟩
  · cases parent.symm.trans parent'
    have chain : e.liveChain s c = _ := goesOn e.classes.size
    rw [chain] at ends ⊢
    have longer : e.liveChain s p = _ := liveChainWithin_of_le (Nat.le_succ _) ends
    rw [longer]
    exact ⟨rfl, ends⟩
  · exact absurd parent (last p)

/-- The live parent of a class has the method that a farther live ancestor has exactly when no
nearer one declares it. -/
theorem Housed.resolveMethod_parent_iff (housed : e.Housed) (home : e.Homes s c) {p x : ClassRef}
    (parent : e.liveParent s c = .ok (some p)) (ends : (e.liveChain s c).finish ≠ .endless)
    (mem : x ∈ (e.liveChain s c).classes.tail) {name : String} (known : e.class? s name = some x)
    (plain : key.isConstructor = false) (plain' : key.isStaticInit = false) {live : LiveMethod}
    (declared : (e.liveChain s x).findSome? (e.ownLiveMethod? s key) = .ok (some live)) :
    e.resolveMethod s p key = .ok (some live) ↔
      ∀ d ∈ e.nearerThan name (e.liveChain s c).classes.tail, e.ownLiveMethod? s key d = none := by
  obtain ⟨whole, ends_p⟩ := liveChain_tail parent ends
  rw [whole] at mem ⊢
  have homes := housed.liveChainWithin_homes (e.classes.size + 1)
    (housed.liveParent_homes home parent)
  have distinct : (e.liveChain s p).classes.Nodup := nodup_liveChainWithin ends_p
  obtain ⟨before, k, le, ends_x, split⟩ := liveChainWithin_split ends_p mem
  have chain_x : e.liveChain s x = e.liveChainWithin s k x := liveChainWithin_of_le le ends_x
  obtain ⟨above, starts⟩ := liveChain_eq_cons e s x
  have split : (e.liveChain s p).classes = before ++ x :: above := by
    rw [← starts, chain_x]
    exact split
  have upper : (x :: above).findSome? (e.ownLiveMethod? s key) = some live :=
    starts ▸ LiveChain.findSome?_eq_ok declared
  have lower : e.resolveMethod s p key = .ok (some live) ↔
      (before ++ x :: above).findSome? (e.ownLiveMethod? s key) = some live := by
    obtain ⟨live', found⟩ : ∃ live', (e.liveChain s p).classes.findSome?
        (e.ownLiveMethod? s key) = some live' := by
      rw [split, List.findSome?_append, upper]
      cases before.findSome? (e.ownLiveMethod? s key) <;> exact ⟨_, rfl⟩
    have resolves : e.resolveMethod s p key = .ok (some live') := by
      unfold resolveMethod LiveChain.findSome?
      rw [plain, plain', found]
      rfl
    rw [resolves, ← split, found]
    simp only [Except.ok.injEq]
  change ∀ d ∈ (e.liveChain s p).classes, e.Homes s d at homes
  rw [split] at homes distinct ⊢
  rw [lower, housed.findSome?_chain_iff homes distinct known upper fun d d' own own' =>
    (declaring_of_ownLiveMethod? own).symm.trans (declaring_of_ownLiveMethod? own')]

end LiveChains

end Engine

end LiveUpdate
