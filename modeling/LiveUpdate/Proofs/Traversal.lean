import LiveUpdate.Class.Basic
import Mathlib.Data.List.Basic
import Mathlib.Data.List.Perm.Subperm

/-!
# Searches that meet every place once

What stands above a place comes before it, so a search through everything above a place ends.
It can go through all of it, however often a place comes again, or it can remember what it has
met and pass that over.  Both end with the same answer: what was met has none, or has the one
that the places pending in front of it have.  Searches for the same thing in different orders end
with the same answer exactly when they come to the same place first.
-/

set_option autoImplicit false

namespace LiveUpdate

section Relating

/-! Two searches side by side, with answers that are related. -/

/-- Where one of two related answers is missing the other one is. -/
theorem eq_none_iff_of_rel {α β : Type} {r : α → β → Prop} {a : Option α} {b : Option β}
    (related : Option.Rel r a b) : a = none ↔ b = none := by
  cases related with
  | none => exact iff_of_true rfl rfl
  | some _ => exact iff_of_false nofun nofun

/-- Two searches through the same places agree if they do in every place. -/
theorem findSome?_rel {α β γ : Type} {r : β → γ → Prop} {f : α → Option β} {g : α → Option γ}
    {places : List α} (agree : ∀ a ∈ places, Option.Rel r (f a) (g a)) :
    Option.Rel r (places.findSome? f) (places.findSome? g) := by
  induction places with
  | nil => exact .none
  | cons a rest ih =>
    have first := agree a List.mem_cons_self
    rw [List.findSome?_cons, List.findSome?_cons]
    cases here : f a with
    | none =>
      cases there : g a with
      | none => exact ih fun b mem => agree b (List.mem_cons_of_mem _ mem)
      | some c =>
        rw [here, there] at first
        cases first
    | some b =>
      cases there : g a with
      | none =>
        rw [here, there] at first
        cases first
      | some c =>
        rw [here, there] at first
        exact first

/-- The first answer is that of the first place where another search has one, if the two agree in
every place. -/
theorem findSome?_of_find? {α β γ : Type} {r : β → γ → Prop} {f : α → Option β}
    {g : α → Option γ} {places : List α} (agree : ∀ a ∈ places, Option.Rel r (f a) (g a)) :
    match places.find? fun a => (g a).isSome with
    | none => places.findSome? f = none
    | some a => a ∈ places ∧ ∃ b c, f a = some b ∧ g a = some c ∧ r b c ∧
        places.findSome? f = some b := by
  induction places with
  | nil => rfl
  | cons a rest ih =>
    have ih := ih fun b mem => agree b (List.mem_cons_of_mem _ mem)
    have first := agree a List.mem_cons_self
    rw [List.find?_cons, List.findSome?_cons]
    cases there : g a with
    | none =>
      rw [there] at first
      rw [(eq_none_iff_of_rel first).2 rfl]
      dsimp only [Option.isSome_none]
      cases found : rest.find? fun a => (g a).isSome with
      | none =>
        rw [found] at ih
        exact ih
      | some a' =>
        rw [found] at ih
        exact ⟨List.mem_cons_of_mem _ ih.1, ih.2⟩
    | some c =>
      rw [there] at first
      cases here : f a with
      | none =>
        rw [here] at first
        cases first
      | some b =>
        rw [here] at first
        cases first with
        | some related => exact ⟨List.mem_cons_self, b, c, here, there, related, rfl⟩

/-- Two searches that agree in every place, but go through the places in different orders, agree
exactly when both come to the same place first, if answers of different places do not agree. -/
theorem findSome?_rel_iff {α β γ : Type} {r : β → γ → Prop} {f : α → Option β}
    {g : α → Option γ} {places places' : List α}
    (agree : ∀ a ∈ places, Option.Rel r (f a) (g a))
    (apart : ∀ a ∈ places, ∀ a' ∈ places', ∀ b c, f a = some b → g a' = some c → r b c → a = a') :
    Option.Rel r (places.findSome? f) (places'.findSome? g) ↔
      places.find? (fun a => (g a).isSome) = places'.find? fun a => (g a).isSome := by
  have reflexive (a : α) : Option.Rel Eq (g a) (g a) := by
    cases g a with
    | none => exact .none
    | some c => exact .some rfl
  have first := findSome?_of_find? agree
  have first' := findSome?_of_find? fun a (_ : a ∈ places') => reflexive a
  cases found : places.find? fun a => (g a).isSome with
  | none =>
    rw [found] at first
    cases found' : places'.find? fun a => (g a).isSome with
    | none =>
      rw [found'] at first'
      rw [first, first']
      exact iff_of_true .none rfl
    | some a' =>
      rw [found'] at first'
      obtain ⟨-, b', -, -, -, -, answer'⟩ := first'
      rw [first, answer']
      exact iff_of_false (fun related => nomatch related) fun same => nomatch same
  | some a =>
    rw [found] at first
    obtain ⟨mem, b, c, here, there, related, answer⟩ := first
    cases found' : places'.find? fun a => (g a).isSome with
    | none =>
      rw [found'] at first'
      rw [answer, first']
      exact iff_of_false (fun related => nomatch related) fun same => nomatch same
    | some a' =>
      rw [found'] at first'
      obtain ⟨mem', b', -, here', -, -, answer'⟩ := first'
      rw [answer, answer']
      refine ⟨fun agreed => ?_, fun same => ?_⟩
      · cases agreed with
        | some agreed => rw [apart a mem a' mem' b b' here here' agreed]
      · obtain rfl := Option.some.inj same
        obtain rfl : c = b' := Option.some.inj (there.symm.trans here')
        exact .some related

end Relating

section Walk

variable {α : Type} {above : ClassRef → List ClassRef} {known : ClassRef → Prop} {c d : ClassRef}

/-- A place and, one after another, the walks of the places above it, going up a number of
times. -/
def walkWithin (above : ClassRef → List ClassRef) : Nat → ClassRef → List ClassRef
  | 0, _ => []
  | n + 1, c => c :: (above c).flatMap (walkWithin above n)

/-- A place and, one after another, the walks of the places above it. -/
def walk (above : ClassRef → List ClassRef) (c : ClassRef) : List ClassRef :=
  walkWithin above (c + 1) c

/-- What stands above a known place comes before it, and is known. -/
def Descends (above : ClassRef → List ClassRef) (known : ClassRef → Prop) : Prop :=
  ∀ c, known c → ∀ d ∈ above c, d < c ∧ known d

variable (descends : Descends above known) (here : known c)
include descends here

theorem walkWithin_eq {n : Nat} (lt : c < n) : walkWithin above n c = walk above c := by
  induction c using Nat.strongRecOn generalizing n with
  | ind c ih =>
    obtain ⟨n, rfl⟩ := Nat.exists_eq_succ_of_ne_zero (Nat.ne_of_gt (Nat.zero_lt_of_lt lt))
    have parts {m : Nat} (le : c ≤ m) :
        (above c).flatMap (walkWithin above m) = (above c).flatMap (walk above) := by
      refine List.flatMap_congr fun d mem => ?_
      obtain ⟨before, known_d⟩ := descends c here d mem
      exact ih d before known_d (Nat.lt_of_lt_of_le before le)
    show c :: (above c).flatMap (walkWithin above n) = c :: (above c).flatMap (walkWithin above c)
    rw [parts (Nat.le_of_lt_succ lt), parts (Nat.le_refl c)]

theorem walk_eq : walk above c = c :: (above c).flatMap (walk above) := by
  show c :: (above c).flatMap (walkWithin above c) = _
  refine congrArg (c :: ·) (List.flatMap_congr fun d mem => ?_)
  obtain ⟨before, known_d⟩ := descends c here d mem
  exact walkWithin_eq descends known_d before

/-- A search through a walk looks into the place and then through the walks above it. -/
theorem findSome?_walk (f : ClassRef → Option α) : (walk above c).findSome? f =
    (f c).or ((above c).findSome? fun d => (walk above d).findSome? f) := by
  rw [walk_eq descends here, List.findSome?_cons]
  have parts (places : List ClassRef) : (places.flatMap (walk above)).findSome? f =
      places.findSome? fun d => (walk above d).findSome? f := by
    induction places with
    | nil => rfl
    | cons d rest ih =>
      rw [List.flatMap_cons, List.findSome?_append, ih, List.findSome?_cons]
      cases (walk above d).findSome? f <;> rfl
  rw [parts]
  cases f c <;> rfl

theorem mem_walk : d ∈ walk above c ↔ d = c ∨ ∃ p ∈ above c, d ∈ walk above p := by
  rw [walk_eq descends here, List.mem_cons, List.mem_flatMap]

end Walk

/-- A search may leave out places without an answer. -/
theorem findSome?_filter_of_none {α β : Type} {g : α → Option β} {keep : α → Bool}
    {places : List α} (none_ : ∀ a ∈ places, keep a = false → g a = none) :
    (places.filter keep).findSome? g = places.findSome? g := by
  induction places with
  | nil => rfl
  | cons a rest ih =>
    have rest_eq := ih fun b mem => none_ b (List.mem_cons_of_mem _ mem)
    cases kept : keep a with
    | true => rw [List.filter_cons_of_pos kept, List.findSome?_cons, List.findSome?_cons, rest_eq]
    | false =>
      rw [List.filter_cons_of_neg (Bool.eq_false_iff.1 kept), rest_eq, List.findSome?_cons,
        none_ a List.mem_cons_self kept]

section Meeting

variable {α : Type} {above : ClassRef → List ClassRef} {known : ClassRef → Prop}
  {g : ClassRef → Option α} {top c : ClassRef} {met pending places before : List ClassRef}

/-- The places that come next: those above a place and those that were pending, as far as they
have not been met. -/
def nextOf (met places pending : List ClassRef) : List ClassRef :=
  (places ++ pending).filter fun d => !met.contains d

/-- A search has met places once, and none of them is pending. -/
structure Meets (known : ClassRef → Prop) (met pending : List ClassRef) : Prop where
  distinct : met.Nodup
  known : ∀ y ∈ met ++ pending, known y
  apart : ∀ y ∈ met, y ∉ pending

/-- A place that was met has no answer, or places that come before it are pending in front and
have one. -/
def Covers (g : ClassRef → Option α) (met pending : List ClassRef) : Prop :=
  ∀ y ∈ met, ∃ before after, pending = before ++ after ∧ (∀ z ∈ before, z < y) ∧
    (before.findSome? g = none → g y = none)

/-- At first nothing was met. -/
theorem meets_nil (here : known c) : Meets known [] [c] :=
  ⟨.nil, fun _ mem => List.mem_singleton.1 mem ▸ here, fun _ mem => (nomatch mem)⟩

theorem covers_nil (g : ClassRef → Option α) (pending : List ClassRef) : Covers g [] pending :=
  fun _ mem => (nomatch mem)

theorem mem_nextOf {d : ClassRef} :
    d ∈ nextOf met places pending ↔ (d ∈ places ∨ d ∈ pending) ∧ d ∉ met := by
  unfold nextOf
  rw [List.mem_filter, List.mem_append]
  simp

/-- What is left out was met. -/
theorem mem_of_contains {d : ClassRef} (gone : (!met.contains d) = false) : d ∈ met := by
  simpa using gone

theorem nextOf_eq (met places pending : List ClassRef) :
    nextOf met places pending = nextOf met places [] ++ nextOf met [] pending := by
  unfold nextOf
  rw [List.filter_append, List.append_nil, List.nil_append]

section Meets

variable (meets : Meets known met (c :: pending))
include meets

theorem Meets.here : known c := meets.known c (List.mem_append_right _ List.mem_cons_self)

theorem Meets.met_known : ∀ y ∈ c :: met, known y :=
  List.forall_mem_cons.2 ⟨meets.here, fun y mem => meets.known y (List.mem_append_left _ mem)⟩

theorem Meets.pending_known : ∀ y ∈ pending, known y := fun y mem =>
  meets.known y (List.mem_append_right _ (List.mem_cons_of_mem _ mem))

/-- The next place is not met for the second time. -/
theorem Meets.nodup : (c :: met).Nodup :=
  List.nodup_cons.2 ⟨fun mem => meets.apart c mem List.mem_cons_self, meets.distinct⟩

/-- The next place is met, and not again. -/
theorem Meets.next (descends : Descends above known) :
    Meets known (c :: met) (nextOf (c :: met) (above c) pending) where
  distinct := meets.nodup
  known y mem := by
    rcases List.mem_append.1 mem with mem | mem
    · exact meets.met_known y mem
    · rcases (mem_nextOf.1 mem).1 with above_c | later
      · exact (descends c meets.here y above_c).2
      · exact meets.pending_known y later
  apart _ mem pends := (mem_nextOf.1 pends).2 mem

/-- As long as a place is pending not all of them were met. -/
theorem Meets.length_le (bounded : ∀ y, known y → y ≤ top) : met.length ≤ top := by
  have within : c :: met ⊆ List.range (top + 1) := fun y mem =>
    List.mem_range.2 (Nat.lt_succ_of_le (bounded y (meets.met_known y mem)))
  have length := (List.subperm_of_subset meets.nodup within).length_le
  rw [List.length_range, List.length_cons] at length
  exact Nat.le_of_succ_le_succ length

/-- If the place has no answer it may be left out wherever it is pending again. -/
theorem Meets.findSome?_pending (none_ : g c = none) (within : before ⊆ pending) :
    (nextOf (c :: met) [] before).findSome? g = before.findSome? g := by
  refine findSome?_filter_of_none fun d mem gone => ?_
  rcases List.mem_cons.1 (mem_of_contains gone) with rfl | met_d
  · exact none_
  · exact absurd (List.mem_cons_of_mem c (within mem)) (meets.apart d met_d)

end Meets

section Above

variable (covers : Covers g met (c :: pending)) (lower : ∀ d ∈ places, d < c)
include covers lower

/-- A place that was met and stands above the one that is looked into has no answer: nothing that
comes before it is pending in front. -/
theorem Covers.above_eq_none : ∀ d ∈ places, d ∈ met → g d = none := by
  intro d above_c mem
  obtain ⟨before, after, split, earlier, none_⟩ := covers d mem
  cases before with
  | nil => exact none_ rfl
  | cons b rest =>
    obtain ⟨rfl, -⟩ := List.cons.inj split
    exact absurd (earlier c List.mem_cons_self) (Nat.lt_asymm (lower d above_c))

/-- So the places above may be left out that were met. -/
theorem Covers.findSome?_places :
    (nextOf (c :: met) places []).findSome? g = places.findSome? g := by
  unfold nextOf
  rw [List.append_nil]
  refine findSome?_filter_of_none fun d mem gone => ?_
  rcases List.mem_cons.1 (mem_of_contains gone) with rfl | met_d
  · exact absurd (lower d mem) (Nat.lt_irrefl d)
  · exact covers.above_eq_none lower d mem met_d

end Above

section Next

variable (covers : Covers g met (c :: pending)) (meets : Meets known met (c :: pending))
  (descends : Descends above known) (answer : g c = (above c).findSome? g)
include meets covers descends answer

/-- What comes next has the answer that was pending. -/
theorem Covers.findSome?_next :
    (nextOf (c :: met) (above c) pending).findSome? g = (c :: pending).findSome? g := by
  have lower : ∀ d ∈ above c, d < c := fun d mem => (descends c meets.here d mem).1
  rw [nextOf_eq, List.findSome?_append, covers.findSome?_places lower, ← answer,
    List.findSome?_cons]
  cases found : g c with
  | some b => rfl
  | none => exact meets.findSome?_pending found (List.Subset.refl _)

/-- A place that has the answer of what is above it is covered once that is pending, and what was
covered stays so. -/
theorem Covers.next : Covers g (c :: met) (nextOf (c :: met) (above c) pending) := by
  have lower : ∀ d ∈ above c, d < c := fun d mem => (descends c meets.here d mem).1
  intro y mem
  rw [nextOf_eq]
  rcases List.mem_cons.1 mem with rfl | mem
  · refine ⟨_, _, rfl, fun z kept => ?_, fun none_ => ?_⟩
    · have kept := (mem_nextOf.1 kept).1
      exact lower z (by simpa using kept)
    · rw [answer, ← covers.findSome?_places lower]
      exact none_
  · obtain ⟨before, after, split, earlier, none_⟩ := covers y mem
    cases before with
    | nil => exact ⟨[], _, rfl, fun z mem => (nomatch mem), fun _ => none_ rfl⟩
    | cons b rest =>
      obtain ⟨rfl, rest_eq⟩ := List.cons.inj split
      obtain rfl : pending = rest ++ after := rest_eq
      refine ⟨nextOf (c :: met) (above c) [] ++ nextOf (c :: met) [] rest,
        nextOf (c :: met) [] after, ?_, fun z kept => ?_, fun missed => none_ ?_⟩
      · have parts : nextOf (c :: met) [] (rest ++ after) =
            nextOf (c :: met) [] rest ++ nextOf (c :: met) [] after :=
          List.filter_append rest after
        rw [parts, List.append_assoc]
      · rcases List.mem_append.1 kept with kept | kept
        · have kept := (mem_nextOf.1 kept).1
          exact Nat.lt_trans (lower z (by simpa using kept)) (earlier c List.mem_cons_self)
        · have kept := (mem_nextOf.1 kept).1
          exact earlier z (List.mem_cons_of_mem _ (by simpa using kept))
      · rw [List.findSome?_append, covers.findSome?_places lower, ← answer] at missed
        obtain ⟨none_c, missed⟩ := Option.or_eq_none_iff.1 missed
        rw [meets.findSome?_pending none_c (List.subset_append_left ..)] at missed
        rw [List.findSome?_cons, none_c]
        exact missed

end Next

end Meeting

end LiveUpdate
