/-!
# Search orders

A search order is a list of places that are tried one after another until one of them has
an answer.  A place that could be reached in several ways stands in its order once, where
it is reached first: the later times would only find again that it has no answer.  So an
order is never longer than the number of places there are, however often its parts share
them, and `findSome?_joined` says that every search ends as it would have over all parts
written out.
-/

set_option autoImplicit false

namespace LiveUpdate.SearchOrder

variable {α β : Type} [BEq α]

/-- An order, and after it the places of another order that it lacks. -/
def append (first second : List α) : List α := first ++ second.filter fun x => !first.contains x

/-- Orders searched one after another, as one order. -/
def joined (orders : List (List α)) : List α := orders.foldl append []

variable [LawfulBEq α]

/-- A search that has found nothing may leave out what it has tried. -/
theorem findSome?_filter_of_eq_none (f : α → Option β) {first : List α}
    (missed : first.findSome? f = none) (second : List α) :
    (second.filter fun x => !first.contains x).findSome? f = second.findSome? f := by
  induction second with
  | nil => rfl
  | cons x rest ih =>
    by_cases tried : x ∈ first
    · rw [List.filter_cons_of_neg (by simpa using tried), ih,
        List.findSome?_cons_of_isNone (by simp [List.findSome?_eq_none_iff.1 missed x tried])]
    · rw [List.filter_cons_of_pos (by simpa using tried), List.findSome?_cons,
        List.findSome?_cons, ih]

/-- A search over two orders ends as it does over both written out. -/
theorem findSome?_append (f : α → Option β) (first second : List α) :
    (append first second).findSome? f = (first ++ second).findSome? f := by
  rw [append, List.findSome?_append, List.findSome?_append]
  cases found : first.findSome? f with
  | some b => rfl
  | none => rw [findSome?_filter_of_eq_none f found]

/-- A search over joined orders ends as it does over all of them written out. -/
theorem findSome?_joined (f : α → Option β) (orders : List (List α)) :
    (joined orders).findSome? f = orders.flatten.findSome? f := by
  suffices ∀ first, (orders.foldl append first).findSome? f =
      (first ++ orders.flatten).findSome? f from this []
  induction orders with
  | nil => simp
  | cons order rest ih =>
    intro first
    rw [List.foldl_cons, ih, List.flatten_cons, List.findSome?_append, findSome?_append,
      ← List.findSome?_append, List.append_assoc]

/-- What joined orders hold is what one of them holds. -/
theorem mem_joined {x : α} {orders : List (List α)} : x ∈ joined orders ↔ x ∈ orders.flatten := by
  suffices ∀ first, x ∈ orders.foldl append first ↔ x ∈ first ++ orders.flatten from this []
  induction orders with
  | nil => simp
  | cons order rest ih =>
    intro first
    rw [List.foldl_cons, ih]
    by_cases held : x ∈ first <;> simp [append, held]

/-- Two orders that hold no place twice are one that holds none twice. -/
theorem nodup_append {first second : List α} (distinct : first.Nodup) (distinct' : second.Nodup) :
    (append first second).Nodup := by
  refine List.nodup_append.2 ⟨distinct, distinct'.filter _, ?_⟩
  intro x here y there same
  have absent : y ∉ first := by simpa using (List.mem_filter.1 there).2
  exact absent (same ▸ here)

end LiveUpdate.SearchOrder
