/-!
# Tables in order of insertion

Small tables from keys to values: lists of entries in which every key occurs once, in
the order in which the keys were first put in.
-/

set_option autoImplicit false

namespace LiveUpdate

/-- A table from keys to values. -/
abbrev Table (α β : Type) := List (α × β)

namespace Table

variable {α β : Type} [DecidableEq α]

/-- The value under a key. -/
def get? : Table α β → α → Option β
  | [], _ => none
  | (k, v) :: rest, key => if k = key then some v else get? rest key

/-- Whether a key has a value. -/
def has (t : Table α β) (key : α) : Bool := (t.get? key).isSome

/-- The table with a value under a key, in the place of the key's old value if it had
one. -/
def put : Table α β → α → β → Table α β
  | [], key, value => [(key, value)]
  | (k, v) :: rest, key, value =>
    if k = key then (k, value) :: rest else (k, v) :: put rest key value

/-- The table with a value under a key that has none. -/
def putNew (t : Table α β) (key : α) (value : β) : Table α β :=
  if t.has key then t else t.put key value

/-- The table without a key. -/
def erase (t : Table α β) (key : α) : Table α β := t.filter fun e => e.1 ≠ key

/-- Put entries into a table one after another. -/
def putAll (t : Table α β) (entries : List (α × β)) : Table α β :=
  entries.foldl (fun t e => t.put e.1 e.2) t

@[simp] theorem get?_nil (key : α) : Table.get? ([] : Table α β) key = none := rfl

/-- The written key has the written value, and every other key has the value it had. -/
theorem get?_put (t : Table α β) (key k : α) (value : β) :
    (t.put key value).get? k = if key = k then some value else t.get? k := by
  induction t with
  | nil => rfl
  | cons entry rest ih =>
    obtain ⟨k', v'⟩ := entry
    by_cases same : k' = key
    · subst same
      by_cases asked : k' = k <;> simp [put, get?, asked]
    · simp only [put, if_neg same, get?]
      by_cases asked : k' = k
      · have other : key ≠ k := fun h => same (asked.trans h.symm)
        simp [asked, other]
      · simp [asked, ih]

@[simp] theorem get?_put_self (t : Table α β) (key : α) (value : β) :
    (t.put key value).get? key = some value := by
  simp [get?_put]

theorem get?_put_of_ne (t : Table α β) {key k : α} (value : β) (other : key ≠ k) :
    (t.put key value).get? k = t.get? k := by
  simp [get?_put, other]

end Table

end LiveUpdate
