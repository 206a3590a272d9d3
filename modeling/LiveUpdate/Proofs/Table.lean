import LiveUpdate.Table
import Mathlib.Data.List.Nodup

/-!
# Laws of tables

What a table answers after it was written to.  The last law is the one that later parts
rest on: a table that is filled from a list of entries keeps, for every key, the value
that stands last in the list.
-/

set_option autoImplicit false

namespace LiveUpdate

section Labels

variable {α β : Type} [DecidableEq β] {label : α → β} {xs : List α}

/-- Among entries with different labels an entry is found by its label. -/
theorem find?_label_eq_some (distinct : (xs.map label).Nodup) {a : α} (mem : a ∈ xs) :
    xs.find? (fun a' => label a' = label a) = some a := by
  cases found : xs.find? fun a' => label a' = label a with
  | none =>
    have missed := List.find?_eq_none.1 found a mem
    exact absurd (decide_eq_true rfl) missed
  | some a' =>
    have labelled : label a' = label a := by simpa using List.find?_some found
    rw [List.inj_on_of_nodup_map distinct (List.mem_of_find?_eq_some found) mem labelled]

/-- Among entries with different labels the last one with a label is the first one. -/
theorem find?_label_reverse (distinct : (xs.map label).Nodup) (b : β) :
    xs.reverse.find? (fun a => label a = b) = xs.find? fun a => label a = b := by
  have distinct' : (xs.reverse.map label).Nodup := by
    rw [List.map_reverse]
    exact List.nodup_reverse.2 distinct
  cases first : xs.find? fun a => label a = b with
  | none =>
    rw [List.find?_eq_none] at first ⊢
    exact fun a mem => first a (List.mem_reverse.1 mem)
  | some a =>
    have labelled : label a = b := by simpa using List.find?_some first
    subst labelled
    exact find?_label_eq_some distinct' (List.mem_reverse.2 (List.mem_of_find?_eq_some first))

end Labels

namespace Table

variable {α β : Type} [DecidableEq α]

/-- A removed key has no value, and every other key has the value it had. -/
theorem get?_erase (t : Table α β) (key k : α) :
    (t.erase key).get? k = if key = k then none else t.get? k := by
  induction t with
  | nil => simp [erase]
  | cons entry rest ih =>
    obtain ⟨k', v'⟩ := entry
    by_cases same : k' = key
    · have step : Table.erase ((k', v') :: rest) key = Table.erase rest key :=
        List.filter_cons_of_neg (by simp [same])
      rw [step, ih]
      by_cases asked : key = k <;> simp [get?, same, asked]
    · have step : Table.erase ((k', v') :: rest) key = (k', v') :: Table.erase rest key :=
        List.filter_cons_of_pos (by simp [same])
      rw [step]
      by_cases asked : k' = k
      · have other : key ≠ k := fun h => same (asked.trans h.symm)
        simp [get?, asked, other]
      · simp [get?, asked, ih]

/-- A new key that is removed again was never there. -/
theorem erase_put_of_get?_eq_none (t : Table α β) {key : α} (value : β)
    (absent : t.get? key = none) : (t.put key value).erase key = t := by
  induction t with
  | nil => simp [put, erase]
  | cons entry rest ih =>
    obtain ⟨k', v'⟩ := entry
    by_cases same : k' = key
    · simp [get?, same] at absent
    · have absent' : Table.get? rest key = none := by simpa [get?, same] using absent
      have step : Table.put ((k', v') :: rest) key value = (k', v') :: Table.put rest key value :=
        if_neg same
      have keep : Table.erase ((k', v') :: Table.put rest key value) key =
          (k', v') :: Table.erase (Table.put rest key value) key :=
        List.filter_cons_of_pos (by simp [same])
      rw [step, keep, ih absent']

/-- A key has a value exactly when it has an entry. -/
theorem get?_eq_find? (t : Table α β) (k : α) :
    t.get? k = (t.find? fun e => e.1 = k).map Prod.snd := by
  induction t with
  | nil => rfl
  | cons entry rest ih =>
    obtain ⟨k', v'⟩ := entry
    by_cases asked : k' = k <;> simp [get?, asked, ih]

/-- Of the entries put in under one key the last one stays. -/
theorem get?_putAll (t : Table α β) (entries : List (α × β)) (k : α) :
    (t.putAll entries).get? k =
      ((entries.reverse.find? fun e => e.1 = k).map Prod.snd).or (t.get? k) := by
  induction entries generalizing t with
  | nil => rfl
  | cons entry rest ih =>
    have step : t.putAll (entry :: rest) = (t.put entry.1 entry.2).putAll rest := rfl
    rw [step, ih, List.reverse_cons, List.find?_append, get?_put]
    cases rest.reverse.find? fun e => e.1 = k with
    | some e => rfl
    | none => by_cases asked : entry.1 = k <;> simp [asked]

/-- The same for a table that starts empty. -/
theorem get?_putAll_nil (entries : List (α × β)) (k : α) :
    (Table.putAll [] entries).get? k =
      (entries.reverse.find? fun e => e.1 = k).map Prod.snd := by
  simp [get?_putAll]

/-! ### Keys that occur once -/

/-- A new key goes to the end, and an old one stays in its place. -/
theorem map_fst_put (t : Table α β) (key : α) (value : β) :
    (t.put key value).map Prod.fst =
      if key ∈ t.map Prod.fst then t.map Prod.fst else t.map Prod.fst ++ [key] := by
  induction t with
  | nil => rfl
  | cons entry rest ih =>
    obtain ⟨k, v⟩ := entry
    by_cases same : k = key
    · subst same
      simp [put]
    · have other : key ≠ k := Ne.symm same
      rw [put, if_neg same, List.map_cons, ih]
      simp only [List.map_cons, List.mem_cons, other, false_or]
      split <;> rfl

theorem nodup_put {t : Table α β} (distinct : (t.map Prod.fst).Nodup) (key : α) (value : β) :
    ((t.put key value).map Prod.fst).Nodup := by
  rw [map_fst_put]
  split
  · exact distinct
  next new =>
    exact List.nodup_append.2 ⟨distinct, List.nodup_singleton key, fun k mem k' mem' same =>
      new (List.mem_singleton.1 mem' ▸ same ▸ mem)⟩

theorem nodup_putAll {t : Table α β} (distinct : (t.map Prod.fst).Nodup)
    (entries : List (α × β)) : ((t.putAll entries).map Prod.fst).Nodup := by
  induction entries generalizing t with
  | nil => exact distinct
  | cons entry rest ih => exact ih (nodup_put distinct entry.1 entry.2)

/-- What is under a key is an entry. -/
theorem mem_of_get?_eq_some {t : Table α β} {key : α} {value : β} (found : t.get? key = some value) :
    (key, value) ∈ t := by
  rw [get?_eq_find?] at found
  obtain ⟨entry, here, rfl⟩ := Option.map_eq_some_iff.1 found
  have same : entry.1 = key := by simpa using List.find?_some here
  exact same ▸ List.mem_of_find?_eq_some here

/-- In a table in which every key occurs once an entry is what is under its key. -/
theorem get?_eq_some_iff {t : Table α β} (distinct : (t.map Prod.fst).Nodup) {key : α}
    {value : β} : t.get? key = some value ↔ (key, value) ∈ t := by
  refine ⟨mem_of_get?_eq_some, fun mem => ?_⟩
  have found := find?_label_eq_some distinct mem
  rw [get?_eq_find?, found]
  rfl

/-- A part of a table has those values of the table that belong to it. -/
theorem get?_filter {t : Table α β} (distinct : (t.map Prod.fst).Nodup) (p : β → Bool)
    (key : α) : Table.get? (t.filter fun e => p e.2) key = (t.get? key).filter p := by
  have distinct' : ((t.filter fun e => p e.2).map Prod.fst).Nodup :=
    distinct.sublist (List.filter_sublist.map _)
  refine Option.ext fun value => ?_
  rw [get?_eq_some_iff distinct', List.mem_filter, Option.filter_eq_some_iff,
    get?_eq_some_iff distinct]

/-- Putting in the entries of a table in which every key occurs once. -/
theorem get?_putAll_table (t : Table α β) {t' : Table α β} (distinct : (t'.map Prod.fst).Nodup)
    (key : α) : (t.putAll t').get? key = (t'.get? key).or (t.get? key) := by
  have first := find?_label_reverse distinct key
  rw [get?_putAll, get?_eq_find? t', first]

/-- Of the values put in under a key that has none the first one stays. -/
theorem get?_putNewAll {γ : Type} (label : γ → α) (value : γ → β) (t : Table α β)
    (xs : List γ) (key : α) :
    Table.get? (xs.foldl (fun t x => t.putNew (label x) (value x)) t) key =
      (t.get? key).or ((xs.find? fun x => label x = key).map value) := by
  induction xs generalizing t with
  | nil => simp
  | cons x xs ih =>
    rw [List.foldl_cons, ih, List.find?_cons]
    have put_new : (t.putNew (label x) (value x)).get? key =
        (t.get? key).or (if label x = key then some (value x) else none) := by
      unfold putNew has
      cases present : t.get? (label x) with
      | some old =>
        by_cases same : label x = key
        · subst same
          simp [present]
        · simp [same]
      | none =>
        by_cases same : label x = key
        · subst same
          simp [present]
        · simp [get?_put, same]
    rw [put_new]
    by_cases same : label x = key <;> cases t.get? key <;> simp [same]

end Table

end LiveUpdate
