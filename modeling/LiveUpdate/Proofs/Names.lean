import LiveUpdate.Instrument.Guard

/-!
# Laws of name tables

A name table only grows, and what it once said stays true: a later table gives every name
the number that it had.  A name that is asked for has a number from then on.
-/

set_option autoImplicit false

namespace LiveUpdate.NameTable

/-- One table of names continues another. -/
def Extends (later earlier : NameTable) : Prop := earlier.names <+: later.names

variable {t later : NameTable}

@[refl] theorem Extends.refl (t : NameTable) : t.Extends t := List.prefix_refl _

theorem Extends.trans {a b c : NameTable} (hab : a.Extends b) (hbc : b.Extends c) :
    a.Extends c :=
  List.IsPrefix.trans hbc hab

/-- A table that continues another agrees with it on every number. -/
theorem lookup_of_extends (extends_ : later.Extends t) {name : String} {id : TypeId}
    (known : t.lookup name = some id) : later.lookup name = some id := by
  rw [lookup_eq] at known ⊢
  obtain ⟨added, grown⟩ := extends_
  obtain ⟨i, found, rfl⟩ := Option.map_eq_some_iff.1 known
  rw [← grown, List.findIdx?_append, found]
  rfl

theorem lookup_isSome_of_extends (extends_ : later.Extends t) {name : String}
    (known : (t.lookup name).isSome) : (later.lookup name).isSome := by
  obtain ⟨id, found⟩ := Option.isSome_iff_exists.1 known
  rw [lookup_of_extends extends_ found]
  rfl

theorem idFor_extends (t : NameTable) (name : String) : (t.idFor name).2.Extends t := by
  unfold idFor
  split
  · rfl
  · exact List.prefix_append _ _

/-- The number that a name gets is the one that it has from then on. -/
theorem lookup_idFor (t : NameTable) (name : String) :
    (t.idFor name).2.lookup name = some (t.idFor name).1 := by
  cases found : t.lookup name with
  | some id =>
    rw [idFor_of_known found]
    exact found
  | none =>
    rw [idFor_of_unknown found]
    exact Table.get?_put_self _ _ _

theorem addAll_extends (t : NameTable) (added : List String) : (t.addAll added).Extends t := by
  induction added generalizing t with
  | nil => rfl
  | cons name rest ih => exact (ih (t.idFor name).2).trans (t.idFor_extends name)

/-- Names that are added have numbers. -/
theorem lookup_addAll_isSome (t : NameTable) {added : List String} {name : String}
    (mem : name ∈ added) : ((t.addAll added).lookup name).isSome := by
  induction added generalizing t with
  | nil => cases mem
  | cons first rest ih =>
    rcases List.mem_cons.1 mem with rfl | mem
    · have now : ((t.idFor name).2.lookup name).isSome := by
        rw [t.lookup_idFor name]
        rfl
      exact lookup_isSome_of_extends (addAll_extends _ rest) now
    · exact ih (t.idFor first).2 mem

/-- As long as there are not more names than numbers, the number of a name leads back to it. -/
theorem nameOf?_of_lookup {name : String} {id : TypeId} (fits : t.size ≤ UInt32.size)
    (known : t.lookup name = some id) : t.nameOf? id = some name := by
  rw [lookup_eq] at known
  obtain ⟨i, found, rfl⟩ := Option.map_eq_some_iff.1 known
  obtain ⟨lt, named, -⟩ := List.findIdx?_eq_some_iff_getElem.1 found
  have small : i < UInt32.size := Nat.lt_of_lt_of_le lt fits
  unfold nameOf?
  rw [UInt32.toNat_ofNat_of_lt' small, List.getElem?_eq_getElem lt]
  exact congrArg some (of_decide_eq_true named)

/-- Two names with one number are the same, as long as the numbers have not run out. -/
theorem eq_of_lookup (few : t.size ≤ UInt32.size) {a b : String} {id : TypeId}
    (first : t.lookup a = some id) (second : t.lookup b = some id) : a = b := by
  have named := nameOf?_of_lookup few first
  rw [nameOf?_of_lookup few second] at named
  exact (Option.some.inj named).symm

end LiveUpdate.NameTable
