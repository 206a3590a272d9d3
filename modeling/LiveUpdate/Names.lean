import LiveUpdate.Table

/-!
# Numbers of type names

Instructions of the engine name types by number.  A table gives every name the next
number when it is first asked for, and never takes a number back; scopes that are to
agree on the numbers share a table.
-/

set_option autoImplicit false

namespace LiveUpdate

/-- The number of a type name. -/
abbrev TypeId := UInt32

/-- The text of a type number. -/
def typeIdText (id : TypeId) : String := s!"#{id.toNat}"

/-- Without names there are no numbers. -/
theorem get?_no_numbers (name : String) : Table.get? ([] : Table String TypeId) name =
    (([] : List String).findIdx? (· = name)).map UInt32.ofNat := rfl

/-- Names with numbers.  Two tables say the same: the names in the order of their numbers, and the
number of every name. -/
structure NameTable where
  names : List String := []
  numbers : Table String TypeId := []
  /-- The number of a name is its first place. -/
  numbers_eq : ∀ name, numbers.get? name =
    (names.findIdx? (· = name)).map UInt32.ofNat := by exact LiveUpdate.get?_no_numbers
deriving DecidableEq

instance : Inhabited NameTable := ⟨{}⟩

namespace NameTable

/-- The number of a name, if it has one. -/
def lookup (t : NameTable) (name : String) : Option TypeId := t.numbers.get? name

theorem lookup_eq (t : NameTable) (name : String) :
    t.lookup name = (t.names.findIdx? (· = name)).map UInt32.ofNat :=
  t.numbers_eq name

/-- A name without a number is none of the names. -/
theorem findIdx?_eq_none {t : NameTable} {name : String} (unknown : t.lookup name = none) :
    t.names.findIdx? (· = name) = none := by
  rw [lookup_eq] at unknown
  exact Option.map_eq_none_iff.1 unknown

/-- The table in which a name without a number has the next one. -/
def allocate (t : NameTable) (name : String) (unknown : t.lookup name = none) : NameTable where
  names := t.names ++ [name]
  numbers := t.numbers.put name (UInt32.ofNat t.names.length)
  numbers_eq other := by
    rw [Table.get?_put, List.findIdx?_append, t.numbers_eq]
    by_cases same : name = other
    · subst same
      simp [findIdx?_eq_none unknown]
    · simp [same]

/-- The number of a name, which it gets now if it has none, and the table from then on. -/
def idFor (t : NameTable) (name : String) : TypeId × NameTable :=
  match known : t.lookup name with
  | some id => (id, t)
  | none => (UInt32.ofNat t.names.length, t.allocate name known)

theorem idFor_of_known {t : NameTable} {name : String} {id : TypeId}
    (known : t.lookup name = some id) : t.idFor name = (id, t) := by
  unfold idFor
  split
  next found =>
    rw [known] at found
    cases found
    rfl
  next unknown =>
    rw [known] at unknown
    cases unknown

theorem idFor_of_unknown {t : NameTable} {name : String} (unknown : t.lookup name = none) :
    t.idFor name = (UInt32.ofNat t.names.length, t.allocate name unknown) := by
  unfold idFor
  split
  next known =>
    rw [unknown] at known
    cases known
  next => rfl

/-- The name with a number. -/
def nameOf? (t : NameTable) (id : TypeId) : Option String := t.names[id.toNat]?

/-- The number of names. -/
def size (t : NameTable) : Nat := t.names.length

end NameTable

end LiveUpdate
