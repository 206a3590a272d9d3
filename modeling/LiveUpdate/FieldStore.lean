import LiveUpdate.Machine.Error
import LiveUpdate.Options.Basic
import LiveUpdate.Table
import LiveUpdate.Value

/-!
# Field stores

A store keeps field values by declaring type and name, so that a subtype and a supertype
may both have a field `x`.  It stands in for the fixed slots of a class when a field is
new or has changed.

A read of an entry that fits the declared type gives the entry.  An entry that does not
fit is refused or dropped, as the policy says.  Where there is no entry, one is filled in:
the value that the type used to inherit, if there is one and it fits, else the default.
-/

set_option autoImplicit false

namespace LiveUpdate

/-- Where a read was answered from. -/
inductive FieldSource
  /-- From an entry. -/
  | stored
  /-- From a field of the same name above. -/
  | revealed
  /-- From the declared type. -/
  | default
deriving DecidableEq, Inhabited

/-- Field values of one object, or the static ones of one type. -/
structure FieldStore where
  entries : Table (String × String) Value := []
  /-- How many values were dropped because they no longer fitted. -/
  discards : Nat := 0
deriving DecidableEq, Inhabited

/-- The answer of a store before anything is filled in. -/
inductive FieldStore.Probe
  | stored (value : Value)
  | refused
  /-- There is no entry, or there is none any more. -/
  | vacant (store : FieldStore)

namespace FieldStore

/-- The value of an entry. -/
def value? (s : FieldStore) (declaring name : String) : Option Value :=
  s.entries.get? (declaring, name)

/-- Write an entry. -/
def set (s : FieldStore) (declaring name : String) (value : Value) : FieldStore :=
  { s with entries := s.entries.put (declaring, name) value }

/-- Whether there is an entry. -/
def contains (s : FieldStore) (declaring name : String) : Bool :=
  s.entries.has (declaring, name)

/-- Remove an entry; its value is handed back. -/
def remove (s : FieldStore) (declaring name : String) : Option Value × FieldStore :=
  (s.value? declaring name, { s with entries := s.entries.erase (declaring, name) })

/-- The number of entries. -/
def size (s : FieldStore) : Nat := s.entries.length

/-- Look for an entry that fits, and clear away one that does not. -/
def probe (s : FieldStore) (declaring name : String) (policy : FieldPolicy)
    (fits : Value → Bool) : Probe :=
  match s.value? declaring name with
  | none => .vacant s
  | some value =>
    if fits value then .stored value
    else match policy with
      | .refuse => .refused
      | .discard =>
        .vacant { entries := s.entries.erase (declaring, name), discards := s.discards + 1 }

/-- Fill in a vacant entry.  An entry that has been written meanwhile wins. -/
def fill (s : FieldStore) (declaring name : String) (sig : TypeSig) (fits : Value → Bool)
    (revealed : Option Value) : (Value × FieldSource) × FieldStore :=
  match s.value? declaring name with
  | some value => ((value, .stored), s)
  | none =>
    match revealed.filter fits with
    | some value => ((value, .revealed), s.set declaring name value)
    | none => ((.zeroOf sig, .default), s.set declaring name (.zeroOf sig))

/-- Read an entry.  `reveal` looks for the value that the type used to inherit; it is
asked only when there is no entry, and may itself write to the store. -/
def get (s : FieldStore) (declaring name : String) (sig : TypeSig) (policy : FieldPolicy)
    (fits : Value → Bool) (reveal : FieldStore → Option Value × FieldStore) :
    Except RunError (Value × FieldSource) × FieldStore :=
  match s.probe declaring name policy fits with
  | .stored value => (.ok (value, .stored), s)
  | .refused => (.error (.fieldTypeMismatch declaring name sig.text), s)
  | .vacant s =>
    let (revealed, s) := reveal s
    let (answer, s) := s.fill declaring name sig fits revealed
    (.ok answer, s)

end FieldStore

end LiveUpdate
