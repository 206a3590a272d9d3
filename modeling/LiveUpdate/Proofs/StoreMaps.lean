import LiveUpdate.Proofs.StoreReads
import Mathlib.Data.Finmap
import Mathlib.Data.Finset.Card

/-!
# A field store is a finite map

What the calls of a field store do is said here over a finite map from declaring type and
name to value, one rule for each way in which a call can go.  Any calls one after another
on a new store give the answers, the map and the number of dropped values that the rules
give, and the rules leave no choice.
-/

set_option autoImplicit false

namespace LiveUpdate

/-- Values of fields by declaring type and name. -/
abbrev FieldMap := Finmap fun _ : String × String => Value

namespace FieldStore

/-- A read of an entry. -/
structure Read where
  declaring : String
  name : String
  sig : TypeSig
  policy : FieldPolicy
  /-- What conforms to the type is told by the heap at the time of the read. -/
  engine : Engine
  /-- The value that the type used to inherit.  To look for it writes nothing. -/
  reveal : FieldMap → Option Value

/-- A call of a store. -/
inductive Call
  | set (declaring name : String) (value : Value)
  | get (read : Read)
  | remove (declaring name : String)
  | contains (declaring name : String)

/-- What a call answers. -/
inductive Answer
  | done
  | read (answer : Except RunError (Value × FieldSource))
  | removed (value : Option Value)
  | contained (present : Bool)

/-- The entry that a read asks for. -/
def Read.key (r : Read) : String × String := (r.declaring, r.name)

/-- Whether a value has the type that a read asks for. -/
def Read.fits (r : Read) (value : Value) : Bool := value.conforms r.engine r.sig

/-- The entry that a call is about. -/
def Call.key : Call → String × String
  | .set declaring name _ | .remove declaring name | .contains declaring name =>
    (declaring, name)
  | .get read => read.key

/-! ## What the calls do to a map -/

/-- A call on a map, its answer, and the map after it. -/
inductive Call.Acts : FieldMap → Call → Answer → FieldMap → Prop
  /-- A write writes its own entry. -/
  | set (m : FieldMap) (declaring name : String) (value : Value) :
    Acts m (.set declaring name value) .done (m.insert (declaring, name) value)
  | remove (m : FieldMap) (declaring name : String) :
    Acts m (.remove declaring name) (.removed (m.lookup (declaring, name)))
      (m.erase (declaring, name))
  | contains (m : FieldMap) (declaring name : String) (present : Bool)
    (there : present = true ↔ (declaring, name) ∈ m) :
    Acts m (.contains declaring name) (.contained present) m
  /-- A value that conforms is the answer, and nothing changes. -/
  | stored (m : FieldMap) (r : Read) (value : Value) (held : m.lookup r.key = some value)
    (conforms : r.fits value = true) :
    Acts m (.get r) (.read (.ok (value, .stored))) m
  /-- Under one policy a value that does not conform fails the read, and nothing changes. -/
  | refused (m : FieldMap) (r : Read) (value : Value) (held : m.lookup r.key = some value)
    (unfit : r.fits value = false) (policy : r.policy = .refuse) :
    Acts m (.get r) (.read (.error (.fieldTypeMismatch r.declaring r.name r.sig.text))) m
  /-- Under the other policy the read acts as on a map without the entry. -/
  | discarded (m m' : FieldMap) (r : Read) (value : Value) (answer : Answer)
    (held : m.lookup r.key = some value) (unfit : r.fits value = false)
    (policy : r.policy = .discard) (acts : Acts (m.erase r.key) (.get r) answer m') :
    Acts m (.get r) answer m'
  /-- Where there is no entry, what is revealed is the answer and becomes the entry. -/
  | revealed (m : FieldMap) (r : Read) (value : Value) (absent : r.key ∉ m)
    (found : r.reveal m = some value) (conforms : r.fits value = true) :
    Acts m (.get r) (.read (.ok (value, .revealed))) (m.insert r.key value)
  /-- Where nothing that conforms is revealed, the zero of the type is. -/
  | default (m : FieldMap) (r : Read) (absent : r.key ∉ m)
    (unfit : ∀ value, r.reveal m = some value → r.fits value = false) :
    Acts m (.get r) (.read (.ok (.zeroOf r.sig, .default))) (m.insert r.key (.zeroOf r.sig))

/-- A call is a read that meets a value that does not conform, under the policy to drop it. -/
def Call.Drops (m : FieldMap) : Call → Prop
  | .get r => ∃ value, m.lookup r.key = some value ∧ r.fits value = false ∧ r.policy = .discard
  | _ => False

/-- Calls one after another on a map, their answers, the map after them, and how many of
them dropped a value. -/
inductive Runs : FieldMap → List Call → List Answer → FieldMap → Nat → Prop
  | nil (m : FieldMap) : Runs m [] [] m 0
  | keep {m m' m'' : FieldMap} {call : Call} {calls : List Call} {answer : Answer}
    {answers : List Answer} {drops : Nat} (keeps : ¬ call.Drops m)
    (acts : call.Acts m answer m') (rest : Runs m' calls answers m'' drops) :
    Runs m (call :: calls) (answer :: answers) m'' drops
  | drop {m m' m'' : FieldMap} {call : Call} {calls : List Call} {answer : Answer}
    {answers : List Answer} {drops : Nat} (dropping : call.Drops m)
    (acts : call.Acts m answer m') (rest : Runs m' calls answers m'' drops) :
    Runs m (call :: calls) (answer :: answers) m'' (drops + 1)

/-! ## What the calls do to a store -/

variable (s : FieldStore)

/-- The map that a store is. -/
def view : FieldMap :=
  (s.entries.map fun entry =>
    (⟨entry.1, entry.2⟩ : Sigma fun _ : String × String => Value)).toFinmap

/-- The answer of a store to a call, and the store after it. -/
def perform : Call → Answer × FieldStore
  | .set declaring name value => (.done, s.set declaring name value)
  | .get r =>
    let (answer, s) := s.get r.declaring r.name r.sig r.policy r.fits fun s => (r.reveal s.view, s)
    (.read answer, s)
  | .remove declaring name =>
    let (value, s) := s.remove declaring name
    (.removed value, s)
  | .contains declaring name => (.contained (s.contains declaring name), s)

/-- The answers of a store to calls one after another, and the store after them. -/
def performAll (s : FieldStore) : List Call → List Answer × FieldStore
  | [] => ([], s)
  | call :: calls =>
    let (answer, s) := s.perform call
    let (answers, s) := performAll s calls
    (answer :: answers, s)

/-- Every entry of a store has a key of its own. -/
def Distinct : Prop := (s.entries.map Prod.fst).Nodup

theorem distinct_empty : Distinct {} := List.nodup_nil

section View

variable (declaring name : String)

theorem lookup_toFinmap (entries : Table (String × String) Value) (key : String × String) :
    Finmap.lookup key (entries.map fun entry =>
      (⟨entry.1, entry.2⟩ : Sigma fun _ : String × String => Value)).toFinmap =
      entries.get? key := by
  rw [Finmap.dlookup_list_toFinmap]
  induction entries with
  | nil => rfl
  | cons entry rest ih =>
    obtain ⟨k, v⟩ := entry
    by_cases same : k = key
    · subst same
      simp [Table.get?]
    · rw [List.map_cons, List.dlookup_cons_ne _ _ (Ne.symm same), ih, Table.get?, if_neg same]

/-- A store has the values of its map. -/
theorem lookup_view : s.view.lookup (declaring, name) = s.value? declaring name :=
  lookup_toFinmap s.entries (declaring, name)

theorem view_set (value : Value) :
    (s.set declaring name value).view = s.view.insert (declaring, name) value := by
  refine Finmap.ext_lookup fun (declaring', name') => ?_
  rw [lookup_view, value?_set]
  split
  next same => rw [← same, Finmap.lookup_insert]
  next other => rw [Finmap.lookup_insert_of_ne _ (Ne.symm other), lookup_view]

theorem view_erase (discards : Nat) :
    view { entries := s.entries.erase (declaring, name), discards } =
      s.view.erase (declaring, name) := by
  refine Finmap.ext_lookup fun (declaring', name') => ?_
  rw [lookup_view]
  refine (Table.get?_erase _ _ _).trans ?_
  split
  next same => rw [← same, Finmap.lookup_erase]
  next other =>
    rw [Finmap.lookup_erase_ne (Ne.symm other), lookup_view]
    rfl

theorem notMem_view {declaring name : String} :
    (declaring, name) ∉ s.view ↔ s.value? declaring name = none := by
  rw [← Finmap.lookup_eq_none, lookup_view]

/-- The entries of a store are counted by the keys of its map. -/
theorem size_eq (distinct : s.Distinct) : s.size = s.view.keys.card := by
  have keys : s.view.keys = (s.entries.map Prod.fst).toFinset := by
    ext key
    rw [Finmap.mem_keys, view, Finmap.mem_list_toFinmap, List.mem_toFinset]
    simp
  rw [keys, List.toFinset_card_of_nodup distinct, List.length_map]
  rfl

end View

/-! ### One call -/

/-- How a read reveals: by the map that the store is, and without a write. -/
def Read.look (r : Read) (s : FieldStore) : Option Value × FieldStore := (r.reveal s.view, s)

theorem perform_get (r : Read) :
    s.perform (.get r) =
      (.read (s.get r.declaring r.name r.sig r.policy r.fits r.look).1,
        (s.get r.declaring r.name r.sig r.policy r.fits r.look).2) := rfl

/-- A store does what the rules say. -/
theorem Call.Acts.perform {m m' : FieldMap} {call : Call} {answer : Answer}
    (acts : call.Acts m answer m') (s : FieldStore) (viewed : s.view = m) :
    answer = (s.perform call).1 ∧ m' = (s.perform call).2.view := by
  induction acts generalizing s with
  | set m declaring name value =>
    subst viewed
    exact ⟨rfl, (s.view_set declaring name value).symm⟩
  | remove m declaring name =>
    subst viewed
    exact ⟨congrArg Answer.removed (s.lookup_view declaring name),
      (s.view_erase declaring name s.discards).symm⟩
  | contains m declaring name present there =>
    subst viewed
    have same : present = s.contains declaring name := by
      rw [Bool.eq_iff_iff, there, ← Finmap.lookup_isSome, lookup_view]
      rfl
    exact ⟨congrArg Answer.contained same, rfl⟩
  | stored m r value held conforms =>
    subst viewed
    rw [Read.key, lookup_view] at held
    rw [perform_get, get_of_fits held conforms]
    exact ⟨rfl, rfl⟩
  | refused m r value held unfit policy =>
    subst viewed
    rw [Read.key, lookup_view] at held
    rw [perform_get, policy, get_of_refuse held unfit]
    exact ⟨rfl, rfl⟩
  | discarded m m' r value answer held unfit policy acts ih =>
    subst viewed
    rw [Read.key, lookup_view] at held
    have dropped := ih (s.drop r.declaring r.name) (s.view_erase _ _ _)
    rw [perform_get, policy] at dropped ⊢
    rw [get_of_discard held unfit]
    exact dropped
  | revealed m r value absent found conforms =>
    subst viewed
    have vacant := s.notMem_view.1 absent
    rw [perform_get, get_of_vacant vacant, Read.look,
      fill_of_revealed vacant found conforms]
    exact ⟨rfl, (s.view_set _ _ _).symm⟩
  | default m r absent unfit =>
    subst viewed
    have vacant := s.notMem_view.1 absent
    rw [perform_get, get_of_vacant vacant, Read.look, fill_of_default vacant unfit]
    exact ⟨rfl, (s.view_set _ _ _).symm⟩

/-- A read of an absent entry is filled with what is revealed, or with the default. -/
theorem acts_of_absent (m : FieldMap) (r : Read) (absent : r.key ∉ m) :
    ∃ answer m', Call.Acts m (.get r) answer m' := by
  by_cases fitting : ∃ value, r.reveal m = some value ∧ r.fits value = true
  · obtain ⟨value, found, conforms⟩ := fitting
    exact ⟨_, _, .revealed m r value absent found conforms⟩
  · refine ⟨_, _, .default m r absent fun value found => Bool.eq_false_iff.2 fun conforms => ?_⟩
    exact fitting ⟨value, found, conforms⟩

/-- There is a rule for every call. -/
theorem acts_total (m : FieldMap) (call : Call) : ∃ answer m', call.Acts m answer m' := by
  cases call with
  | set declaring name value => exact ⟨_, _, .set m declaring name value⟩
  | remove declaring name => exact ⟨_, _, .remove m declaring name⟩
  | contains declaring name =>
    exact ⟨_, _, .contains m declaring name (decide ((declaring, name) ∈ m)) decide_eq_true_iff⟩
  | get r =>
    cases held : m.lookup r.key with
    | none => exact acts_of_absent m r (Finmap.lookup_eq_none.1 held)
    | some value =>
      cases fitting : r.fits value with
      | true => exact ⟨_, _, .stored m r value held fitting⟩
      | false =>
        cases policy : r.policy with
        | refuse => exact ⟨_, _, .refused m r value held fitting policy⟩
        | discard =>
          obtain ⟨answer, m', acts⟩ := acts_of_absent (m.erase r.key) r Finmap.notMem_erase_self
          exact ⟨_, _, .discarded m m' r value answer held fitting policy acts⟩

/-- The rules give for a call what the store does, and nothing else. -/
theorem acts_iff (call : Call) (answer : Answer) (m : FieldMap) :
    call.Acts s.view answer m ↔ answer = (s.perform call).1 ∧ m = (s.perform call).2.view := by
  refine ⟨fun acts => acts.perform s rfl, fun ⟨answered, reached⟩ => ?_⟩
  obtain ⟨answer', m', acts⟩ := acts_total s.view call
  obtain ⟨answered', reached'⟩ := acts.perform s rfl
  rw [answered, reached, ← answered', ← reached']
  exact acts

/-- A call writes to no entry but its own. -/
theorem Call.Acts.other {m m' : FieldMap} {call : Call} {answer : Answer}
    (acts : call.Acts m answer m') {key : String × String} (other : key ≠ call.key) :
    m'.lookup key = m.lookup key := by
  induction acts with
  | set | revealed | default => exact Finmap.lookup_insert_of_ne _ other
  | remove => exact Finmap.lookup_erase_ne other
  | contains | stored | refused => rfl
  | discarded m m' r value answer held unfit policy acts ih =>
    exact (ih other).trans (Finmap.lookup_erase_ne other)

/-- The counter of a store counts the reads that drop a value. -/
theorem discards_perform (call : Call) :
    (call.Drops s.view → (s.perform call).2.discards = s.discards + 1) ∧
    (¬ call.Drops s.view → (s.perform call).2.discards = s.discards) := by
  cases call with
  | set | remove | contains => exact ⟨False.elim, fun _ => rfl⟩
  | get r =>
    have fill_discards (s : FieldStore) (revealed : Option Value) :
        (s.fill r.declaring r.name r.sig r.fits revealed).2.discards = s.discards := by
      rcases s.fill_store r.declaring r.name r.sig r.fits revealed with ⟨-, -, same⟩ | ⟨_, written⟩
      · rw [same]
      · rw [written]
        rfl
    simp only [Call.Drops, Read.key, lookup_view, perform_get]
    rcases s.get_cases r.declaring r.name r.sig r.policy r.fits r.look with
      ⟨value, held, conforms, answer⟩ | ⟨value, held, unfit, refuses, answer⟩ | ⟨left, unanswered⟩
    · rw [answer]
      refine ⟨fun ⟨value', held', unfit, _⟩ => ?_, fun _ => rfl⟩
      obtain rfl := Option.some.inj (held.symm.trans held')
      exact absurd conforms (Bool.eq_false_iff.1 unfit)
    · rw [answer]
      refine ⟨fun ⟨_, _, _, discards⟩ => ?_, fun _ => rfl⟩
      rw [refuses] at discards
      cases discards
    · rw [unanswered.get_eq, fill_discards]
      cases unanswered with
      | absent vacant =>
        refine ⟨fun ⟨_, held, _⟩ => ?_, fun _ => rfl⟩
        rw [vacant] at held
        cases held
      | dropped held unfit discards =>
        exact ⟨fun _ => rfl, fun keeps => absurd ⟨_, held, unfit, discards⟩ keeps⟩

theorem distinct_erase {s : FieldStore} (distinct : s.Distinct) (declaring name : String)
    (discards : Nat) :
    Distinct { entries := s.entries.erase (declaring, name), discards } :=
  distinct.sublist (List.filter_sublist.map _)

theorem distinct_perform {s : FieldStore} (distinct : s.Distinct) (call : Call) :
    (s.perform call).2.Distinct := by
  cases call with
  | set declaring name value => exact Table.nodup_put distinct _ _
  | remove declaring name => exact distinct_erase distinct declaring name s.discards
  | contains => exact distinct
  | get r =>
    have filled {s : FieldStore} (distinct : s.Distinct) (revealed : Option Value) :
        (s.fill r.declaring r.name r.sig r.fits revealed).2.Distinct := by
      rcases s.fill_store r.declaring r.name r.sig r.fits revealed with ⟨-, -, same⟩ | ⟨_, written⟩
      · rw [same]
        exact distinct
      · rw [written]
        exact Table.nodup_put distinct _ _
    rw [perform_get]
    rcases s.get_cases r.declaring r.name r.sig r.policy r.fits r.look with
      ⟨_, _, _, answer⟩ | ⟨_, _, _, _, answer⟩ | ⟨left, unanswered⟩
    · rw [answer]
      exact distinct
    · rw [answer]
      exact distinct
    · rw [unanswered.get_eq]
      cases unanswered with
      | absent => exact filled distinct _
      | dropped => exact filled (distinct_erase distinct _ _ _) _

/-! ### Many calls -/

theorem distinct_performAll {s : FieldStore} (distinct : s.Distinct) (calls : List Call) :
    (s.performAll calls).2.Distinct := by
  induction calls generalizing s with
  | nil => exact distinct
  | cons call calls ih => exact ih (distinct_perform distinct call)

/-- A store goes through calls one after another as the rules say. -/
theorem Runs.performAll {m m' : FieldMap} {calls : List Call} {answers : List Answer}
    {drops : Nat} (runs : Runs m calls answers m' drops) (s : FieldStore) (viewed : s.view = m) :
    answers = (s.performAll calls).1 ∧ m' = (s.performAll calls).2.view ∧
      (s.performAll calls).2.discards = s.discards + drops := by
  induction runs generalizing s with
  | nil => exact ⟨rfl, viewed.symm, rfl⟩
  | @keep m _ _ call calls _ _ drops keeping acts rest ih =>
    subst viewed
    obtain ⟨rfl, rfl⟩ := acts.perform s rfl
    obtain ⟨rfl, rfl, counted⟩ := ih (s.perform call).2 rfl
    rw [(s.discards_perform call).2 keeping] at counted
    exact ⟨rfl, rfl, counted⟩
  | @drop m _ _ call calls _ _ drops dropping acts rest ih =>
    subst viewed
    obtain ⟨rfl, rfl⟩ := acts.perform s rfl
    obtain ⟨rfl, rfl, counted⟩ := ih (s.perform call).2 rfl
    rw [(s.discards_perform call).1 dropping] at counted
    exact ⟨rfl, rfl, counted.trans (by omega)⟩

theorem runs_total (m : FieldMap) (calls : List Call) :
    ∃ answers m' drops, Runs m calls answers m' drops := by
  induction calls generalizing m with
  | nil => exact ⟨_, _, _, .nil m⟩
  | cons call calls ih =>
    obtain ⟨answer, m', acts⟩ := acts_total m call
    obtain ⟨answers, m'', drops, rest⟩ := ih m'
    by_cases dropping : call.Drops m
    · exact ⟨_, _, _, .drop dropping acts rest⟩
    · exact ⟨_, _, _, .keep dropping acts rest⟩

/-- The rules give for calls one after another what the store does, and nothing else. -/
theorem runs_iff (calls : List Call) (answers : List Answer) (m : FieldMap) (drops : Nat) :
    Runs s.view calls answers m drops ↔
      answers = (s.performAll calls).1 ∧ m = (s.performAll calls).2.view ∧
        (s.performAll calls).2.discards = s.discards + drops := by
  refine ⟨fun runs => runs.performAll s rfl, fun ⟨answered, reached, counted⟩ => ?_⟩
  obtain ⟨answers', m', drops', runs⟩ := runs_total s.view calls
  obtain ⟨answered', reached', counted'⟩ := runs.performAll s rfl
  have same : drops = drops' := Nat.add_left_cancel (counted.symm.trans counted')
  rw [answered, reached, same, ← answered', ← reached']
  exact runs

end FieldStore

/-- A field store that starts empty is a finite map.  Calls one after another have the answers
that the rules for maps give, the store is then the map that the rules give, and it has
counted the reads that dropped a value.  It has as many entries as the map has keys, and
one more call leaves every entry alone but its own. -/
theorem field_store_refines_map (calls : List FieldStore.Call) :
    (∀ answers m drops, FieldStore.Runs ∅ calls answers m drops ↔
      answers = (FieldStore.performAll {} calls).1 ∧
        m = (FieldStore.performAll {} calls).2.view ∧
        drops = (FieldStore.performAll {} calls).2.discards) ∧
    (FieldStore.performAll {} calls).2.size =
      (FieldStore.performAll {} calls).2.view.keys.card ∧
    ∀ (call : FieldStore.Call) (declaring name : String), (declaring, name) ≠ call.key →
      ((FieldStore.performAll {} calls).2.perform call).2.value? declaring name =
        (FieldStore.performAll {} calls).2.value? declaring name := by
  refine ⟨fun answers m drops => ?_, ?_, fun call declaring name other => ?_⟩
  · have runs := FieldStore.runs_iff {} calls answers m drops
    rw [Nat.zero_add] at runs
    exact runs.trans (and_congr_right' (and_congr_right' eq_comm))
  · exact FieldStore.size_eq _ (FieldStore.distinct_performAll FieldStore.distinct_empty calls)
  · have acts := (FieldStore.acts_iff (FieldStore.performAll {} calls).2 call _ _).2 ⟨rfl, rfl⟩
    rw [← FieldStore.lookup_view, ← FieldStore.lookup_view]
    exact acts.other other

end LiveUpdate
