import LiveUpdate.Proofs.Reachable
import Mathlib.Data.List.Induction

/-!
# Names are numbered in order

Whoever calls a table of names, and in whatever order, the names that were asked for have the
numbers from zero on, in the order in which they were first asked for.  A name has one number
for good, no two names share one, and a number leads back to its name.  To look up a name or a
number changes nothing.  All this is said of scopes that share a table; an engine changes its
tables through such calls only.
-/

set_option autoImplicit false

namespace LiveUpdate

namespace NameTable

/-- A call of a table of names. -/
inductive Call
  | idFor (name : String)
  | lookup (name : String)
  | nameOf (id : TypeId)
deriving DecidableEq

/-- What a call answers. -/
inductive Answer
  | number (id : TypeId)
  | found (id : Option TypeId)
  | named (name : Option String)
deriving DecidableEq

/-- The answer of a table to a call, and the table after it. -/
def perform (t : NameTable) : Call → Answer × NameTable
  | .idFor name => (.number (t.idFor name).1, (t.idFor name).2)
  | .lookup name => (.found (t.lookup name), t)
  | .nameOf id => (.named (t.nameOf? id), t)

/-- The answers of a table to calls one after another, and the table after them. -/
def performAll (t : NameTable) : List Call → List Answer × NameTable
  | [] => ([], t)
  | call :: calls =>
    let (answer, t) := t.perform call
    let (answers, t) := performAll t calls
    (answer :: answers, t)

/-- The name that a call asks a number for. -/
def Call.asked? : Call → Option String
  | .idFor name => some name
  | _ => none

/-- The names that calls ask numbers for, in order. -/
def asked (calls : List Call) : List String := calls.filterMap Call.asked?

/-- The names that calls ask numbers for, each of them once, in the order of the first call. -/
def firstAsked (calls : List Call) : List String := (asked calls).eraseDups

section Table

variable {t : NameTable} {name : String} {id : TypeId}

theorem lookup_isSome_iff : (t.lookup name).isSome ↔ name ∈ t.names := by
  rw [lookup_eq, Option.isSome_map, List.findIdx?_isSome]
  simp

theorem lookup_eq_none_iff : t.lookup name = none ↔ name ∉ t.names := by
  rw [← lookup_isSome_iff, Option.not_isSome_iff_eq_none]

/-- A name that is none of the names becomes the last one. -/
theorem names_idFor (t : NameTable) (name : String) :
    (t.idFor name).2.names = if name ∈ t.names then t.names else t.names ++ [name] := by
  cases known : t.lookup name with
  | some id =>
    have mem : name ∈ t.names := lookup_isSome_iff.1 (by rw [known]; rfl)
    rw [idFor_of_known known, if_pos mem]
  | none =>
    rw [idFor_of_unknown known, if_neg (lookup_eq_none_iff.1 known)]
    rfl

/-- Where no name occurs twice, a name has the number of its place. -/
theorem lookup_of_nameOf? (distinct : t.names.Nodup) (named : t.nameOf? id = some name) :
    t.lookup name = some id := by
  obtain ⟨lt, at_⟩ := List.getElem?_eq_some_iff.1 named
  have first : t.names.findIdx? (· = name) = some id.toNat := by
    rw [List.findIdx?_eq_some_iff_getElem]
    refine ⟨lt, decide_eq_true at_, fun j before same => ?_⟩
    have named' : t.names[j] = t.names[id.toNat] := (of_decide_eq_true same).trans at_.symm
    exact Nat.ne_of_lt before ((distinct.getElem_inj_iff).1 named')
  rw [lookup_eq, first, Option.map_some, UInt32.ofNat_toNat]

/-- A call takes nothing back. -/
theorem perform_extends (t : NameTable) (call : Call) : (t.perform call).2.Extends t := by
  cases call with
  | idFor name => exact t.idFor_extends name
  | lookup | nameOf => exact Extends.refl t

/-- Only a name that a call asks a number for is added. -/
theorem perform_of_asked?_eq_none {call : Call} (quiet : call.asked? = none) :
    (t.perform call).2 = t := by
  cases call with
  | idFor => cases quiet
  | lookup | nameOf => rfl

theorem performAll_append (t : NameTable) (calls calls' : List Call) :
    t.performAll (calls ++ calls') =
      ((t.performAll calls).1 ++ ((t.performAll calls).2.performAll calls').1,
        ((t.performAll calls).2.performAll calls').2) := by
  induction calls generalizing t with
  | nil => rfl
  | cons call calls ih => simp [performAll, ih]

theorem performAll_extends (t : NameTable) (calls : List Call) :
    (t.performAll calls).2.Extends t := by
  induction calls generalizing t with
  | nil => exact Extends.refl t
  | cons call calls ih => exact (ih (t.perform call).2).trans (t.perform_extends call)

/-- Every call is answered by the table that the calls before it left. -/
theorem answer_performAll (t : NameTable) (calls : List Call) (i : Nat) :
    (t.performAll calls).1[i]? =
      calls[i]?.map fun call => ((t.performAll (calls.take i)).2.perform call).1 := by
  induction calls generalizing t i with
  | nil => simp [performAll]
  | cons call calls ih =>
    cases i with
    | zero => rfl
    | succ i => exact ih (t.perform call).2 i

theorem length_performAll (t : NameTable) (calls : List Call) :
    (t.performAll calls).1.length = calls.length := by
  induction calls generalizing t with
  | nil => rfl
  | cons call calls ih => simp [performAll, ih]

end Table

/-! ### Calls of a new table -/

section New

variable (calls : List Call)

/-- One more call asks for one more name, unless it was asked for before. -/
theorem firstAsked_snoc (call : Call) :
    firstAsked (calls ++ [call]) = firstAsked calls ++
      call.asked?.toList.filter fun name => decide (name ∉ asked calls) := by
  have alone : asked [call] = call.asked?.toList := by cases call <;> rfl
  have split : asked (calls ++ [call]) = asked calls ++ asked [call] := List.filterMap_append
  unfold firstAsked
  rw [split, alone, List.eraseDups_append]
  cases call with
  | idFor name => by_cases known : name ∈ asked calls <;>
      simp [List.removeAll, List.eraseDups_cons, Call.asked?, known]
  | lookup | nameOf => rfl

/-- The names are those that were asked for, in the order of the first call. -/
theorem names_performAll : (performAll {} calls).2.names = firstAsked calls := by
  induction calls using List.reverseRecOn with
  | nil => rfl
  | append_singleton calls call ih =>
    have mem (name : String) : name ∈ (performAll {} calls).2.names ↔ name ∈ asked calls := by
      rw [ih]
      exact List.mem_eraseDups
    rw [performAll_append, firstAsked_snoc, ← ih]
    cases call with
    | idFor name =>
      show ((performAll {} calls).2.idFor name).2.names = _
      rw [names_idFor]
      by_cases known : name ∈ asked calls <;> simp [mem, Call.asked?, known]
    | lookup | nameOf => exact (List.append_nil _).symm

theorem nodup_names_performAll : (performAll {} calls).2.names.Nodup := by
  induction calls using List.reverseRecOn with
  | nil => exact List.nodup_nil
  | append_singleton calls call ih =>
    rw [performAll_append]
    cases call with
    | idFor name =>
      show ((performAll {} calls).2.idFor name).2.names.Nodup
      rw [names_idFor]
      split
      · exact ih
      next new =>
        rw [← List.concat_eq_append, List.nodup_concat]
        exact ⟨new, ih⟩
    | lookup | nameOf => exact ih

/-- A name has a number exactly if a call has asked for one. -/
theorem lookup_performAll_isSome (name : String) :
    ((performAll {} calls).2.lookup name).isSome ↔ name ∈ asked calls := by
  rw [lookup_isSome_iff, names_performAll]
  exact List.mem_eraseDups

/-- The calls that ask for numbers leave the same table without the other calls. -/
theorem performAll_filter_asked (t : NameTable) :
    (t.performAll (calls.filter fun call => call.asked?.isSome)).2 = (t.performAll calls).2 := by
  induction calls generalizing t with
  | nil => rfl
  | cons call calls ih =>
    cases asks : call.asked? with
    | none =>
      rw [List.filter_cons_of_neg (by simp [asks]), ih]
      show _ = ((t.perform call).2.performAll calls).2
      rw [perform_of_asked?_eq_none asks]
    | some name =>
      rw [List.filter_cons_of_pos (by simp [asks])]
      exact ih (t.perform call).2

/-- What a table that was new knows after some calls, and what it has answered. -/
structure Numbers (calls : List Call) (answers : List Answer) (t : NameTable) : Prop where
  /-- The numbers from zero on belong to the names in the order of the first call for each. -/
  names : t.names = firstAsked calls
  answered : answers.length = calls.length
  /-- Every call for the number of a name is answered with the one number of the name. -/
  given : ∀ (i : Nat) name, calls[i]? = some (.idFor name) →
    ∃ id, answers[i]? = some (.number id) ∧ t.lookup name = some id
  /-- The numbers that were answered are those below the number of names. -/
  dense : ∀ id, (∃ i : Nat, answers[i]? = some (.number id)) ↔ id.toNat < t.size
  /-- A number leads back to the name that has it, and to no other. -/
  inverse : ∀ name id, t.lookup name = some id ↔ t.nameOf? id = some name
  distinct : ∀ a b id, t.lookup a = some id → t.lookup b = some id → a = b
  /-- A name that is looked up is found from the first call for its number on. -/
  looked : ∀ (i : Nat) name, calls[i]? = some (.lookup name) → answers[i]? =
    some (.found (if name ∈ asked (calls.take i) then t.lookup name else none))
  named : ∀ (i : Nat) id, calls[i]? = some (.nameOf id) → answers[i]? =
    some (.named (firstAsked (calls.take i))[id.toNat]?)
  /-- Nothing but the calls for numbers has changed the table. -/
  unchanged : t = (performAll {} (calls.filter fun call => call.asked?.isSome)).2

variable {calls}

/-- The table after some of the calls is continued by the table after all of them. -/
theorem performAll_extends_take (i : Nat) :
    (performAll {} calls).2.Extends (performAll {} (calls.take i)).2 := by
  have parts := performAll_append {} (calls.take i) (calls.drop i)
  rw [List.take_append_drop] at parts
  rw [parts]
  exact performAll_extends _ _

/-- The number that a call is answered with is the number of the name from then on. -/
theorem answer_idFor {i : Nat} {name : String} (call : calls[i]? = some (.idFor name)) :
    ∃ id, (performAll {} calls).1[i]? = some (.number id) ∧
      (performAll {} calls).2.lookup name = some id := by
  let before := (performAll {} (calls.take i)).2
  have next : calls.take (i + 1) = calls.take i ++ [.idFor name] := by
    rw [List.take_add_one, call, Option.toList_some]
  have after : (performAll {} (calls.take (i + 1))).2 = (before.idFor name).2 := by
    rw [next, performAll_append]
    rfl
  have now : (performAll {} (calls.take (i + 1))).2.lookup name = some (before.idFor name).1 := by
    rw [after]
    exact before.lookup_idFor name
  refine ⟨(before.idFor name).1, ?_, lookup_of_extends (performAll_extends_take _) now⟩
  rw [answer_performAll, call]
  rfl

/-- Only calls for the number of a name are answered with a number. -/
theorem idFor_of_answer {i : Nat} {id : TypeId}
    (answer : (performAll {} calls).1[i]? = some (.number id)) :
    ∃ name, calls[i]? = some (.idFor name) ∧ (performAll {} calls).2.lookup name = some id := by
  have answer' := answer
  rw [answer_performAll] at answer'
  obtain ⟨call, here, same⟩ := Option.map_eq_some_iff.1 answer'
  cases call with
  | idFor name =>
    obtain ⟨id', answered, number⟩ := answer_idFor here
    rw [answered] at answer
    cases answer
    exact ⟨name, here, number⟩
  | lookup | nameOf => cases same

/-- A name has its number because some call was answered with it. -/
theorem exists_answer {name : String} {id : TypeId}
    (number : (performAll {} calls).2.lookup name = some id) :
    ∃ i : Nat, (performAll {} calls).1[i]? = some (.number id) := by
  have mem : name ∈ asked calls :=
    (lookup_performAll_isSome calls name).1 (by rw [number]; rfl)
  obtain ⟨call, there, asks⟩ := List.mem_filterMap.1 mem
  obtain ⟨i, here⟩ := List.getElem?_of_mem there
  cases call with
  | idFor name' =>
    cases asks
    obtain ⟨id', answer, number'⟩ := answer_idFor here
    rw [number] at number'
    cases number'
    exact ⟨i, answer⟩
  | lookup | nameOf => cases asks

theorem answer_lookup {i : Nat} {name : String} (call : calls[i]? = some (.lookup name)) :
    (performAll {} calls).1[i]? = some (.found
      (if name ∈ asked (calls.take i) then (performAll {} calls).2.lookup name else none)) := by
  rw [answer_performAll, call]
  show some (Answer.found ((performAll {} (calls.take i)).2.lookup name)) = _
  have known := lookup_performAll_isSome (calls.take i) name
  split
  next asked =>
    obtain ⟨id, number⟩ := Option.isSome_iff_exists.1 (known.2 asked)
    rw [number, lookup_of_extends (performAll_extends_take i) number]
  next unasked =>
    rw [Option.not_isSome_iff_eq_none.1 (mt known.1 unasked)]

theorem answer_nameOf {i : Nat} {id : TypeId} (call : calls[i]? = some (.nameOf id)) :
    (performAll {} calls).1[i]? = some (.named (firstAsked (calls.take i))[id.toNat]?) := by
  rw [answer_performAll, call]
  show some (Answer.named ((performAll {} (calls.take i)).2.names[id.toNat]?)) = _
  rw [names_performAll]

/-- As long as there are numbers left, calls of a new table number the names in order. -/
theorem numbers_performAll (few : (firstAsked calls).length < UInt32.size) :
    Numbers calls (performAll {} calls).1 (performAll {} calls).2 := by
  have fits : (performAll {} calls).2.size ≤ UInt32.size := by
    unfold size
    rw [names_performAll]
    exact Nat.le_of_lt few
  have inverse (name : String) (id : TypeId) : (performAll {} calls).2.lookup name = some id ↔
      (performAll {} calls).2.nameOf? id = some name :=
    ⟨nameOf?_of_lookup fits, lookup_of_nameOf? (nodup_names_performAll calls)⟩
  refine
    { names := names_performAll calls
      answered := length_performAll {} calls
      given := fun i name call => answer_idFor call
      dense := fun id => ⟨?_, fun lt => ?_⟩
      inverse := inverse
      distinct := fun a b id => eq_of_lookup fits
      looked := fun i name call => answer_lookup call
      named := fun i id call => answer_nameOf call
      unchanged := (performAll_filter_asked calls {}).symm }
  · rintro ⟨i, answer⟩
    obtain ⟨name, -, number⟩ := idFor_of_answer answer
    exact (List.getElem?_eq_some_iff.1 ((inverse name id).1 number)).1
  · obtain ⟨name, named⟩ : ∃ name, (performAll {} calls).2.nameOf? id = some name :=
      ⟨_, List.getElem?_eq_getElem lt⟩
    exact exists_answer ((inverse name id).2 named)

end New

end NameTable

/-! ### Scopes that share a table -/

/-- Scopes with one table have the same names. -/
theorem Engine.namesOf_of_shared {e : Engine} {s s' : ScopeRef}
    (shares : (e.scopeAt s').registry = (e.scopeAt s).registry) : e.namesOf s' = e.namesOf s := by
  unfold namesOf
  rw [shares]

namespace Scope

variable {ε : Type}

/-- A call that a scope makes of its table of names. -/
def callNames (s : ScopeRef) : NameTable.Call → Exec ε NameTable.Answer
  | .idFor name => do return .number (← idFor s name)
  | .lookup name => Exec.ask fun e => .found ((e.namesOf s).lookup name)
  | .nameOf id => Exec.ask fun e => .named ((e.namesOf s).nameOf? id)

/-- Calls that scopes make of their tables one after another. -/
def callNamesAll (calls : List (ScopeRef × NameTable.Call)) : Exec ε (List NameTable.Answer) :=
  calls.mapM fun call => callNames call.1 call.2

open Exec

variable {e : Engine} {s : ScopeRef}

/-- A call is answered by the shared table and changes nothing else. -/
theorem callNames_apply {s' : ScopeRef}
    (shares : (e.scopeAt s').registry = (e.scopeAt s).registry)
    (known : (e.scopeAt s).registry < e.registries.size) (call : NameTable.Call) :
    (callNames s' call : Exec ε NameTable.Answer) e =
      .ok ((e.namesOf s).perform call).1 (e.setNames s ((e.namesOf s).perform call).2) := by
  have writes (t : NameTable) : e.setNames s' t = e.setNames s t := by
    unfold Engine.setNames
    rw [shares]
  rw [← e.namesOf_of_shared shares, ← writes]
  cases call with
  | idFor name => rfl
  | lookup | nameOf =>
    have same := e.setNames_namesOf (s := s') (shares ▸ known)
    exact congrArg (EStateM.Result.ok _) same.symm

/-- Calls are answered as the shared table answers them one after another. -/
theorem callNamesAll_apply {calls : List (ScopeRef × NameTable.Call)}
    (shared : ∀ call ∈ calls, (e.scopeAt call.1).registry = (e.scopeAt s).registry)
    (known : (e.scopeAt s).registry < e.registries.size) :
    (callNamesAll calls : Exec ε (List NameTable.Answer)) e =
      .ok ((e.namesOf s).performAll (calls.map Prod.snd)).1
        (e.setNames s ((e.namesOf s).performAll (calls.map Prod.snd)).2) := by
  induction calls generalizing e with
  | nil => exact congrArg (EStateM.Result.ok []) (e.setNames_namesOf known).symm
  | cons call calls ih =>
    obtain ⟨s', call⟩ := call
    let next := e.setNames s ((e.namesOf s).perform call).2
    have first := callNames_apply (ε := ε) (shared _ List.mem_cons_self) known call
    have rest := ih (e := next) (fun other mem => shared other (List.mem_cons_of_mem _ mem))
      (e.known_setNames known _)
    unfold callNamesAll at rest ⊢
    rw [List.mapM_cons, bind_apply, first]
    dsimp only
    rw [bind_apply, rest]
    dsimp only
    rw [e.namesOf_setNames known, e.setNames_setNames]
    rfl

end Scope

/-- Scopes share a table that was new.  Whatever calls they make of it, it numbers the names that
they ask for from zero on, in the order of the first call, and for good; numbers and names lead to
each other, and only the calls for numbers change anything, which is the table. -/
theorem type_numbers_stable_and_dense {ε : Type} {e : Engine} {s : ScopeRef}
    (known : (e.scopeAt s).registry < e.registries.size) (new : e.namesOf s = {})
    {calls : List (ScopeRef × NameTable.Call)}
    (shared : ∀ call ∈ calls, (e.scopeAt call.1).registry = (e.scopeAt s).registry)
    (few : (NameTable.firstAsked (calls.map Prod.snd)).length < UInt32.size) :
    ∃ answers t,
      (Scope.callNamesAll calls : Exec ε (List NameTable.Answer)) e =
        .ok answers (e.setNames s t) ∧
      NameTable.Numbers (calls.map Prod.snd) answers t ∧
      ∀ s', (e.scopeAt s').registry = (e.scopeAt s).registry →
        (e.setNames s t).namesOf s' = t ∧
        ∀ call : NameTable.Call, call.asked? = none →
          (Scope.callNames s' call : Exec ε NameTable.Answer) (e.setNames s t) =
            .ok (t.perform call).1 (e.setNames s t) := by
  let result := NameTable.performAll {} (calls.map Prod.snd)
  have run := Scope.callNamesAll_apply (ε := ε) shared known
  rw [new] at run
  refine ⟨result.1, result.2, run, NameTable.numbers_performAll few, fun s' shares => ?_⟩
  have names := e.namesOf_setNames known result.2
  have same : ((e.setNames s result.2).scopeAt s').registry =
      ((e.setNames s result.2).scopeAt s).registry := shares
  refine ⟨?_, fun call quiet => ?_⟩
  · rw [Engine.namesOf_of_shared same, names]
  · have asked := Scope.callNames_apply (ε := ε) same (e.known_setNames known _) call
    rw [names, NameTable.perform_of_asked?_eq_none quiet, e.setNames_setNames] at asked
    exact asked

/-- Two scopes share a table, and a third one has a table of its own. -/
def sharing : Engine where
  scopes := #[.empty {} default 0, .empty {} default 1, .empty {} default 0]
  registries := #[{}, {}]

/-- The first scope and the third one ask for numbers in turn, and look up what the other one was
given. -/
def sharedCalls : List (ScopeRef × NameTable.Call) :=
  [(0, .idFor "app.A"), (2, .lookup "app.B"), (2, .idFor "app.B"), (0, .nameOf 1),
    (2, .idFor "app.A"), (0, .lookup "app.B")]

/-- The second name is `1` for both. -/
theorem type_numbers_stable_and_dense_shared :
    (NameTable.performAll {} (sharedCalls.map Prod.snd)).1 =
      [.number 0, .found none, .number 1, .named (some "app.B"), .number 0, .found (some 1)] ∧
    ∃ answers t, (Scope.callNamesAll sharedCalls : Exec Unit (List NameTable.Answer)) sharing =
        .ok answers (sharing.setNames 0 t) ∧
      NameTable.Numbers (sharedCalls.map Prod.snd) answers t := by
  have shared : ∀ call ∈ sharedCalls,
      (sharing.scopeAt call.1).registry = (sharing.scopeAt 0).registry := by decide
  obtain ⟨answers, t, run, numbers, -⟩ :=
    type_numbers_stable_and_dense (ε := Unit) (by decide) rfl shared (by decide)
  exact ⟨by decide, answers, t, run, numbers⟩

/-! ### Reachable engines -/

namespace Engine

variable {e e' : Engine}

/-- Every table of names is what calls have made of a new one. -/
def Numbered (e : Engine) : Prop :=
  ∀ r < e.registries.size, ∃ calls, e.registries.getD r default = (NameTable.performAll {} calls).2

theorem Numbered.of_registries_eq (numbered : e.Numbered) (same : e'.registries = e.registries) :
    e'.Numbered := by
  unfold Numbered
  rw [same]
  exact numbered

/-- An engine gets new tables, and makes calls of those that it has. -/
theorem Edit.numbered (edit : e.Edit e') (numbered : e.Numbered) : e'.Numbered := by
  cases edit with
  | run same lawful => exact numbered.of_registries_eq (congrArg Engine.registries same :)
  | addRegistry =>
    intro r lt
    rcases Nat.lt_succ_iff_lt_or_eq.1 (Array.size_push _ ▸ lt) with old | rfl
    · rw [getD_push_of_lt _ _ _ _ old]
      exact numbered r old
    · refine ⟨[], ?_⟩
      rw [getD_push, if_pos rfl]
      rfl
  | number s name =>
    intro r lt
    have old : r < e.registries.size := Array.size_setIfInBounds ▸ lt
    obtain ⟨calls, eq⟩ := numbered r old
    have at_ := getD_setIfInBounds e.registries (e.scopeAt s).registry
      ((e.namesOf s).idFor name).2 r default old
    by_cases hit : (e.scopeAt s).registry = r
    · rw [if_pos hit] at at_
      have names : e.namesOf s = (NameTable.performAll {} calls).2 := by
        rw [← eq, ← hit]
        rfl
      refine ⟨calls ++ [.idFor name], at_.trans ?_⟩
      rw [NameTable.performAll_append, names]
      rfl
    · rw [if_neg hit] at at_
      exact ⟨calls, at_.trans eq⟩
  | _ => exact numbered

theorem Edits.numbered (edits : e.Edits e') (numbered : e.Numbered) : e'.Numbered := by
  induction edits with
  | refl => exact numbered
  | tail _ edit ih => exact edit.numbered ih

theorem Reachable.numbered (reachable : e.Reachable) : e.Numbered :=
  reachable.edits.1.numbered fun _ lt => by cases lt

/-- In a reachable engine names and numbers lead to each other, as long as there are numbers
left. -/
theorem Reachable.lookup_eq_some_iff (reachable : e.Reachable) {s : ScopeRef}
    (lt : s < e.scopes.size) (few : (e.namesOf s).size < UInt32.size) {name : String}
    {id : TypeId} :
    (e.namesOf s).lookup name = some id ↔ (e.namesOf s).nameOf? id = some name := by
  obtain ⟨calls, eq⟩ := reachable.numbered _ (reachable.grounded.registry s lt)
  have names : e.namesOf s = (NameTable.performAll {} calls).2 := eq
  rw [names] at few ⊢
  unfold NameTable.size at few
  rw [NameTable.names_performAll] at few
  exact (NameTable.numbers_performAll few).inverse name id

end Engine

end LiveUpdate
