import LiveUpdate.Engine.Value
import LiveUpdate.FieldStore
import LiveUpdate.Proofs.Table

/-!
# Reads of a field store

A read of a field store looks at its entry twice.  The first look compares the entry with
the declared type, and refuses or drops it when it does not fit.  Where it leaves the read
without an answer, the value that the type used to inherit is looked for, and meanwhile
others may write to the store.  The second look takes an entry that was written meanwhile
as it stands.

So a read answers with a value of the type that it asks for exactly when nothing else was
written in between to the entry that it reads.
-/

set_option autoImplicit false

namespace LiveUpdate

namespace FieldStore

variable (s : FieldStore) (declaring name : String)

/-- The store after the value of an entry was dropped. -/
def drop : FieldStore :=
  { entries := s.entries.erase (declaring, name), discards := s.discards + 1 }

/-- A written entry has the written value, and every other entry the value it had. -/
theorem value?_set (value : Value) (declaring' name' : String) :
    (s.set declaring name value).value? declaring' name' =
      if (declaring, name) = (declaring', name') then some value else s.value? declaring' name' :=
  Table.get?_put ..

theorem contains_set (value : Value) :
    (s.set declaring name value).contains declaring name = true := by
  show ((s.set declaring name value).value? declaring name).isSome = true
  rw [value?_set, if_pos rfl]
  rfl

theorem value?_drop (declaring' name' : String) :
    (s.drop declaring name).value? declaring' name' =
      if (declaring, name) = (declaring', name') then none else s.value? declaring' name' :=
  Table.get?_erase ..

@[simp] theorem value?_drop_self : (s.drop declaring name).value? declaring name = none := by
  rw [value?_drop, if_pos rfl]

section Fill

variable {s declaring name} {sig : TypeSig} {fits : Value → Bool} {revealed : Option Value}
  {value : Value}

/-- An entry that was written meanwhile wins. -/
theorem fill_of_held (held : s.value? declaring name = some value) :
    s.fill declaring name sig fits revealed = ((value, .stored), s) := by
  unfold fill
  rw [held]

theorem fill_of_revealed (vacant : s.value? declaring name = none)
    (found : revealed = some value) (conforms : fits value = true) :
    s.fill declaring name sig fits revealed =
      ((value, .revealed), s.set declaring name value) := by
  unfold fill
  rw [vacant, Option.filter_eq_some_iff.2 ⟨found, conforms⟩]

theorem fill_of_default (vacant : s.value? declaring name = none)
    (unfit : ∀ value, revealed = some value → fits value = false) :
    s.fill declaring name sig fits revealed =
      ((.zeroOf sig, .default), s.set declaring name (.zeroOf sig)) := by
  have nothing : revealed.filter fits = none :=
    Option.filter_eq_none_iff.2 fun value found => by simp [unfit value found]
  unfold fill
  rw [vacant, nothing]

end Fill

section Get

variable {s declaring name} {sig : TypeSig} {policy : FieldPolicy} {fits : Value → Bool}
  {reveal : FieldStore → Option Value × FieldStore} {value : Value}

theorem get_of_fits (held : s.value? declaring name = some value) (conforms : fits value = true) :
    s.get declaring name sig policy fits reveal = (.ok (value, .stored), s) := by
  unfold get probe
  simp only [held, if_pos conforms]

theorem get_of_refuse (held : s.value? declaring name = some value)
    (unfit : fits value = false) :
    s.get declaring name sig .refuse fits reveal =
      (.error (.fieldTypeMismatch declaring name sig.text), s) := by
  unfold get probe
  simp only [held, unfit, Bool.false_eq_true, if_false]

theorem get_of_vacant (vacant : s.value? declaring name = none) :
    s.get declaring name sig policy fits reveal =
      (.ok ((reveal s).2.fill declaring name sig fits (reveal s).1).1,
        ((reveal s).2.fill declaring name sig fits (reveal s).1).2) := by
  unfold get probe
  simp only [vacant]

/-- A read that drops its entry goes on as on a store without it. -/
theorem get_of_discard (held : s.value? declaring name = some value)
    (unfit : fits value = false) :
    s.get declaring name sig .discard fits reveal =
      (s.drop declaring name).get declaring name sig .discard fits reveal := by
  rw [get_of_vacant (s.value?_drop_self declaring name)]
  unfold get probe
  simp only [held, unfit, Bool.false_eq_true, if_false]
  rfl

end Get

/-- A read finds no entry to answer with, and leaves a store behind while it looks for the
value that the type used to inherit. -/
inductive Unanswered (s : FieldStore) (declaring name : String) (policy : FieldPolicy)
    (fits : Value → Bool) : FieldStore → Prop
  | absent (vacant : s.value? declaring name = none) : Unanswered s declaring name policy fits s
  | dropped {value : Value} (held : s.value? declaring name = some value)
      (unfit : fits value = false) (discards : policy = .discard) :
      Unanswered s declaring name policy fits (s.drop declaring name)

section Answers

variable {s declaring name} {policy : FieldPolicy} {fits : Value → Bool} {left : FieldStore}

theorem Unanswered.vacant (unanswered : s.Unanswered declaring name policy fits left) :
    left.value? declaring name = none := by
  cases unanswered with
  | absent vacant => exact vacant
  | dropped => exact s.value?_drop_self declaring name

/-- What the second look answers is the answer of the read. -/
theorem Unanswered.get_eq (unanswered : s.Unanswered declaring name policy fits left)
    (sig : TypeSig) (reveal : FieldStore → Option Value × FieldStore) :
    s.get declaring name sig policy fits reveal =
      (.ok ((reveal left).2.fill declaring name sig fits (reveal left).1).1,
        ((reveal left).2.fill declaring name sig fits (reveal left).1).2) := by
  cases unanswered with
  | absent vacant => exact get_of_vacant vacant
  | dropped held unfit discards =>
    subst discards
    rw [get_of_discard held unfit, get_of_vacant (s.value?_drop_self declaring name)]

/-- The three ways in which the first look ends. -/
theorem get_cases (s : FieldStore) (declaring name : String) (sig : TypeSig)
    (policy : FieldPolicy) (fits : Value → Bool)
    (reveal : FieldStore → Option Value × FieldStore) :
    (∃ value, s.value? declaring name = some value ∧ fits value = true ∧
      s.get declaring name sig policy fits reveal = (.ok (value, .stored), s)) ∨
    (∃ value, s.value? declaring name = some value ∧ fits value = false ∧ policy = .refuse ∧
      s.get declaring name sig policy fits reveal =
        (.error (.fieldTypeMismatch declaring name sig.text), s)) ∨
    ∃ left, s.Unanswered declaring name policy fits left := by
  cases held : s.value? declaring name with
  | none => exact .inr (.inr ⟨s, .absent held⟩)
  | some value =>
    cases fitting : fits value with
    | true => exact .inl ⟨value, rfl, fitting, get_of_fits held fitting⟩
    | false =>
      cases policy with
      | refuse => exact .inr (.inl ⟨value, rfl, fitting, rfl, get_of_refuse held fitting⟩)
      | discard => exact .inr (.inr ⟨_, .dropped held fitting rfl⟩)

/-- The three ways in which the second look ends. -/
theorem fill_cases (s : FieldStore) (declaring name : String) (sig : TypeSig)
    (fits : Value → Bool) (revealed : Option Value) :
    (∃ value, s.value? declaring name = some value ∧
      s.fill declaring name sig fits revealed = ((value, .stored), s)) ∨
    (∃ value, s.value? declaring name = none ∧ revealed = some value ∧ fits value = true ∧
      s.fill declaring name sig fits revealed =
        ((value, .revealed), s.set declaring name value)) ∨
    s.value? declaring name = none ∧
      s.fill declaring name sig fits revealed =
        ((.zeroOf sig, .default), s.set declaring name (.zeroOf sig)) := by
  cases second : s.value? declaring name with
  | some value => exact .inl ⟨value, rfl, fill_of_held second⟩
  | none =>
    by_cases fitting : ∃ value, revealed = some value ∧ fits value = true
    · obtain ⟨value, found, conforms⟩ := fitting
      exact .inr (.inl ⟨value, rfl, found, conforms, fill_of_revealed second found conforms⟩)
    · have unfit : ∀ value, revealed = some value → fits value = false := fun value found =>
        Bool.eq_false_iff.2 fun conforms => fitting ⟨value, found, conforms⟩
      exact .inr (.inr ⟨rfl, fill_of_default second unfit⟩)

/-- What a vacant entry is filled with fits, when the default does. -/
theorem fill_fits {sig : TypeSig} (fits : Value → Bool) (zero : fits (.zeroOf sig) = true)
    (vacant : left.value? declaring name = none) (revealed : Option Value) :
    fits (left.fill declaring name sig fits revealed).1.1 = true := by
  rcases left.fill_cases declaring name sig fits revealed with
    ⟨value, held, -⟩ | ⟨value, -, -, conforms, filled⟩ | ⟨-, filled⟩
  · cases vacant.symm.trans held
  · rw [filled]
    exact conforms
  · rw [filled]
    exact zero

/-- The second look writes at most to the entry that is read. -/
theorem fill_store (s : FieldStore) (declaring name : String) (sig : TypeSig)
    (fits : Value → Bool) (revealed : Option Value) :
    (∃ value, s.value? declaring name = some value ∧
      (s.fill declaring name sig fits revealed).2 = s) ∨
    ∃ value, (s.fill declaring name sig fits revealed).2 = s.set declaring name value := by
  rcases s.fill_cases declaring name sig fits revealed with
    ⟨value, held, filled⟩ | ⟨value, -, -, -, filled⟩ | ⟨-, filled⟩
  · exact .inl ⟨value, held, by rw [filled]⟩
  · exact .inr ⟨value, by rw [filled]⟩
  · exact .inr ⟨_, by rw [filled]⟩

/-- Whatever the answer is, it has an entry. -/
theorem fill_contains (s : FieldStore) (declaring name : String) (sig : TypeSig)
    (fits : Value → Bool) (revealed : Option Value) :
    (s.fill declaring name sig fits revealed).2.contains declaring name = true := by
  rcases s.fill_store declaring name sig fits revealed with
    ⟨value, held, filled⟩ | ⟨value, filled⟩
  · rw [filled]
    exact Option.isSome_iff_exists.2 ⟨value, held⟩
  · rw [filled]
    exact contains_set ..

/-- What is revealed is what was found above, and it becomes the entry. -/
theorem revealed_of_get {s s' : FieldStore} {sig : TypeSig}
    {reveal : FieldStore → Option Value × FieldStore} {value : Value}
    (answer : s.get declaring name sig policy fits reveal = (.ok (value, .revealed), s')) :
    ∃ left, s.Unanswered declaring name policy fits left ∧ (reveal left).1 = some value ∧
      fits value = true ∧ s'.value? declaring name = some value := by
  rcases s.get_cases declaring name sig policy fits reveal with
    ⟨_, _, _, stored⟩ | ⟨_, _, _, _, refused⟩ | ⟨left, unanswered⟩
  · cases stored.symm.trans answer
  · cases refused.symm.trans answer
  · refine ⟨left, unanswered, ?_⟩
    rw [unanswered.get_eq] at answer
    rcases (reveal left).2.fill_cases declaring name sig fits (reveal left).1 with
      ⟨_, _, filled⟩ | ⟨_, _, found, conforms, filled⟩ | ⟨_, filled⟩
    · rw [filled] at answer
      cases answer
    · rw [filled] at answer
      cases answer
      exact ⟨found, conforms, by rw [value?_set, if_pos rfl]⟩
    · rw [filled] at answer
      cases answer

end Answers

end FieldStore

/-- The default of a type conforms to it. -/
theorem Value.conforms_zeroOf (e : Engine) {sig : TypeSig} (typed : sig ≠ .void) :
    (Value.zeroOf sig).conforms e sig = true := by
  cases sig with
  | void => exact absurd rfl typed
  | _ => rfl

/-- A read answers with a value of the type that it asks for, unless a value of another type
is written to its entry between its two looks; the read answers with what is written then,
whatever it is. -/
theorem store_reads_conform_iff (e : Engine) (s : FieldStore) (declaring name : String)
    (sig : TypeSig) (policy : FieldPolicy) (reveal : FieldStore → Option Value × FieldStore)
    (typed : sig ≠ .void) :
    ((∀ value source s',
        s.get declaring name sig policy (fun v => v.conforms e sig) reveal =
          (.ok (value, source), s') → value.conforms e sig = true) ↔
      ∀ left, s.Unanswered declaring name policy (fun v => v.conforms e sig) left →
        ∀ value, (reveal left).2.value? declaring name = some value →
          value.conforms e sig = true) ∧
    ∀ left, s.Unanswered declaring name policy (fun v => v.conforms e sig) left →
      ∀ value, (reveal left).2.value? declaring name = some value →
        s.get declaring name sig policy (fun v => v.conforms e sig) reveal =
          (.ok (value, .stored), (reveal left).2) := by
  have overtaken : ∀ left, s.Unanswered declaring name policy (fun v => v.conforms e sig) left →
      ∀ value, (reveal left).2.value? declaring name = some value →
        s.get declaring name sig policy (fun v => v.conforms e sig) reveal =
          (.ok (value, .stored), (reveal left).2) := by
    intro left unanswered value written
    rw [unanswered.get_eq, FieldStore.fill_of_held written]
  refine ⟨⟨fun conforms left unanswered value written =>
      conforms _ _ _ (overtaken left unanswered value written),
    fun written value source s' read => ?_⟩, overtaken⟩
  rcases s.get_cases declaring name sig policy (fun v => v.conforms e sig) reveal with
    ⟨stored, -, conforms, answer⟩ | ⟨-, -, -, -, answer⟩ | ⟨left, unanswered⟩
  · rw [answer] at read
    cases read
    exact conforms
  · rw [answer] at read
    cases read
  · cases second : (reveal left).2.value? declaring name with
    | some found =>
      rw [overtaken left unanswered found second] at read
      cases read
      exact written left unanswered value second
    | none =>
      have filled := FieldStore.fill_fits (fun v => v.conforms e sig)
        (Value.conforms_zeroOf e typed) second (reveal left).1
      rw [unanswered.get_eq] at read
      have same := Except.ok.inj (congrArg Prod.fst read)
      rw [same] at filled
      exact filled

namespace Overtaken

/-- Nothing was inherited, and meanwhile a value is written to the entry that is read. -/
def writing (value : Value) (s : FieldStore) : Option Value × FieldStore :=
  (none, s.set "app.A" "x" value)

/-- What an empty store answers to a read of an integer while a value is written. -/
theorem answers (value : Value) :
    ({} : FieldStore).get "app.A" "x" .int .refuse (fun v => v.conforms {} .int)
      (writing value) = (.ok (value, .stored), { entries := [(("app.A", "x"), value)] }) := by
  rw [FieldStore.get_of_vacant rfl, FieldStore.fill_of_held rfl]
  rfl

end Overtaken

/-- With an integer written in between, the read of an integer answers with it. -/
theorem store_reads_conform_racing :
    (∀ value source s',
      ({} : FieldStore).get "app.A" "x" .int .refuse (fun v => v.conforms {} .int)
        (Overtaken.writing (.int 5)) = (.ok (value, source), s') →
        value.conforms {} .int = true) ∧
    ({} : FieldStore).get "app.A" "x" .int .refuse (fun v => v.conforms {} .int)
      (Overtaken.writing (.int 5)) =
        (.ok (.int 5, .stored), { entries := [(("app.A", "x"), .int 5)] }) := by
  have reads := store_reads_conform_iff {} {} "app.A" "x" .int .refuse
    (Overtaken.writing (.int 5)) (by decide)
  refine ⟨reads.1.2 fun left unanswered value written => ?_,
    reads.2 _ (.absent rfl) (.int 5) rfl⟩
  rw [Overtaken.writing, FieldStore.value?_set, if_pos rfl] at written
  cases written
  rfl

/-- With a string written in between, the read of an integer answers with the string, also
under the policy to refuse what does not fit. -/
theorem store_reads_conform_overtaken :
    ¬ ∀ (e : Engine) (s : FieldStore) (declaring name : String) (sig : TypeSig)
      (policy : FieldPolicy) (reveal : FieldStore → Option Value × FieldStore), sig ≠ .void →
      ∀ value source s',
        s.get declaring name sig policy (fun v => v.conforms e sig) reveal =
          (.ok (value, source), s') → value.conforms e sig = true := by
  intro conform
  have conforms := conform {} {} "app.A" "x" .int .refuse (Overtaken.writing (.str "text"))
    (by decide) _ _ _ (Overtaken.answers (.str "text"))
  cases conforms

end LiveUpdate
