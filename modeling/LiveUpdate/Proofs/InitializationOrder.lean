import LiveUpdate.Proofs.Assembling
import LiveUpdate.Proofs.Recordings

/-!
# The order of static initialization

The progress of static initialization can be read off an account: a class that waits begins, and
what runs is over later.  Nothing that began before stays behind, since the end of an
initialization is reached with an error too.  A class begins after its superclasses have begun,
as they are initialized before it.
-/

set_option autoImplicit false

namespace LiveUpdate

open Exec

/-- The class whose initialization begins in an occurrence. -/
def Occurrence.begun? : Occurrence → Option ClassRef
  | begins c _ => some c
  | executes _ | finishes _ _ => none

/-- The classes whose initialization begins in an account, one after another. -/
def begunIn (account : List Occurrence) : List ClassRef := account.filterMap Occurrence.begun?

theorem mem_begunIn {account : List Occurrence} {c : ClassRef} :
    c ∈ begunIn account ↔ ∃ e, .begins c e ∈ account := by
  unfold begunIn
  rw [List.mem_filterMap]
  refine ⟨fun ⟨o, mem, begun⟩ => ?_, fun ⟨e, mem⟩ => ⟨_, mem, rfl⟩⟩
  cases o with
  | begins d e =>
    cases begun
    exact ⟨e, mem⟩
  | executes | finishes => cases begun

/-- An account leads from one progress of all classes to another.  Every occurrence finds the
progress that those before it have left.  A class begins if it waits, and is over if it runs. -/
inductive Replays :
    (ClassRef → InitState) → List Occurrence → (ClassRef → InitState) → Prop
  | nothing (p : ClassRef → InitState) : Replays p [] p
  | executes {p q : ClassRef → InitState} {now : Moment} {rest : List Occurrence}
    (found : now.engine.progress = p) (next : Replays p rest q) :
    Replays p (.executes now :: rest) q
  | begins {p q : ClassRef → InitState} {c : ClassRef} {e : Engine} {rest : List Occurrence}
    (found : e.progress = p) (waits : p c = .pending)
    (next : Replays (Function.update p c .running) rest q) : Replays p (.begins c e :: rest) q
  | finishes {p q : ClassRef → InitState} {c : ClassRef} {e : Engine} {rest : List Occurrence}
    (found : e.progress = p) (runs : p c = .running)
    (next : Replays (Function.update p c .done) rest q) : Replays p (.finishes c e :: rest) q

namespace Replays

variable {p q r : ClassRef → InitState} {account rest : List Occurrence}

theorem append (first : Replays p account q) (next : Replays q rest r) :
    Replays p (account ++ rest) r := by
  induction first with
  | nothing => exact next
  | executes found _ ih => exact .executes found (ih next)
  | begins found waits _ ih => exact .begins found waits (ih next)
  | finishes found runs _ ih => exact .finishes found runs (ih next)

/-- What is over stays over, and what has begun does not wait again. -/
theorem forward (replays : Replays p account q) (c : ClassRef) :
    (p c = .done → q c = .done) ∧ (p c ≠ .pending → q c ≠ .pending) := by
  induction replays with
  | nothing => exact ⟨id, id⟩
  | executes _ _ ih => exact ih
  | @begins p q d e rest found waits next ih =>
    refine ⟨fun done => ih.1 ?_, fun begun => ih.2 ?_⟩
    · rw [Function.update_of_ne (by rintro rfl; rw [done] at waits; cases waits), done]
    · rw [Function.update_of_ne (by rintro rfl; exact begun waits)]
      exact begun
  | @finishes p q d e rest found runs next ih =>
    by_cases same : c = d
    · subst same
      have finished : Function.update p c .done c = .done := Function.update_self ..
      exact ⟨fun _ => ih.1 finished, fun _ => ih.2 (by rw [finished]; decide)⟩
    · rw [Function.update_of_ne same] at ih
      exact ih

/-- What does not wait afterwards did not wait before, or has begun. -/
theorem started (replays : Replays p account q) {c : ClassRef} (begun : q c ≠ .pending) :
    p c ≠ .pending ∨ c ∈ begunIn account := by
  induction replays with
  | nothing => exact .inl begun
  | executes _ _ ih => exact ih begun
  | @begins p q d e rest found waits next ih =>
    show _ ∨ c ∈ d :: begunIn rest
    by_cases same : c = d
    · exact .inr (same ▸ List.mem_cons_self)
    · have before := ih begun
      rw [Function.update_of_ne same] at before
      exact before.imp_right (List.mem_cons_of_mem d)
  | @finishes p q d e rest found runs next ih =>
    by_cases same : c = d
    · subst same
      rw [runs]
      exact .inl (by decide)
    · have before := ih begun
      rw [Function.update_of_ne same] at before
      exact before

/-- What comes before an occurrence leads to the progress that it finds. -/
theorem until_ {o : Occurrence} (replays : Replays p (account ++ o :: rest) q) :
    Replays p account o.engine.progress := by
  induction account generalizing p with
  | nil =>
    have found : o.engine.progress = p := by
      cases replays with
      | executes found | begins found | finishes found => exact found
    rw [found]
    exact .nothing p
  | cons first account ih =>
    cases replays with
    | executes found next => exact .executes found (ih next)
    | begins found waits next => exact .begins found waits (ih next)
    | finishes found runs next => exact .finishes found runs (ih next)

/-- Every class begins once at most, and only one that waited before. -/
theorem begun_once (replays : Replays p account q) :
    (begunIn account).Nodup ∧ ∀ c ∈ begunIn account, p c = .pending ∧ q c ≠ .pending := by
  induction replays with
  | nothing => exact ⟨List.nodup_nil, fun c mem => nomatch mem⟩
  | executes _ _ ih => exact ih
  | @begins p q d e rest found waits next ih =>
    have runs : Function.update p d .running d = .running := Function.update_self ..
    have elsewhere {c : ClassRef} (mem : c ∈ begunIn rest) : c ≠ d := by
      rintro rfl
      have later := (ih.2 c mem).1
      rw [runs] at later
      cases later
    show (d :: begunIn rest).Nodup ∧ ∀ c ∈ d :: begunIn rest, _
    refine ⟨List.nodup_cons.2 ⟨fun mem => elsewhere mem rfl, ih.1⟩, fun c mem => ?_⟩
    rcases List.mem_cons.1 mem with rfl | mem
    · exact ⟨waits, (next.forward c).2 (by rw [runs]; decide)⟩
    · have later := ih.2 c mem
      rw [Function.update_of_ne (elsewhere mem)] at later
      exact later
  | @finishes p q d e rest found runs next ih =>
    refine ⟨ih.1, fun c mem => ?_⟩
    have later := ih.2 c mem
    by_cases same : c = d
    · subst same
      rw [Function.update_self] at later
      cases later.1
    · rw [Function.update_of_ne same] at later
      exact later

end Replays

namespace Engine

variable {e e' e'' : Engine} {c : ClassRef}

theorem progress_updateInit (exists_ : c < e.classes.size) (init : InitState) :
    (e.updateClass c fun cls => { cls with init }).progress =
      Function.update e.progress c init := by
  funext d
  have at_ := getD_map (e.updateClass c fun cls => { cls with init }).classes Class.init d default
  unfold progress
  by_cases lt : d < e.classes.size
  · have here : (e.updateClass c fun cls => { cls with init }).classAt d = _ :=
      getD_modify e.classes c (fun cls => { cls with init }) d default lt
    rw [here]
    by_cases same : c = d
    · subst same
      rw [if_pos rfl, Function.update_self]
    · rw [if_neg same, Function.update_of_ne (Ne.symm same)]
      rfl
  · have beyond : e.classes.size ≤ d := Nat.le_of_not_lt lt
    have other : d ≠ c := by
      rintro rfl
      exact lt exists_
    rw [Function.update_of_ne other, classAt_of_le beyond, classAt_of_le]
    rw [updateClass, Array.size_modify]
    exact beyond

theorem progress_beginInit (exists_ : c < e.classes.size) (waits : e.progress c = .pending) :
    (e.beginInit c).2.progress = Function.update e.progress c .running := by
  have waits : (e.classAt c).init = .pending := waits
  unfold beginInit
  rw [if_pos waits]
  exact progress_updateInit exists_ .running

theorem progress_finishInit (exists_ : c < e.classes.size) :
    (e.finishInit c).progress = Function.update e.progress c .done :=
  progress_updateInit exists_ .done

/-- An account says what has become of static initializations, and after it the same of them are
running as before. -/
structure Replayed (e : Engine) (account : List Occurrence) (e' : Engine) : Prop where
  skeleton : e'.skeleton = e.skeleton
  replays : Replays e.progress account e'.progress
  settles : ∀ c, e'.progress c = .running ↔ e.progress c = .running

theorem Replayed.nothing (same : e'.outline = e.outline) : e.Replayed [] e' := by
  have progress : e'.progress = e.progress := congrArg Prod.snd same
  refine ⟨congrArg Prod.fst same, ?_, fun c => by rw [progress]⟩
  rw [progress]
  exact .nothing _

theorem Replayed.append {account rest : List Occurrence} (first : e.Replayed account e')
    (next : e'.Replayed rest e'') : e.Replayed (account ++ rest) e'' where
  skeleton := next.skeleton.trans first.skeleton
  replays := first.replays.append next.replays
  settles c := (next.settles c).trans (first.settles c)

/-- What began in an account is over after it. -/
theorem Replayed.done {account : List Occurrence} (replayed : e.Replayed account e')
    (mem : c ∈ begunIn account) : e'.progress c = .done := by
  obtain ⟨waits, begun⟩ := replayed.replays.begun_once.2 c mem
  cases state : e'.progress c with
  | pending => exact absurd state begun
  | running =>
    rw [(replayed.settles c).1 state] at waits
    cases waits
  | done => rfl

/-- The first class of a list extends those after it. -/
def Lineal (e : Engine) (classes : List ClassRef) : Prop :=
  ∀ a above, classes = a :: above → (e.classAt a).superclasses = above

/-- The superclasses of a class exist, and those of a superclass are those that come after it. -/
structure Unbranched (e : Engine) : Prop where
  lineal : ∀ c, e.Lineal (e.classAt c).superclasses
  exist : ∀ c, ∀ d ∈ (e.classAt c).superclasses, d < e.classes.size

theorem Described.unbranched (described : e.Described) : e.Unbranched where
  lineal c a above chain := by
    have mine := (described.superclasses_eq c).1
    rw [chain] at mine
    split at mine
    · cases mine
      rfl
    · cases mine
  exist c d mem := Nat.lt_trans (described.superclass_lt d mem)
    (lt_of_classAt (fun cls => d ∈ cls.superclasses) mem fun none => nomatch none)

/-- Classes are initialized after those that they extend: where a class has begun, its
superclasses have. -/
def TopDown (e : Engine) : Prop :=
  ∀ c, e.progress c ≠ .pending → ∀ d ∈ (e.classAt c).superclasses, e.progress d ≠ .pending

/-- The initializations that begin in an account do so after those of the superclasses. -/
def Ordered (e : Engine) (account : List Occurrence) : Prop :=
  ∀ c now, .begins c now ∈ account → ∀ d ∈ (e.classAt c).superclasses, now.progress d ≠ .pending

section Skeleton

variable (same : e'.skeleton = e.skeleton)
include same

theorem superclasses_of_skeleton_eq (c : ClassRef) :
    (e'.classAt c).superclasses = (e.classAt c).superclasses := by
  have bones := congrArg Class.superclasses (classAt_of_skeleton_eq same c)
  exact bones

theorem Unbranched.of_skeleton_eq (unbranched : e.Unbranched) : e'.Unbranched where
  lineal c a above chain := by
    rw [superclasses_of_skeleton_eq same] at chain ⊢
    exact unbranched.lineal c a above chain
  exist c d mem := by
    rw [superclasses_of_skeleton_eq same] at mem
    rw [(During.of_skeleton_eq same).classes_size]
    exact unbranched.exist c d mem

/-- Progress keeps the order when what begins does so after its superclasses. -/
theorem TopDown.forward (topDown : e.TopDown)
    (kept : ∀ c, e.progress c ≠ .pending → e'.progress c ≠ .pending)
    (new : ∀ c, e'.progress c ≠ .pending → e.progress c ≠ .pending ∨
      ∀ d ∈ (e.classAt c).superclasses, e.progress d ≠ .pending) : e'.TopDown := by
  intro c begun d mem
  rw [superclasses_of_skeleton_eq same] at mem
  rcases new c begun with before | started
  · exact kept d (topDown c before d mem)
  · exact kept d (started d mem)

theorem Ordered.append {account rest : List Occurrence} (first : e.Ordered account)
    (next : e'.Ordered rest) : e.Ordered (account ++ rest) := by
  intro c now mem
  rcases List.mem_append.1 mem with mem | mem
  · exact first c now mem
  · rw [← superclasses_of_skeleton_eq same]
    exact next c now mem

end Skeleton

/-- What an account says about static initializations, and that their order is kept in it. -/
structure Unrolls (e : Engine) (account : List Occurrence) (e' : Engine) : Prop
    extends e.Replayed account e' where
  ordered : e.Unbranched → e.TopDown → e'.TopDown ∧ e.Ordered account

theorem Unrolls.nothing (same : e'.outline = e.outline) : e.Unrolls [] e' where
  toReplayed := .nothing same
  ordered _ topDown := by
    have progress : e'.progress = e.progress := congrArg Prod.snd same
    refine ⟨topDown.forward (congrArg Prod.fst same) ?_ ?_, fun c now mem => nomatch mem⟩
    · rw [progress]
      exact fun _ => id
    · rw [progress]
      exact fun _ => .inl

theorem Unrolls.append {account rest : List Occurrence} (first : e.Unrolls account e')
    (next : e'.Unrolls rest e'') : e.Unrolls (account ++ rest) e'' := by
  refine ⟨first.toReplayed.append next.toReplayed, fun unbranched topDown => ?_⟩
  obtain ⟨topDown', before⟩ := first.ordered unbranched topDown
  obtain ⟨topDown'', behind⟩ := next.ordered (unbranched.of_skeleton_eq first.skeleton) topDown'
  exact ⟨topDown'', before.append first.skeleton behind⟩

/-- Nothing of this depends on the depth. -/
theorem Unrolls.setDepth {account : List Occurrence} {depth : Nat}
    (inner : ({ e with depth } : Engine).Unrolls account e') :
    e.Unrolls account { e' with depth := e.depth } where
  skeleton := congrArg (fun bones : Engine => { bones with depth := e.depth }) inner.skeleton
  replays := inner.replays
  settles := inner.settles
  ordered unbranched := inner.ordered ⟨unbranched.lineal, unbranched.exist⟩

section Initialization

variable {inside : List Occurrence} {last : Engine} (exists_ : c < e.classes.size)
  (waits : e.progress c = .pending)
include exists_ waits

/-- The initialization of a class around what its static initializer does. -/
theorem Replayed.around (ran : (e.beginInit c).2.Replayed inside last) :
    e.Replayed (.begins c e :: (inside ++ [.finishes c last])) (last.finishInit c) := by
  have begun := progress_beginInit exists_ waits
  have same := ran.skeleton.trans (e.skeleton_beginInit c)
  have finished : (last.finishInit c).progress = Function.update last.progress c .done :=
    progress_finishInit ((During.of_skeleton_eq same).classes_size.symm ▸ exists_)
  have runs : last.progress c = .running := by
    rw [ran.settles, begun]
    exact Function.update_self ..
  refine ⟨(last.skeleton_finishInit c).trans same, ?_, fun d => ?_⟩
  · refine .begins rfl waits ?_
    rw [← begun]
    refine ran.replays.append (.finishes rfl runs ?_)
    rw [finished]
    exact .nothing _
  · rw [finished]
    by_cases here : d = c
    · subst here
      rw [Function.update_self, waits]
      decide
    · rw [Function.update_of_ne here, ran.settles, begun, Function.update_of_ne here]

/-- When all superclasses have begun, the order is kept. -/
theorem Unrolls.around (started : ∀ d ∈ (e.classAt c).superclasses, e.progress d ≠ .pending)
    (ran : (e.beginInit c).2.Unrolls inside last) :
    e.Unrolls (.begins c e :: (inside ++ [.finishes c last])) (last.finishInit c) := by
  have replayed := ran.toReplayed.around exists_ waits
  refine ⟨replayed, fun unbranched topDown => ?_⟩
  have begun := progress_beginInit exists_ waits
  have same := ran.skeleton.trans (e.skeleton_beginInit c)
  have finished : (last.finishInit c).progress = Function.update last.progress c .done :=
    progress_finishInit ((During.of_skeleton_eq same).classes_size.symm ▸ exists_)
  have runs : last.progress c = .running := by
    rw [ran.settles, begun]
    exact Function.update_self ..
  have topDown₁ : (e.beginInit c).2.TopDown := by
    refine topDown.forward (e.skeleton_beginInit c) (fun d before => ?_) fun d after => ?_
    all_goals
      by_cases here : d = c
    · subst here
      exact absurd waits before
    · rw [begun, Function.update_of_ne here]
      exact before
    · subst here
      exact .inr started
    · rw [begun, Function.update_of_ne here] at after
      exact .inl after
  obtain ⟨topDown₂, within⟩ := ran.ordered (unbranched.of_skeleton_eq (e.skeleton_beginInit c)) topDown₁
  refine ⟨topDown₂.forward (last.skeleton_finishInit c) (fun d before => ?_) fun d after => ?_, ?_⟩
  · rw [finished]
    by_cases here : d = c
    · subst here
      rw [Function.update_self]
      decide
    · rw [Function.update_of_ne here]
      exact before
  · refine .inl ?_
    by_cases here : d = c
    · subst here
      rw [runs]
      decide
    · rw [finished, Function.update_of_ne here] at after
      exact after
  · intro d now mem
    rcases List.mem_cons.1 mem with begins | mem
    · cases begins
      exact started
    rcases List.mem_append.1 mem with mem | mem
    · rw [← superclasses_of_skeleton_eq (e.skeleton_beginInit c)]
      exact within d now mem
    · cases List.mem_singleton.1 mem

end Initialization

end Engine

section Initializes

open Engine

variable {m : Machine} {told : Accounts} {classes : List ClassRef} {e : Engine}
  {account : List Occurrence}

/-- The initialization of classes replays its account when calls do. -/
theorem Initializes.replayed
    (calls : ∀ c method args e account, told c method args e account →
      e.Replayed account ((m.call c method args).final e))
    (init : Initializes m told classes e account) :
    e.Replayed account ((m.initializeAll classes).final e) := by
  -- along the superclasses, which are initialized first
  induction init with
  | top e => exact .nothing rfl
  | finished done =>
    rw [final_of_ok (Machine.initializeAll_done m done)]
    exact .nothing rfl
  | fails todo fails before ih =>
    rw [final_of_error fails] at ih
    rw [final_of_error (Machine.initializeAll_of_error todo fails)]
    exact ih
  | begun todo made before begun ih =>
    rw [final_of_ok made] at ih
    rw [final_of_ok (Machine.initializeAll_of_begun todo made begun)]
    exact ih
  | missing todo made before missing ih =>
    rw [final_of_ok made] at ih
    rw [final_of_ok (Machine.initializeAll_of_missing todo made missing)]
    exact ih
  | runs todo made before waits exists_ init ih =>
    rw [final_of_ok made] at ih
    rw [Machine.final_initializeAll todo made waits]
    have ran := told.leads_ofStaticInit (fun _ => Replayed.nothing rfl) calls init
    exact ih.append (ran.around exists_ waits)

/-- The initialization of a class keeps the order when calls do.  If it comes to its end, the class
and its superclasses have begun. -/
theorem Initializes.ordered
    (calls : ∀ c method args e account, told c method args e account →
      e.Unrolls account ((m.call c method args).final e))
    (init : Initializes m told classes e account) (lineal : e.Lineal classes)
    (unbranched : e.Unbranched) (topDown : e.TopDown) :
    ((m.initializeAll classes).final e).TopDown ∧ e.Ordered account ∧
      ∀ e', m.initializeAll classes e = .ok () e' →
        ∀ d ∈ classes, d < e.classes.size → e'.progress d ≠ .pending := by
  have replays {classes : List ClassRef} {e : Engine} {account : List Occurrence}
      (init : Initializes m told classes e account) :
      e.Replayed account ((m.initializeAll classes).final e) :=
    init.replayed fun c method args e account told =>
      (calls c method args e account told).toReplayed
  induction init with
  | top e =>
    exact ⟨topDown, fun c now mem => (nomatch mem), fun e' made d mem => (nomatch mem)⟩
  | @finished c above e done =>
    have made : m.initializeAll (c :: above) e = .ok () e := m.initializeAll_done done
    rw [final_of_ok made]
    refine ⟨topDown, fun c now mem => (nomatch mem), fun e' made' d mem lt => ?_⟩
    rw [made] at made'
    cases made'
    have begun : e.progress c ≠ .pending := by
      rw [show e.progress c = .done from done]
      decide
    rcases List.mem_cons.1 mem with rfl | mem
    · exact begun
    · rw [← lineal c above rfl] at mem
      exact topDown c begun d mem
  | @fails c above e e' stop account todo fails before ih =>
    have above_ := ih (lineal c above rfl ▸ unbranched.lineal c) unbranched topDown
    rw [final_of_error fails] at above_
    have fails' := Machine.initializeAll_of_error todo fails
    rw [final_of_error fails']
    refine ⟨above_.1, above_.2.1, fun e'' made => ?_⟩
    rw [fails'] at made
    cases made
  | @begun c above e e' account todo made before begun ih =>
    have above_ := ih (lineal c above rfl ▸ unbranched.lineal c) unbranched topDown
    rw [final_of_ok made] at above_
    have made' := Machine.initializeAll_of_begun todo made begun
    rw [final_of_ok made']
    refine ⟨above_.1, above_.2.1, fun e'' made'' d mem lt => ?_⟩
    rw [made'] at made''
    cases made''
    rcases List.mem_cons.1 mem with rfl | mem
    · exact begun
    · exact above_.2.2 e' made d mem lt
  | @missing c above e e' account todo made before missing ih =>
    have above_ := ih (lineal c above rfl ▸ unbranched.lineal c) unbranched topDown
    have kept := (replays before).skeleton
    rw [final_of_ok made] at above_ kept
    have made' := Machine.initializeAll_of_missing todo made missing
    rw [final_of_ok made']
    refine ⟨above_.1, above_.2.1, fun e'' made'' d mem lt => ?_⟩
    rw [made'] at made''
    cases made''
    rcases List.mem_cons.1 mem with rfl | mem
    · rw [(During.of_skeleton_eq kept).classes_size] at missing
      exact absurd lt (Nat.not_lt_of_le missing)
    · exact above_.2.2 e' made d mem lt
  | @runs c above e e' account inside todo made before waits exists_ init ih =>
    have above_ := ih (lineal c above rfl ▸ unbranched.lineal c) unbranched topDown
    have kept := (replays before).skeleton
    rw [final_of_ok made] at above_ kept
    have size := (During.of_skeleton_eq kept).classes_size
    have ran := told.leads_ofStaticInit (fun _ => Unrolls.nothing rfl) calls init
    have started : ∀ d ∈ (e'.classAt c).superclasses, e'.progress d ≠ .pending := by
      intro d mem
      rw [superclasses_of_skeleton_eq kept] at mem
      have lt := unbranched.exist c d mem
      rw [lineal c above rfl] at mem
      exact above_.2.2 e' made d mem lt
    have whole := ran.around exists_ waits started
    obtain ⟨topDown', behind⟩ := whole.ordered (unbranched.of_skeleton_eq kept) above_.1
    have final := Machine.final_initializeAll todo made waits
    rw [final]
    refine ⟨topDown', above_.2.1.append kept behind, fun e'' made'' d mem lt => ?_⟩
    rw [final_of_ok made''] at final
    rw [final]
    have forward := (whole.replays.forward d).2
    rcases List.mem_cons.1 mem with rfl | mem
    · have finished := whole.toReplayed.done (c := d) List.mem_cons_self
      rw [finished]
      decide
    · exact forward (above_.2.2 e' made d mem lt)

end Initializes

/-- Every computation unrolls its static initializations in order. -/
def AccountLaw.initialization (s : ScopeRef) : AccountLaw s where
  leads := Engine.Unrolls
  runs _ := True
  still := Engine.Unrolls.nothing
  append := Engine.Unrolls.append
  goesOn _ _ := trivial
  executes _ led := by
    refine ⟨⟨led.skeleton, .executes rfl led.replays, led.settles⟩, fun unbranched topDown => ?_⟩
    obtain ⟨after, ordered⟩ := led.ordered unbranched topDown
    refine ⟨after, fun c now mem => ?_⟩
    rcases List.mem_cons.1 mem with executes | mem
    · cases executes
    · exact ordered c now mem
  forwards := Engine.Unrolls.setDepth
  enters _ := trivial
  counts {e e' account} led := by
    have depth : e'.depth = e.depth + 1 := Engine.depth_of_skeleton_eq led.skeleton
    rw [depth]
    exact led.setDepth
  initializes calls c e account init := by
    refine ⟨init.replayed fun c method args e account told =>
      (calls c method args e account told).toReplayed, fun unbranched topDown => ?_⟩
    have ordered := init.ordered calls (fun a above same => by cases same; rfl) unbranched topDown
    exact ⟨ordered.1, ordered.2.1⟩

namespace Engine

variable {e e' : Engine}

/-- While nothing runs no class begins or is over, and classes that are added wait. -/
theorem Rests.progress_eq (rests : e.Rests Class.Untouched e') : e'.progress = e.progress := by
  funext c
  unfold progress
  by_cases lt : c < e.classes.size
  · rw [rests.classAt c lt]
  · rw [classAt_of_le (Nat.le_of_not_lt lt)]
    by_cases new : c < e'.classes.size
    · exact (rests.added c new (Nat.le_of_not_lt lt)).pending
    · rw [classAt_of_le (Nat.le_of_not_lt new)]

/-- A class that has begun exists. -/
theorem lt_of_progress {c : ClassRef} (begun : e.progress c ≠ .pending) : c < e.classes.size :=
  lt_of_classAt (fun cls => cls.init ≠ .pending) begun fun waits => waits rfl

theorem TopDown.rests (topDown : e.TopDown) (rests : e.Rests Class.Untouched e') : e'.TopDown := by
  intro c begun d mem
  rw [rests.progress_eq] at begun ⊢
  rw [rests.classAt c (lt_of_progress begun)] at mem
  exact topDown c begun d mem

/-- The state of static initializations after a history, and its account of them. -/
structure Initialized (account : List Occurrence) (e : Engine) : Prop where
  replays : Replays (fun _ => .pending) account e.progress
  idle : ∀ c, e.progress c ≠ .running
  topDown : e.TopDown
  ordered : e.Ordered account

/-- Every operation goes on in order. -/
theorem Initialized.elapses {account inside : List Occurrence} (before : Initialized account e)
    (next : e.Elapses inside e') (unbranched : e'.Unbranched) :
    Initialized (account ++ inside) e' := by
  obtain ⟨-, e₁, s, fuel, α, x, rests, passes, trace, rfl⟩ := next
  have led := AccountLaw.leads_of_passes ((AccountLaw.initialization s).leads_of_account fuel) passes
  have unrolls : e₁.Unrolls inside ((x (invoke s fuel)).final e₁) := led
  have progress := rests.progress_eq
  have unbranched₁ : e₁.Unbranched :=
    Unbranched.of_skeleton_eq unrolls.skeleton.symm ⟨unbranched.lineal, unbranched.exist⟩
  obtain ⟨topDown, ordered⟩ := unrolls.ordered unbranched₁ (before.topDown.rests rests)
  refine ⟨before.replays.append (progress ▸ unrolls.replays), fun c running => ?_, topDown, ?_⟩
  · have before_ := (unrolls.settles c).1 running
    rw [progress] at before_
    exact before.idle c before_
  · have same (c : ClassRef) := superclasses_of_skeleton_eq unrolls.skeleton c
    intro c now mem d above
    have above : d ∈ (e₁.classAt c).superclasses := same c ▸ above
    rcases List.mem_append.1 mem with mem | mem
    · have begun := (before.replays.begun_once.2 c (mem_begunIn.2 ⟨now, mem⟩)).2
      rw [rests.classAt c (lt_of_progress begun)] at above
      exact before.ordered c now mem d above
    · exact ordered c now mem d above

theorem Accounted.initialized {account : List Occurrence} (accounted : Accounted account e) :
    Initialized account e := by
  induction accounted with
  | start =>
    exact ⟨.nothing _, fun c (runs : InitState.pending = .running) => (nomatch runs),
      fun c begun => absurd rfl begun, fun c now mem => (nomatch mem)⟩
  | goesOn before next ih =>
    have after := before.reachable.step next.operation
    exact ih.elapses next after.assembled.solid.orderly.described.unbranched

end Engine

/-- How static initializations go in a history that leads to an engine. -/
structure InitializesInOrder (account : List Occurrence) (e : Engine) : Prop where
  /-- The initialization of every class begins once at most. -/
  once : (begunIn account).Nodup
  /-- It begins only after that of each superclass has begun. -/
  topDown : ∀ before c now rest, account = before ++ .begins c now :: rest →
    ∀ d ∈ (e.classAt c).superclasses, d ∈ begunIn before
  /-- Classes wait, run and are over, in this order, and nothing else changes how far they are. -/
  forward : Replays (fun _ => .pending) account e.progress
  /-- What has begun is over in the end. -/
  finished : ∀ c ∈ begunIn account, e.progress c = .done
  idle : ∀ c, e.progress c ≠ .running

/-- Static initialization happens once, from the top down, and never sticks: this is so in every
account of how an engine came about.  However an initialization comes out, wherever it was asked
for, all that it began is over when it ends. -/
theorem static_initialization_once_top_down {e : Engine} (reachable : e.Reachable) :
    (∃ account, Engine.Accounted account e) ∧
    (∀ account, Engine.Accounted account e → InitializesInOrder account e) ∧
    ∀ (e₁ : Engine) (s : ScopeRef) (n : Nat) (c : ClassRef),
      (∃ account, Passes s (invoke s n) (Account s n)
        (fun call => Machine.ensureInitialized ⟨s, call⟩ c) e₁ account) ∧
      ∀ account, Passes s (invoke s n) (Account s n)
          (fun call => Machine.ensureInitialized ⟨s, call⟩ c) e₁ account →
        (begunIn account).Nodup ∧ ∀ d ∈ begunIn account, e₁.progress d = .pending ∧
          (((Machine.of s n).ensureInitialized c).final e₁).progress d = .done := by
  refine ⟨reachable.exists_accounted, fun account accounted => ?_, fun e₁ s n c => ⟨?_, ?_⟩⟩
  · have initialized := accounted.initialized
    have finished (c : ClassRef) (begun : c ∈ begunIn account) : e.progress c = .done := by
      have started := (initialized.replays.begun_once.2 c begun).2
      cases state : e.progress c with
      | pending => exact absurd state started
      | running => exact absurd state (initialized.idle c)
      | done => rfl
    refine ⟨initialized.replays.begun_once.1, ?_, initialized.replays, finished, initialized.idle⟩
    rintro before c now rest rfl d above
    have found := initialized.ordered c now
      (List.mem_append_right before List.mem_cons_self) d above
    exact (initialized.replays.until_.started found).resolve_left fun waits => waits rfl
  · exact Machine.recounts_ensureInitialized (exists_account s n) c e₁
  · intro account passes
    have led := AccountLaw.leads_of_passes ((AccountLaw.initialization s).leads_of_account n) passes
    have unrolls : e₁.Unrolls account (((Machine.of s n).ensureInitialized c).final e₁) := led
    obtain ⟨once, waited⟩ := unrolls.replays.begun_once
    exact ⟨once, fun d begun => ⟨(waited d begun).1, unrolls.toReplayed.done begun⟩⟩

namespace Stumbling

/-- A class with a static initializer. -/
def above : TypeUnit := (TypeUnit.named "lib.A").addStaticInit [.ret]

/-- A class that extends it, with a static initializer that fails. -/
def below : TypeUnit :=
  ((TypeUnit.named "lib.B").extending "lib.A").addStaticInit
    [.constInt 1, .constInt 0, .arith .div, .pop, .ret]

def first : Engine := (Engine.opened {}).defining 8 above

/-- The scope after the definition of the second class has failed. -/
def engine : Engine := first.defining 8 below

def fails (outcome : EStateM.Result (Stop ReloadError) Engine ClassRef) : Bool :=
  match outcome with
  | .ok .. => false
  | .error .. => true

set_option maxRecDepth 100000 in
theorem outcomes : first.scopes.size = 1 ∧ fails (Scope.define 8 0 below.encode first) = true ∧
    engine.progress 1 = .done ∧ (engine.classAt 1).superclasses = [0] := by
  decide +kernel

theorem reachable : engine.Reachable := by
  have one : first.scopes.size = 1 := outcomes.1
  have once : first.Reachable := (Engine.reachable_opened {}).defining 8 above (by decide)
  exact once.defining 8 below (by rw [one]; exact Nat.one_pos)

end Stumbling

open Stumbling in
/-- A class of which the initializer fails has begun once, after the class that it extends, and is
initialized all the same. -/
theorem static_initialization_once_top_down_stumbling : engine.Reachable ∧
    fails (Scope.define 8 0 below.encode first) = true ∧
    ∃ before now rest, Engine.Accounted (before ++ .begins 1 now :: rest) engine ∧
      0 ∈ begunIn before ∧ 1 ∉ begunIn rest ∧ engine.progress 1 = .done := by
  obtain ⟨-, fails_, done, extends_⟩ := outcomes
  obtain ⟨⟨account, accounted⟩, ordered, -⟩ := static_initialization_once_top_down reachable
  have inOrder := ordered account accounted
  have begun : 1 ∈ begunIn account :=
    (inOrder.forward.started (by rw [done]; decide)).resolve_left fun waits => waits rfl
  obtain ⟨now, mem⟩ := mem_begunIn.1 begun
  obtain ⟨before, rest, rfl⟩ := List.append_of_mem mem
  refine ⟨reachable, fails_, before, now, rest, accounted, ?_, ?_, done⟩
  · exact inOrder.topDown before 1 now rest rfl 0 (extends_ ▸ List.mem_singleton_self 0)
  · have once := inOrder.once
    have parts : begunIn (before ++ .begins 1 now :: rest) =
        begunIn before ++ 1 :: begunIn rest := List.filterMap_append
    rw [parts] at once
    exact (List.nodup_cons.1 (List.nodup_append.1 once).2.1).1

end LiveUpdate
