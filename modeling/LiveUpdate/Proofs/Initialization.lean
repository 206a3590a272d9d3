import LiveUpdate.Proofs.Advances

/-!
# Static initialization

Between operations every class is initialized, or it was generated for a version and has not
been used yet.  So the definition of a class runs the static initializer of that class only,
and a later use of a defined class runs none.
-/

set_option autoImplicit false

namespace LiveUpdate

open Exec

/-- How far the static initialization of each class has come. -/
def Engine.progress (e : Engine) (c : ClassRef) : InitState := (e.classAt c).init

namespace Machine

variable (m : Machine) {e : Engine} {c : ClassRef}

/-- A class that is initialized is not initialized again, and neither is what it extends. -/
theorem initializeAll_done {above : List ClassRef} (done : (e.classAt c).init = .done) :
    m.initializeAll (c :: above) e = .ok () e := by
  unfold initializeAll
  rw [bind_apply, ask_apply]
  dsimp only
  rw [if_pos done]
  rfl

theorem ensureInitialized_done (done : (e.classAt c).init = .done) :
    m.ensureInitialized c e = .ok () e := by
  unfold ensureInitialized
  rw [bind_apply, ask_apply]
  exact m.initializeAll_done done

/-- How the initialization of a class comes out that is not over: behind that of the classes
above it the static initializer runs, if it was not begun. -/
theorem initializeAll_cons {m : Machine} {above : List ClassRef} (todo : e.progress c ≠ .done) :
    m.initializeAll (c :: above) e = match m.initializeAll above e with
      | .error stop e' => .error stop e'
      | .ok _ e' => if e'.progress c = .pending then
          match m.runStaticInit c (e'.beginInit c).2 with
          | .ok _ e'' => .ok () (e''.finishInit c)
          | .error stop e'' => .error stop (e''.finishInit c)
        else .ok () e' := by
  have todo : ¬ (e.classAt c).init = .done := todo
  rw [initializeAll, bind_apply, ask_apply]
  dsimp only
  rw [if_neg todo, bind_apply]
  cases m.initializeAll above e with
  | error stop e' => rfl
  | ok u e' =>
    dsimp only
    rw [bind_apply, modifyGet_apply]
    dsimp only
    by_cases pending : (e'.classAt c).init = .pending
    · have begins : (e'.beginInit c).1 = true := by
        unfold Engine.beginInit
        rw [if_pos pending]
      have pending : e'.progress c = .pending := pending
      rw [begins, if_pos rfl, if_pos pending, finally_modify_apply]
      cases m.runStaticInit c (e'.beginInit c).2 <;> rfl
    · have passes : e'.beginInit c = (false, e') := if_neg pending
      have begun : ¬ e'.progress c = .pending := pending
      rw [passes, if_neg begun]
      rfl

/-- Below an initialized class a new class is initialized by its own static initializer, and it
is initialized however that ends. -/
theorem ensureInitialized_new (pending : (e.classAt c).init = .pending)
    (above : ∀ p ∈ (e.classAt c).superclasses.head?, (e.classAt p).init = .done) :
    m.ensureInitialized c e = match m.runStaticInit c (e.beginInit c).2 with
      | .ok _ e' => .ok () (e'.finishInit c)
      | .error stop e' => .error stop (e'.finishInit c) := by
  -- What the superclass extends was initialized with it, so its initialization ends the search.
  have rest : m.initializeAll (e.classAt c).superclasses e = .ok () e := by
    cases superclasses : (e.classAt c).superclasses with
    | nil => rfl
    | cons p others =>
      rw [superclasses] at above
      exact m.initializeAll_done (above p rfl)
  have pending : e.progress c = .pending := pending
  have todo : e.progress c ≠ .done := by
    rw [pending]
    decide
  unfold ensureInitialized
  rw [bind_apply, ask_apply]
  dsimp only
  rw [initializeAll_cons todo, rest]
  exact if_pos pending

/-- A class fails to run its static initializer only if it has one and the call of it fails. -/
theorem runStaticInit_eq_error {stop : Stop RunError} {e' : Engine}
    (run : m.runStaticInit c e = .error stop e') :
    ∃ init, (e.classAt c).method? .staticInit = some init ∧
      m.call c init [] e = .error stop e' := by
  unfold runStaticInit at run
  rw [bind_apply, ask_apply] at run
  dsimp only at run
  cases declared : (e.classAt c).method? .staticInit with
  | none =>
    rw [declared] at run
    cases run
  | some init =>
    rw [declared] at run
    refine ⟨init, rfl, ?_⟩
    have called : discard (m.call c init []) e = _ := map_apply _ _ _
    cases answer : m.call c init [] e with
    | ok v e₁ =>
      rw [answer] at called
      cases called.symm.trans run
    | error stop' e₁ =>
      rw [answer] at called
      cases called.symm.trans run
      rfl

/-- A class whose initialization has begun is initialized when it has ended. -/
theorem evolves_initialized (lt : c < e.classes.size) {e₁ : Engine}
    (evolves : (e.beginInit c).2.Evolves e₁) :
    e.Evolves (e₁.finishInit c) ∧ ((e₁.finishInit c).classAt c).init = .done := by
  have begun := (e.evolves_beginInit c).trans evolves
  refine ⟨begun.trans (e₁.evolves_finishInit c), ?_⟩
  have at_ : (e₁.finishInit c).classAt c = { e₁.classAt c with init := .done } := by
    refine (Engine.getD_modify _ _ _ _ _ ?_).trans (if_pos rfl)
    exact begun.during.classes_size.symm ▸ lt
  rw [at_]

/-- How the initialization of a new class comes out: it is done in any case, and it fails only if
the static initializer of the class fails. -/
theorem ends_initialize (s : ScopeRef) (fuel : Nat) (lt : c < e.classes.size)
    (pending : (e.classAt c).init = .pending)
    (above : ∀ p ∈ (e.classAt c).superclasses.head?, (e.classAt p).init = .done) :
    e.Ends ((Machine.of s fuel).ensureInitialized c)
      (fun _ e' => e.Evolves e' ∧ (e'.classAt c).init = .done)
      fun stop e' => e.Evolves e' ∧ (e'.classAt c).init = .done ∧ ∃ init e₁,
        (e.classAt c).method? .staticInit = some init ∧
        (Machine.of s fuel).call c init [] (e.beginInit c).2 = .error stop e₁ ∧
        e' = e₁.finishInit c := by
  let m := Machine.of s fuel
  have tame : (e.beginInit c).2.Tame False (m.runStaticInit c) fun _ _ => True :=
    tame_runStaticInit (tame_of False s fuel) c False.elim
  have ran := tame.evolves
  have apply := m.ensureInitialized_new pending above
  unfold final at ran
  cases run : m.runStaticInit c (e.beginInit c).2 with
  | ok _ e₁ =>
    rw [run] at ran apply
    exact .of_ok apply (evolves_initialized lt ran)
  | error stop e₁ =>
    rw [run] at ran apply
    obtain ⟨evolves, done⟩ := evolves_initialized lt ran
    obtain ⟨init, declared, called⟩ := m.runStaticInit_eq_error run
    rw [(e.evolves_beginInit c).during.method?] at declared
    exact .of_error apply ⟨evolves, done, init, e₁, declared, called, rfl⟩

end Machine

/-- A class between operations: it is initialized, or it was generated and waits to be used. -/
def Class.Settled (c : Class) : Prop :=
  c.init = .done ∨
    c.managed = none ∧ (c.unit.modifiers.isInterface = true ∨ c.unit.modifiers.isFinal = true)

namespace Engine

variable {e e' : Engine} {s : ScopeRef}

/-- All classes are settled. -/
def Settled (e : Engine) : Prop := ∀ c < e.classes.size, (e.classAt c).Settled

/-- Running code does not unsettle a class. -/
theorem Evolves.settled (evolves : e.Evolves e') {c : ClassRef} (settled : (e.classAt c).Settled) :
    (e'.classAt c).Settled := by
  refine settled.imp (evolves.done c) fun generated => ?_
  have same := evolves.during.classAt c
  have managed := congrArg Class.managed same
  have unit := congrArg Class.unit same
  simp only [Class.skeleton] at managed unit
  rw [managed, unit]
  exact generated

theorem Settled.evolves (settled : e.Settled) (evolves : e.Evolves e') : e'.Settled :=
  fun c lt => evolves.settled (settled c (evolves.during.classes_size ▸ lt))

theorem Settled.rests {new : Class → Prop} (settled : e.Settled) (rests : e.Rests new e')
    (generated : ∀ c, new c → c.Settled) : e'.Settled := by
  intro c lt
  by_cases before : c < e.classes.size
  · rw [rests.classAt c before]
    exact settled c before
  · exact generated _ (rests.added c lt (Nat.le_of_not_lt before))

theorem settled_of_generated (c : Class) (generated : c.Generated) : c.Settled :=
  .inr ⟨generated.unmanaged, generated.unextended⟩

theorem Settled.of_classes_eq (settled : e.Settled) (same : e'.classes = e.classes) :
    e'.Settled := by
  unfold Settled classAt
  rw [same]
  exact settled

/-- The class that a class extends is initialized. -/
theorem Settled.parent (settled : e.Settled) {p : ClassRef} (lt : p < e.classes.size)
    {name : String} (permitted : Class.parentFault? name (e.classAt p) = none) :
    (e.classAt p).init = .done := by
  refine (settled p lt).resolve_right fun generated => ?_
  unfold Class.parentFault? at permitted
  rcases generated.2 with isInterface | isFinal
  · rw [if_pos isInterface] at permitted
    cases permitted
  · rw [if_pos isFinal] at permitted
    split at permitted <;> cases permitted

end Engine

open Engine

namespace Scope

variable {e base : Engine} {s : ScopeRef} {u : TypeUnit} {cls : Class}

/-- What an enrolled class extends is initialized, and the class is not. -/
theorem Enrolls.awaits (enrolls : Enrolls e s u base cls) (settled : e.Settled) :
    let e' := (base.addClass s cls).countClass s
    (e'.classAt e.classes.size).init = .pending ∧
      ∀ p ∈ (e'.classAt e.classes.size).superclasses.head?, (e'.classAt p).init = .done := by
  intro e'
  have at_ : e'.classAt e.classes.size = cls := enrolls.classAt
  obtain ⟨id, spec, -, parent_lt, rfl, permitted⟩ := enrolls.eq_fresh
  rw [at_]
  refine ⟨rfl, fun p mem => ?_⟩
  cases parent : spec.parent with
  | none =>
    simp only [Class.fresh, parent] at mem
    cases mem
  | some q =>
    simp only [Class.fresh, parent] at mem
    cases mem
    have lt := parent_lt p parent
    rw [enrolls.classAt_of_lt lt]
    rw [parent] at permitted
    exact settled.parent lt permitted

/-- A definition leaves all classes settled, also when it fails. -/
theorem settled_define (settled : e.Settled) (grounded : e.Grounded) (fuel : Nat) (s : ScopeRef)
    (data : List UInt8) : ((define fuel s data).final e).Settled := by
  rw [define_eq]
  apply Ends.final
  refine ends_bind ((ends_enroll grounded s data).weaken (fun _ _ done => done)
    fun _ e' same => settled.of_classes_eq same.classes) fun c e₁ enrolled => ?_
  obtain ⟨rfl, u, base, cls, -, enrolls, rfl⟩ := enrolled
  obtain ⟨pending, above⟩ := enrolls.awaits settled
  have size : ((base.addClass s cls).countClass s).classes.size = e.classes.size + 1 := by
    rw [enrolls.classes, Array.size_push]
  have initialized (e' : Engine)
      (evolves : ((base.addClass s cls).countClass s).Evolves e')
      (done : (e'.classAt e.classes.size).init = .done) : e'.Settled := by
    intro d lt
    rw [evolves.during.classes_size, size] at lt
    by_cases last : d = e.classes.size
    · exact .inl (last ▸ done)
    · have before : d < e.classes.size := by omega
      refine evolves.settled ?_
      rw [enrolls.classAt_of_lt before]
      exact settled d before
  have lt : e.classes.size < ((base.addClass s cls).countClass s).classes.size := by
    rw [size]
    exact Nat.lt_succ_self _
  have ran := Machine.ends_initialize s fuel lt pending above
  exact ends_bind (ends_mapError (ran.weaken (fun _ e' h => initialized e' h.1 h.2)
    fun _ e' h => initialized e' h.1 h.2.1)) fun _ _ settled' => ends_pure settled'

end Scope

namespace Engine

variable {e e' : Engine}

theorem Operation.settled (operation : e.Operation e') (grounded : e.Grounded)
    (settled : e.Settled) : e'.Settled := by
  rcases operation.advances with ⟨fuel, s, data, rfl⟩ | ⟨e₁, e₂, rests, ran, trace, rfl⟩
  · exact Scope.settled_define settled grounded fuel s data
  · exact ((settled.rests rests settled_of_generated).evolves ran.1).of_classes_eq rfl

theorem Reachable.settled (reachable : e.Reachable) : e.Settled := by
  induction reachable with
  | refl => exact fun c lt => by cases lt
  | tail reachable operation ih => exact operation.settled (Reachable.grounded reachable) ih

end Engine

end LiveUpdate
