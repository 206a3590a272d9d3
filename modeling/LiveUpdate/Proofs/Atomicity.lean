import LiveUpdate.Proofs.Initialization

/-!
# Definitions are atomic

A definition that fails has either done nothing to the tables of scopes, or it has registered
the class in full and the static initializer of the class has failed.  So the classes of a scope
and its managed types are never out of step: a class belongs to a managed type exactly if the
scope has that type under the number that the class carries.
-/

set_option autoImplicit false

namespace LiveUpdate

open Exec

namespace Engine

variable {e e' : Engine} {s : ScopeRef} {u : TypeUnit} {c : ClassRef}

/-- What a definition registers: the class, under the name of the unit, and if the scope finds
the unit eligible, the managed type that the class is the host class of. -/
structure Registers (e : Engine) (s : ScopeRef) (u : TypeUnit) (e' : Engine) : Prop where
  known : e'.class? s u.name = some e.classes.size
  name : e'.nameOf e.classes.size = u.name
  managed : (e.scopeAt s).isEligible u = true →
    ∃ id t, (e'.classAt e.classes.size).managed = some id ∧ e'.typeWithId? s id = some t ∧
      (e'.typeAt t).native = some e.classes.size ∧ (e'.typeAt t).name = u.name
  plain : (e.scopeAt s).isEligible u = false → (e'.classAt e.classes.size).managed = none

/-- What is registered stays so while code runs. -/
theorem Registers.during {e'' : Engine} (registers : e.Registers s u e')
    (during : e'.During e'') : e.Registers s u e'' := by
  have name := congrArg Class.name (during.classAt e.classes.size)
  have managed := congrArg Class.managed (during.classAt e.classes.size)
  refine ⟨?_, name.trans registers.name, fun eligible => ?_, fun ineligible => ?_⟩
  · rw [during.class?]
    exact registers.known
  · obtain ⟨id, t, some_id, registered, native, named⟩ := registers.managed eligible
    have type := during.typeAt t
    refine ⟨id, t, managed.trans some_id, ?_, (congrArg ManagedType.native type).trans native,
      (congrArg ManagedType.name type).trans named⟩
    rw [during.typeWithId?]
    exact registered
  · exact managed.trans (registers.plain ineligible)

/-- A class and a managed type of a scope belong together under a number: the type has the name
and the number that the scope knows them by, and its host class is that class.  Numbers have 32
bits, so they lead back to their names while there are no more names than that. -/
structure Matches (e : Engine) (s : ScopeRef) (c : ClassRef) (id : TypeId) (t : TypeRef) :
    Prop where
  registered : e.typeWithId? s id = some t
  native : (e.typeAt t).native = some c
  name : (e.typeAt t).name = e.nameOf c
  number : (e.namesOf s).lookup (e.nameOf c) = some id
  numbered : (e.namesOf s).size ≤ UInt32.size → (e.namesOf s).nameOf? id = some (e.nameOf c)

/-- A class that a scope knows carries a number exactly if the scope has a managed type under it
that belongs to the class. -/
theorem Housed.managed_iff (housed : e.Housed) {name : String} (known : e.class? s name = some c)
    (id : TypeId) : (e.classAt c).managed = some id ↔ ∃ t, e.Matches s c id t := by
  constructor
  · intro managed
    obtain ⟨spec, described, -, -, types⟩ := housed.classes s name c known
    obtain ⟨t, registered, native⟩ := types id (described.managed_eq ▸ managed)
    obtain ⟨held, rfl, rfl⟩ := housed.types s id t registered
    obtain ⟨host, hosted⟩ := housed.hosts t held
    obtain rfl : host = c := Option.some.inj (hosted.native.symm.trans native)
    obtain ⟨spec', described', named, -, -⟩ := housed.classes _ _ _ hosted.known
    have same : (e.typeAt t).name = e.nameOf host := (described'.nameOf_eq.trans named).symm
    have number := hosted.numbered
    rw [same] at number
    exact ⟨t, registered, native, same, number, fun fits =>
      NameTable.nameOf?_of_lookup fits number⟩
  · rintro ⟨t, belongs⟩
    obtain ⟨held, rfl, rfl⟩ := housed.types s id t belongs.registered
    obtain ⟨host, hosted⟩ := housed.hosts t held
    obtain rfl : host = c := Option.some.inj (hosted.native.symm.trans belongs.native)
    obtain ⟨names, parent, interfaces, -, -, -, described, -⟩ := hosted.form
    exact described.managed_eq

end Engine

open Engine

namespace Scope

variable {e base : Engine} {s : ScopeRef} {u : TypeUnit} {cls : Class}

/-- An enrolled class is registered in full. -/
theorem Enrolls.registers (enrolls : Enrolls e s u base cls) (scope_lt : s < e.scopes.size) :
    e.Registers s u ((base.addClass s cls).countClass s) := by
  let e' := (base.addClass s cls).countClass s
  have at_ : e'.classAt e.classes.size = cls := enrolls.classAt
  obtain ⟨names, base_eq⟩ := enrolls.base
  obtain ⟨id, spec, named, -, fresh, -⟩ := enrolls.eq_fresh
  have types (id : TypeId) : e'.typeWithId? s id = base.typeWithId? s id := by
    rw [typeWithId?_countClass, typeWithId?_addClass]
  refine ⟨enrolls.known scope_lt, ?_, fun eligible => ?_, fun ineligible => ?_⟩
  · unfold nameOf
    rw [at_, fresh]
    exact named
  · rw [if_pos eligible] at base_eq
    obtain ⟨type, managed, native, -, called, -, rfl⟩ := base_eq
    have type_eq : e'.typeAt e.types.size = type :=
      ((e.setNames s names).typeAt_push type e.types.size).trans (if_pos rfl)
    refine ⟨type.id, e.types.size, ?_, ?_, ?_, ?_⟩
    · rw [at_]
      exact managed
    · rw [types, typeWithId?_addType, if_pos ⟨rfl, scope_lt, rfl⟩]
      rfl
    · rw [type_eq]
      exact native
    · rw [type_eq]
      exact called
  · rw [ineligible] at base_eq
    rw [at_]
    exact base_eq.1

/-- Why a definition fails although it has registered the class: the static initializer of the
class, which is all there when it runs, fails. -/
structure FailsInitializing (e : Engine) (fuel : Nat) (s : ScopeRef) (u : TypeUnit)
    (stop : Stop ReloadError) (e' : Engine) : Prop where
  free : e.class? s u.name = none
  registers : e.Registers s u e'
  initializer : ∃ init reason before after, e.Registers s u before ∧
    (before.classAt e.classes.size).method? .staticInit = some init ∧
    (Machine.of s fuel).call e.classes.size init [] before = .error reason after ∧
    stop = reason.map .run ∧ e' = after.finishInit e.classes.size

/-- A definition that fails has not touched the tables of scopes, or it has registered the class
and fails to initialize it. -/
theorem ends_define_atomic (reachable : e.Reachable) (scope_lt : s < e.scopes.size) (fuel : Nat)
    (data : List UInt8) :
    e.Ends (define fuel s data) (fun _ _ => True) fun stop e' => e.SameTables e' ∨
      ∃ u, TypeUnit.decode data = .ok u ∧ FailsInitializing e fuel s u stop e' := by
  rw [define_eq]
  refine ends_bind ((ends_enroll reachable.grounded s data).weaken (fun _ _ done => done)
    fun _ _ same => .inl same) fun c e₁ enrolled => ?_
  obtain ⟨rfl, u, base, cls, ⟨decoded, -⟩, enrolls, rfl⟩ := enrolled
  obtain ⟨pending, above⟩ := enrolls.awaits reachable.settled
  let e₁ := (base.addClass s cls).countClass s
  have registers := enrolls.registers scope_lt
  -- The class is registered before its static initializer runs, and running code keeps it so.
  have begun := e₁.evolves_beginInit e.classes.size
  have lt : e.classes.size < e₁.classes.size := by
    rw [enrolls.classes, Array.size_push]
    exact Nat.lt_succ_self _
  have ran := Machine.ends_initialize s fuel lt pending above
  refine ends_bind (ends_mapError (ran.weaken (fun _ _ _ => trivial) fun reason e' failed =>
    .inr ⟨u, decoded, enrolls.free, registers.during failed.1.during, ?_⟩)) fun _ _ _ => trivial
  obtain ⟨-, -, init, after, declared, called, same⟩ := failed
  rw [← begun.during.method?] at declared
  exact ⟨init, reason, _, after, registers.during begun.during, declared, called, rfl, same⟩

end Scope

/-- A definition is atomic, and the tables of a scope are in step.  In a reachable engine, a
definition that fails leaves the classes and the managed types of all scopes as they were, or it
has registered the class in full and the error is that of the class's static initializer.  And
a class of a scope carries a number exactly if the scope has a managed type under that number
that belongs to the class. -/
theorem definition_atomic_and_in_step {e : Engine} (reachable : e.Reachable) :
    (∀ s < e.scopes.size, ∀ fuel data stop e', Scope.define fuel s data e = .error stop e' →
      e.SameTables e' ∨
        ∃ u, TypeUnit.decode data = .ok u ∧ Scope.FailsInitializing e fuel s u stop e') ∧
    ∀ s name c id, e.class? s name = some c →
      ((e.classAt c).managed = some id ↔ ∃ t, e.Matches s c id t) :=
  ⟨fun _ scope_lt fuel data _ _ run =>
      (Scope.ends_define_atomic reachable scope_lt fuel data).error run,
    fun _ _ _ id known => reachable.housed.managed_iff known id⟩

namespace Failing

/-- A type whose static initializer divides by zero. -/
def failing : TypeUnit :=
  (TypeUnit.named "app.F").addStaticInit [.constInt 1, .constInt 0, .arith .div, .pop, .ret]

/-- Whether a definition failed and the class is in the scope all the same. -/
def isLate (outcome : EStateM.Result (Stop ReloadError) Engine ClassRef) : Bool :=
  match outcome with
  | .ok .. => false
  | .error _ e => (e.class? 0 "app.F").isSome

set_option maxRecDepth 100000 in
theorem facts : 0 < Overloaded.engine.scopes.size ∧
    Overloaded.engine.class? 0 "app.T" = some 0 ∧
    (Overloaded.engine.classAt 0).managed = some 0 ∧
    Overloaded.engine.class? 0 "app.F" = none ∧
    isLate (Scope.define 4 0 failing.encode Overloaded.engine) = true := by
  decide +kernel

end Failing

open Failing in
/-- A definition fails in the static initializer, and the class stays registered; a class that
was defined before belongs to its managed type. -/
theorem definition_atomic_and_in_step_failing :
    Overloaded.engine.Reachable ∧ 0 < Overloaded.engine.scopes.size ∧
    (∃ stop e', Scope.define 4 0 failing.encode Overloaded.engine = .error stop e' ∧
      ¬ Overloaded.engine.SameTables e' ∧ ∃ u, TypeUnit.decode failing.encode = .ok u ∧
        Scope.FailsInitializing Overloaded.engine 4 0 u stop e') ∧
    ∃ t, Overloaded.engine.Matches 0 0 0 t := by
  obtain ⟨scope_lt, known, managed, free, late⟩ := facts
  obtain ⟨atomic, inStep⟩ := definition_atomic_and_in_step Overloaded.reachable
  refine ⟨Overloaded.reachable, scope_lt, ?_, (inStep 0 _ 0 0 known).1 managed⟩
  cases run : Scope.define 4 0 failing.encode Overloaded.engine with
  | ok c e' =>
    rw [run] at late
    cases late
  | error stop e' =>
    rw [run] at late
    have touched : ¬ Overloaded.engine.SameTables e' := fun same => by
      have classes := same.known 0
      have present : (e'.class? 0 "app.F").isSome = true := late
      unfold Engine.class? at present free
      rw [classes, free] at present
      cases present
    exact ⟨stop, e', rfl, touched, (atomic 0 scope_lt 4 _ stop e' run).resolve_left touched⟩

end LiveUpdate
