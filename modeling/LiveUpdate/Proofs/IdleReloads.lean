import LiveUpdate.Proofs.Rebuilding

/-!
# Idle reloads

A reload with the bytes of the version in force is idle.  It is counted, the observers hear of it
and guards forget what they remember, but the face of the engine stays as it is, so that nothing
requested later shows it.  The exception is the first reload of a scope: with it guards begin to
ask for live versions, and these do not know what the host classes have made public.
-/

set_option autoImplicit false

namespace LiveUpdate

open Exec

/-- A use of a scope, and the fuel that there is for it. -/
structure Scope.Request where
  fuel : Nat
  scope : ScopeRef
  use : Scope.Use

namespace Engine

variable {e e' : Engine} {t : TypeRef}

/-- Make some uses of scopes one after another.  The answers are all given, whatever failed
before. -/
def performing (e : Engine) : List Scope.Request → List (Except (Stop RunError) Value) × Engine
  | [] => ([], e)
  | request :: rest =>
    let run := request.use.perform request.fuel request.scope
    let (answers, last) := performing (run.final e) rest
    (run.answer e :: answers, last)

/-- All fields have the same values in two engines, and everything else in the heap is the same
too. -/
structure SameContents (e e' : Engine) : Prop where
  objects : e'.objects = e.objects
  arrays : e'.arrays = e.arrays
  classes : ∀ c, e'.classAt c = e.classAt c
  statics : ∀ t, (e'.typeAt t).statics = (e.typeAt t).statics

theorem Resembles.sameContents (same : e.Resembles e') : e.SameContents e' where
  objects := same.of_body Engine.objects fun _ => rfl
  arrays := same.of_body Engine.arrays fun _ => rfl
  classes := same.classAt
  statics t := same.of_type t ManagedType.statics fun _ => rfl

end Engine

section Blind

variable {law : Law} {e e' : Engine} (blind : law.Blind)
include blind

/-- A request is answered in the same way in engines that resemble each other. -/
theorem Law.Matches.perform (matched : law.Matches e e') (request : Scope.Request) :
    let run := request.use.perform request.fuel request.scope
    run.answer e' = run.answer e ∧ law.Matches (run.final e) (run.final e') := by
  have made := Scope.Use.concurs_perform blind request.fuel request.scope request.use e e' matched
  dsimp only
  unfold answer final
  generalize request.use.perform request.fuel request.scope e = ended at made ⊢
  generalize request.use.perform request.fuel request.scope e' = ended' at made ⊢
  cases made with
  | ok _ after => exact ⟨rfl, after⟩
  | error after => exact ⟨rfl, after⟩

theorem Law.Matches.performing (matched : law.Matches e e') (requests : List Scope.Request) :
    (e'.performing requests).1 = (e.performing requests).1 ∧
      law.Matches (e.performing requests).2 (e'.performing requests).2 := by
  induction requests generalizing e e' with
  | nil => exact ⟨rfl, matched⟩
  | cons request rest ih =>
    obtain ⟨answered, after⟩ := matched.perform blind request
    obtain ⟨answers, last⟩ := ih after
    exact ⟨congrArg₂ List.cons answered answers, last⟩

end Blind

/-- An idle reload shows in nothing, in a scope that was reloaded before.  Whatever happened to an
engine, as long as the instructions of the engine in it are where the engine puts them, one table
of names serves all scopes and its numbers have not run out: if a managed type is reloaded with the
bytes of its version in force and no static initializer runs, then whatever is requested of the
scopes afterwards, one request after another, is answered as it would have been without the reload,
and the same is stored in the end.  That a type was never reloaded itself can show only if it has a
method without a body. -/
theorem idle_reload_unnoticed {e e' : Engine} {t : TypeRef} (reachable : e.Reachable)
    (genuine : e.AllGenuine) (one : e.registries.size ≤ 1)
    (few : (e.namesOf (e.typeAt t).scope).size ≤ UInt32.size) (managed : e.IsManaged t)
    (rebuildable : e.Rebuildable t) (reloaded : (e.scopeAt (e.typeAt t).scope).epoch ≠ 0)
    {fuel : Nat} {stamp : String}
    (run : ManagedType.load fuel t stamp (e.typeAt t).live.data e = .ok true e')
    (idle : (e'.typeAt t).live.Idle) (requests : List Scope.Request) :
    (e'.performing requests).1 = (e.performing requests).1 ∧
      (e.performing requests).2.SameContents (e'.performing requests).2 := by
  let names := e.namesOf (e.typeAt t).scope
  have ends := ManagedType.ends_load_again (reachable.rebuilds managed rebuildable) managed.1
    reloaded fuel stamp
  have same : e.Resembles e' := ends.ok run rfl idle
  have guards : ∀ method, e.Declares method → method.GuardsOwners names :=
    genuine.guards fun s => reachable.grounded.namesOf_eq one s _
  have reachable' : e'.Reachable := by
    have step := reachable.step (.load fuel t stamp (e.typeAt t).live.data managed.1)
    rwa [final_of_ok run] at step
  have guards' : ∀ method, e'.Declares method → method.GuardsOwners names := by
    rintro method ⟨c, key, found⟩
    rw [same.classAt] at found
    exact guards method ⟨c, key, found⟩
  have matched : (Law.upright names).Matches e e' :=
    ⟨reachable.upright guards, reachable'.upright guards', same⟩
  obtain ⟨answers, last⟩ := matched.performing (Law.blind_upright few) requests
  exact ⟨answers, last.same.sameContents⟩

namespace Catching

def inherited : MemberKey := ⟨"inherited", ⟨[], .int⟩⟩

/-- A class that is not managed, with a method for heirs. -/
def base : TypeUnit :=
  (TypeUnit.named "lib.Base").addDefaultConstructor.addMethod
    (.make inherited.name inherited.sig .protectedBit [.constInt 5, .retValue])

/-- A managed type below it.  Its host class has a catcher of the method, which is for everyone. -/
def child : TypeUnit := ((TypeUnit.named "app.Child").extending "lib.Base").addDefaultConstructor

/-- A managed type that calls the method and is no heir. -/
def user : TypeUnit :=
  (TypeUnit.named "app.User").addMethod
    (.make "use" ⟨[.ref "app.Child"], .int⟩ (.publicBit ||| .staticBit)
      [.load 0, .invoke .virtual ⟨"app.Child", inherited.name, inherited.sig⟩, .retValue])

/-- A managed type that has nothing to do with the others. -/
def other : TypeUnit :=
  (TypeUnit.named "app.Other").addMethod
    (.make "x" ⟨[], .int⟩ (.publicBit ||| .staticBit) [.constInt 1, .retValue])

def based : Engine := (Engine.opened { included := ["app.*"] }).defining 8 base

def extended : Engine := based.defining 8 child

def used : Engine := extended.defining 8 user

def defined : Engine := used.defining 8 other

/-- An object of the type below was made. -/
def engine : Engine := ((Scope.Use.newInstance "app.Child" ⟨[], .void⟩ []).perform 16 0).final defined

/-- The method is called from the type that is no heir, and then something else is. -/
def requests : List Scope.Request :=
  [⟨16, 0, .invokeStatic "app.User" ⟨"use", ⟨[.ref "app.Child"], .int⟩⟩ [.object 0]⟩,
    ⟨16, 0, .invokeStatic "app.Other" ⟨"x", ⟨[], .int⟩⟩ []⟩]

/-- The type that has nothing to do with the others is reloaded as it is. -/
def reload (e : Engine) : Exec ReloadError Bool :=
  ManagedType.load 8 2 "again" (e.typeAt 2).live.data

def reloaded : Engine := (reload engine).final engine

def reloadedAgain : Engine := (reload reloaded).final reloaded

def accepted (answer : Except (Stop ReloadError) Bool) : Bool :=
  match answer with
  | .ok accepted => accepted
  | .error _ => false

/-- The call is one of what is not for everyone. -/
def denied : Except (Stop RunError) Value :=
  .error (.error (.illegalAccess (.hidden "app.User" .heirs "app.Child.inherited()->i64")))

set_option maxRecDepth 100000 in
theorem facts :
    (based.scopes.size = 1 ∧ extended.scopes.size = 1 ∧ used.scopes.size = 1 ∧
      engine.classes.size = defined.classes.size ∧ engine.types.size = 3) ∧
    (Unmarked base.encode ∧ Unmarked child.encode ∧ Unmarked user.encode ∧ Unmarked other.encode ∧
      (engine.typeAt 2).live.data = other.encode) ∧
    (engine.registries.size = 1 ∧ (engine.namesOf 0).size = 4 ∧ engine.IsManaged 2 ∧
      (engine.typeAt 2).scope = 0 ∧ (engine.scopeAt 0).epoch = 0 ∧
      (∀ m ∈ (engine.typeAt 2).first.shape.methods, m.isAbstract = false) ∧
      accepted ((reload engine).answer engine) = true) ∧
    (reloaded.registries.size = 1 ∧ (reloaded.namesOf 0).size = 4 ∧ reloaded.IsManaged 2 ∧
      (reloaded.typeAt 2).scope = 0 ∧ (reloaded.scopeAt 0).epoch = 1 ∧
      (reloaded.typeAt 2).published.isSome ∧ (reloaded.typeAt 2).live.rerun = false ∧
      accepted ((reload reloaded).answer reloaded) = true ∧
      (reloadedAgain.typeAt 2).live.rerun = false) ∧
    (engine.performing requests).1 = [.ok (.int 5), .ok (.int 1)] ∧
      (reloaded.performing requests).1 = [denied, .ok (.int 1)] := by
  decide +kernel

theorem run_eq {e : Engine} (ok : accepted ((reload e).answer e) = true) :
    reload e e = .ok true ((reload e).final e) := by
  have run := apply_eq_answer (reload e) e
  cases answered : (reload e).answer e with
  | ok a =>
    rw [answered] at ok run
    obtain rfl : a = true := ok
    exact run
  | error stop =>
    rw [answered] at ok
    cases ok

theorem trusted : engine.Trusted := by
  obtain ⟨⟨one, two, three, same, -⟩, ⟨bare, below, caller, alone, -⟩, -⟩ := facts
  have registry : Engine.Trusted ((Scope.newRegistry : Run RegistryRef).final {}) :=
    .single (.other .newRegistry rfl)
  have opened : (Engine.opened { included := ["app.*"] }).Trusted :=
    registry.tail (.other (.openWith _ 0 Nat.zero_lt_one) (by decide))
  have first : based.Trusted := opened.tail (.define 8 0 base.encode (by decide) bare)
  have second : extended.Trusted :=
    first.tail (.define 8 0 child.encode (one ▸ Nat.one_pos) below)
  have third : used.Trusted := second.tail (.define 8 0 user.encode (two ▸ Nat.one_pos) caller)
  have all : defined.Trusted := third.tail (.define 8 0 other.encode (three ▸ Nat.one_pos) alone)
  exact all.tail (.other (.use 16 0 _) same)

theorem reloaded_trusted : reloaded.Trusted := by
  obtain ⟨⟨-, -, -, -, types⟩, ⟨-, -, -, unmarked, data⟩, -⟩ := facts
  exact trusted.tail (.load 8 2 "again" _ (types ▸ by decide) (data ▸ unmarked))

end Catching

open Catching in
/-- In a scope that was reloaded before a further idle reload shows in nothing. -/
theorem idle_reload_unnoticed_again : reloaded.Reachable ∧ reloaded.AllGenuine ∧
    reloaded.registries.size ≤ 1 ∧
    (reloaded.namesOf (reloaded.typeAt 2).scope).size ≤ UInt32.size ∧ reloaded.IsManaged 2 ∧
    reloaded.Rebuildable 2 ∧ (reloaded.scopeAt (reloaded.typeAt 2).scope).epoch ≠ 0 ∧
    reload reloaded reloaded = .ok true reloadedAgain ∧ (reloadedAgain.typeAt 2).live.Idle ∧
    (reloadedAgain.performing requests).1 = [denied, .ok (.int 1)] := by
  obtain ⟨-, -, -, ⟨one, few, managed, scope, epoch, published, -, ok, quiet⟩, -, answers⟩ := facts
  have reachable := reloaded_trusted.reachable
  have genuine := reloaded_trusted.allGenuine
  have one : reloaded.registries.size ≤ 1 := Nat.le_of_eq one
  have few : (reloaded.namesOf (reloaded.typeAt 2).scope).size ≤ UInt32.size := by
    rw [scope, few]
    decide
  have epoch : (reloaded.scopeAt (reloaded.typeAt 2).scope).epoch ≠ 0 := by
    rw [scope, epoch]
    decide
  have run := run_eq ok
  have idle : (reloadedAgain.typeAt 2).live.Idle := fun reran =>
    (Bool.false_ne_true (quiet.symm.trans reran)).elim
  have same := idle_reload_unnoticed reachable genuine one few managed (.inl published) epoch run
    idle requests
  exact ⟨reachable, genuine, one, few, managed, .inl published, epoch, run, idle,
    same.1.trans answers⟩

open Catching in
/-- The first reload of a scope shows, even if it is idle and of a type that has nothing to do with
what is requested: a member that the host classes have made public is seen to be for heirs only. -/
theorem first_idle_reload_noticed : engine.Reachable ∧ engine.AllGenuine ∧
    engine.registries.size ≤ 1 ∧ (engine.namesOf (engine.typeAt 2).scope).size ≤ UInt32.size ∧
    engine.IsManaged 2 ∧ engine.Rebuildable 2 ∧
    (engine.scopeAt (engine.typeAt 2).scope).epoch = 0 ∧
    reload engine engine = .ok true reloaded ∧ (reloaded.typeAt 2).live.Idle ∧
    (engine.performing requests).1 = [.ok (.int 5), .ok (.int 1)] ∧
    (reloaded.performing requests).1 = [denied, .ok (.int 1)] := by
  obtain ⟨-, -, ⟨one, few, managed, scope, epoch, concrete, ok⟩, ⟨-, -, -, -, -, -, quiet, -⟩,
    before, after⟩ := facts
  refine ⟨trusted.reachable, trusted.allGenuine, Nat.le_of_eq one, ?_, managed, .inr concrete, ?_,
    run_eq ok, fun reran => ?_, before, after⟩
  · rw [scope, few]
    decide
  · rw [scope, epoch]
  · exact (Bool.false_ne_true (quiet.symm.trans reran)).elim

end LiveUpdate
