import LiveUpdate.Proofs.ExecutorEntries
import LiveUpdate.Proofs.Stepping

/-!
# Constructor calls in executors

In an executor every call of another type's constructor is one instruction of the engine,
which looks for the constructor in the supertype of the live version.  So it runs the
constructor that the call names exactly when that type is the supertype.
-/

set_option autoImplicit false

namespace LiveUpdate

open Exec

/-- A reference to a constructor. -/
def constructorRef (typeName : String) (sig : MethodSig) : MethodRef :=
  ⟨typeName, constructorName, sig⟩

/-- The key of a constructor. -/
def constructorKey (sig : MethodSig) : MemberKey := ⟨constructorName, sig⟩

namespace Engine

variable {e e' : Engine} {s : ScopeRef} {t : TypeRef}

/-- The live constructor of the type with a name. -/
def liveConstructor (e : Engine) (s : ScopeRef) (typeName : String) (sig : MethodSig) :
    Except RunError LiveMethod :=
  match e.class? s typeName with
  | none => .error (.classNotFound typeName)
  | some c =>
    match e.ownLiveMethod? s (constructorKey sig) c with
    | some live => .ok live
    | none => .error (.memberMissing typeName (constructorKey sig))

/-- The constructor that a constructor call in an executor of a managed type means: one of
the supertype that the live version declares. -/
def executorConstructor (e : Engine) (s : ScopeRef) (t : TypeRef) (sig : MethodSig) :
    Except RunError LiveMethod :=
  match (e.typeAt t).live.shape.superName with
  | none => .error (.memberMissing (e.typeAt t).name (constructorKey sig))
  | some superName => e.liveConstructor s superName sig

/-- Constructors are not inherited. -/
theorem resolveMethod_constructor (c : ClassRef) (sig : MethodSig) :
    e.resolveMethod s c (constructorKey sig) = .ok (e.ownLiveMethod? s (constructorKey sig) c) :=
  rfl

theorem During.class? (during : e.During e') (s : ScopeRef) (name : String) :
    e'.class? s name = e.class? s name := by
  obtain ⟨depth, same⟩ := during
  exact class?_of_skeleton_eq same s name

theorem During.typeWithId? (during : e.During e') (s : ScopeRef) (id : TypeId) :
    e'.typeWithId? s id = e.typeWithId? s id := by
  obtain ⟨depth, same⟩ := during
  have types : (e'.scopeAt s).skeleton.types = (e.scopeAt s).skeleton.types := by
    rw [scopeAt_of_skeleton_eq same]
    rfl
  exact congrArg (fun t : Table TypeId TypeRef => t.get? id) types

theorem During.typeAt (during : e.During e') (t : TypeRef) :
    (e'.typeAt t).skeleton = (e.typeAt t).skeleton := by
  obtain ⟨depth, same⟩ := during
  exact typeAt_of_skeleton_eq same t

/-- The version in force stays in force while code runs. -/
theorem During.live (during : e.During e') (t : TypeRef) :
    (e'.typeAt t).live = (e.typeAt t).live := by
  have same : (e'.typeAt t).skeleton.live = (e.typeAt t).skeleton.live :=
    congrArg ManagedType.live (during.typeAt t)
  exact same

theorem During.classAt (during : e.During e') (c : ClassRef) :
    (e'.classAt c).skeleton = (e.classAt c).skeleton := by
  obtain ⟨depth, same⟩ := during
  exact classAt_of_skeleton_eq same c

/-- An engine in which code runs knows what the one knew in which it began to run. -/
theorem During.grows (during : e.During e') : e.Grows e' := by
  obtain ⟨depth, same⟩ := during
  have begun : e.Grows { e with depth } := { Grows.refl e with }
  exact begun.trans (grows_of_skeleton_eq same)

theorem During.skeleton (during : e.During e') :
    ({ e' with depth := e.depth } : Engine).skeleton = e.skeleton := by
  obtain ⟨depth, same⟩ := during
  exact congrArg (fun e' : Engine => { e' with depth := e.depth }) same

/-- What is managed stays so while code runs, and its versions stay the same. -/
theorem During.managed (during : e.During e') (managed : e'.IsManaged t) :
    e.IsManaged t ∧ (e'.typeAt t).versions = (e.typeAt t).versions ∧
      (e'.typeAt t).published = (e.typeAt t).published := by
  have field {α : Type} (get : ManagedType → α) :
      get (e'.typeAt t).skeleton = get (e.typeAt t).skeleton := congrArg get (during.typeAt t)
  have size := congrArg (fun e : Engine => e.types.size) during.skeleton
  simp only [Engine.skeleton, Array.size_map] at size
  refine ⟨⟨size ▸ managed.1, ?_⟩, field (·.versions), field (·.published)⟩
  have native : (e'.typeAt t).native = (e.typeAt t).native := field (·.native)
  rw [← native]
  exact managed.2

theorem During.housed (during : e.During e') (housed : e.Housed) (grounded : e.Grounded) :
    e'.Housed :=
  housed.of_same during.grows grounded during.class? during.typeWithId?
    fun _ managed => (during.managed managed).1

theorem During.chronicled (during : e.During e') (reachable : e.Reachable)
    (managed : e'.IsManaged t) : e'.Chronicled t := by
  obtain ⟨managed₀, versions, published⟩ := during.managed managed
  exact (reachable.chronicled managed₀).of_grows during.grows reachable.grounded managed₀.1
    versions published

theorem During.epoch (during : e.During e') (s : ScopeRef) :
    (e'.scopeAt s).epoch = (e.scopeAt s).epoch := by
  obtain ⟨depth, same⟩ := during
  exact epoch_of_skeleton_eq same s

/-- The live constructor of a type is declared by it. -/
theorem liveConstructor_declaring (housed : e.Housed) (during : e.During e') {typeName : String}
    {sig : MethodSig} {live : LiveMethod}
    (found : e'.liveConstructor s typeName sig = .ok live) : live.declaring = typeName := by
  unfold liveConstructor at found
  rw [during.class?] at found
  cases known : e.class? s typeName with
  | none =>
    rw [known] at found
    cases found
  | some c =>
    rw [known] at found
    obtain ⟨spec, described, named, -, -⟩ := housed.classes s typeName c known
    have same := congrArg Class.name (during.classAt c)
    have name : (e'.classAt c).name = typeName := same.trans (described.nameOf_eq.trans named)
    dsimp only at found
    cases own : e'.ownLiveMethod? s (constructorKey sig) c with
    | none =>
      rw [own] at found
      cases found
    | some live' =>
      rw [own] at found
      cases found
      unfold ownLiveMethod? at own
      dsimp only at own
      split at own
      · obtain ⟨m, -, rfl⟩ := Option.map_eq_some_iff.1 own
        exact name
      · obtain ⟨m, -, rfl⟩ := Option.map_eq_some_iff.1 own
        exact name

/-- What a search for a live constructor finds tells which type it was for. -/
theorem liveConstructor_cases (housed : e.Housed) (during : e.During e') (typeName : String)
    (sig : MethodSig) :
    (∃ live, e'.liveConstructor s typeName sig = .ok live ∧ live.declaring = typeName) ∨
      e'.liveConstructor s typeName sig = .error (.classNotFound typeName) ∨
      e'.liveConstructor s typeName sig =
        .error (.memberMissing typeName (constructorKey sig)) := by
  cases found : e'.liveConstructor s typeName sig with
  | ok live => exact .inl ⟨live, rfl, liveConstructor_declaring housed during found⟩
  | error error =>
    refine .inr ?_
    unfold liveConstructor at found
    split at found
    · cases found
      exact .inl rfl
    · split at found
      · cases found
      · cases found
        exact .inr rfl

/-- Searches for the live constructors of two types never end alike. -/
theorem liveConstructor_injective (housed : e.Housed) (during : e.During e') {a b : String}
    {sig : MethodSig} (same : e'.liveConstructor s a sig = e'.liveConstructor s b sig) :
    a = b := by
  rcases liveConstructor_cases housed during (s := s) a sig with ⟨live, found, rfl⟩ | found | found
  all_goals
    rcases liveConstructor_cases housed during (s := s) b sig with ⟨live', found', rfl⟩ | found' | found'
    all_goals
      rw [found, found'] at same
      cases same <;> rfl

/-- A call of another type's constructor in an executor means that constructor exactly when
the live version extends the type. -/
theorem executorConstructor_eq_iff (housed : e.Housed) (during : e.During e') {typeName : String}
    (other : typeName ≠ (e'.typeAt t).name) (sig : MethodSig) :
    e'.executorConstructor s t sig = e'.liveConstructor s typeName sig ↔
      (e'.typeAt t).live.shape.superName = some typeName := by
  unfold executorConstructor
  cases (e'.typeAt t).live.shape.superName with
  | none =>
    refine ⟨fun same => ?_, fun none_ => by cases none_⟩
    rcases liveConstructor_cases housed during (s := s) typeName sig with
      ⟨live, found, -⟩ | found | found
    all_goals
      rw [found] at same
      cases same
    exact absurd rfl other
  | some superName =>
    refine ⟨fun same => ?_, fun same => ?_⟩
    · exact congrArg some (liveConstructor_injective housed during same)
    · cases same
      rfl

end Engine

namespace ExecutorContext

/-- A call of another type's constructor becomes one instruction of the engine. -/
theorem privileged?_constructor {ctx : ExecutorContext} {typeName : String} {sig : MethodSig}
    (other : typeName ≠ ctx.typeName) :
    ctx.privileged? (.invoke .special (constructorRef typeName sig)) =
      some (.liveInit ctx.typeId (constructorRef typeName sig)) := by
  unfold privileged? specialCall constructorRef
  simp only [other, if_false, if_true]

end ExecutorContext

namespace Machine

variable {m : Machine} {e : Engine} {t : TypeRef}

/-- The call of an inherited constructor runs the one that the engine finds. -/
theorem callInherited_constructor (sig : MethodSig) (args : List Value) (e : Engine) :
    m.callInherited t (constructorKey sig) args e =
      match e.executorConstructor m.scope t sig with
      | .ok live => m.callResolved live (constructorKey sig) args e
      | .error error => .error (.error error) e := by
  unfold callInherited Engine.executorConstructor Engine.liveConstructor
  rw [bind_apply, ask_apply]
  dsimp only
  cases (e.typeAt t).live.shape.superName with
  | none => rfl
  | some superName =>
    dsimp only
    rw [bind_apply, check_apply]
    unfold Engine.requireClass
    cases e.class? m.scope superName with
    | none => rfl
    | some parent =>
      dsimp only
      rw [bind_apply, resolve_apply, Engine.resolveMethod_constructor]
      cases e.ownLiveMethod? m.scope (constructorKey sig) parent with
      | none => rfl
      | some live => rfl

/-- Take a receiver and arguments off the stack and run on them the constructor that was
found, if one was. -/
def runConstructor (m : Machine) (sig : MethodSig) (found : Except RunError LiveMethod) :
    Step Flow := do
  let args ← Step.popMany (sig.arity + 1)
  let live ← Step.check fun _ => found
  Step.pushResult sig (← m.callResolved live (constructorKey sig) args)
  return .next

/-- The engine's instruction for a constructor call runs the constructor that executors mean. -/
theorem execute_liveInit {id : TypeId} (registered : e.typeWithId? m.scope id = some t)
    (typeName : String) (sig : MethodSig) (f : Frame) :
    m.execute (.liveInit id (constructorRef typeName sig)) f e =
      m.runConstructor sig (e.executorConstructor m.scope t sig) f e := by
  show (m.callSuperLive id (constructorRef typeName sig) >>= fun _ => pure Flow.next) f e = _
  have known : managedType e m.scope id = .ok t := by
    unfold managedType
    rw [registered]
  have count : InvokeKind.special.argCount (constructorRef typeName sig) = sig.arity + 1 := rfl
  have key : (constructorRef typeName sig).key = constructorKey sig := rfl
  unfold callSuperLive runConstructor Step.popMany
  rw [Step.bind_apply, Step.check_bind, known, count, key]
  dsimp only
  rw [Step.onFrame_bind, Step.onFrame_bind]
  cases f.popMany (sig.arity + 1) with
  | error error => rfl
  | ok next =>
    obtain ⟨args, f'⟩ := next
    dsimp only
    rw [Step.lift_bind, callInherited_constructor, Step.check_bind]
    cases e.executorConstructor m.scope t sig with
    | error error => rfl
    | ok live =>
      dsimp only
      rw [Step.lift_bind]
      cases m.callResolved live (constructorKey sig) args e with
      | error stop e' => rfl
      | ok value e' =>
        dsimp only
        rw [Step.bind_apply]
        rfl

/-- A guard that remembers nothing about a constructor call finds the live constructor of the
named type. -/
theorem liveTarget?_constructor {id : TypeId} {typeName : String} {sig : MethodSig}
    {live : LiveMethod} (found : e.liveConstructor m.scope typeName sig = .ok live)
    (forgotten : ((e.scopeAt m.scope).routes.get? (id, .special, constructorKey sig)).filter
      (fun r => r.epoch = (e.scopeAt m.scope).epoch) = none) :
    ∃ route e', m.liveTarget? id .special (constructorRef typeName sig) e = .ok (some route) e' ∧
      route.live = live := by
  unfold Engine.liveConstructor at found
  cases known : e.class? m.scope typeName with
  | none =>
    rw [known] at found
    cases found
  | some c =>
    rw [known] at found
    dsimp only at found
    cases own : e.ownLiveMethod? m.scope (constructorKey sig) c with
    | none =>
      rw [own] at found
      cases found
    | some live' =>
      rw [own] at found
      cases found
      unfold liveTarget?
      rw [bind_apply, ask_apply]
      dsimp only
      rw [show (constructorRef typeName sig).key = constructorKey sig from rfl, forgotten]
      dsimp only
      rw [show (e.scopeAt m.scope).classes.get? (constructorRef typeName sig).owner = some c from
        known]
      dsimp only
      rw [bind_apply, resolve_apply, Engine.resolveMethod_constructor, own]
      exact ⟨_, _, rfl, rfl⟩

/-- A constructor call by live versions runs the constructor on the receiver. -/
theorem callDynamic_constructor (caller : ClassRef) (typeName : String) (sig : MethodSig)
    (live : LiveMethod) (o : ObjectRef) (args : List Value) (e : Engine) :
    m.callDynamic caller .special (constructorRef typeName sig) live (.object o :: args) e =
      m.callResolved live (constructorKey sig) (.object o :: args) e := by
  have permitted : e.checkNonVirtual m.scope caller (constructorRef typeName sig) = .ok () := by
    unfold Engine.checkNonVirtual
    rfl
  unfold callDynamic
  dsimp only
  rw [bind_apply, check_apply, permitted]
  rfl

end Machine

/-- In a method of an executor the constructor calls of its source that are for other types
are instructions of the engine. -/
def Engine.ReplacesConstructorCalls (e : Engine) (t : TypeRef) (source : MethodDef) (m : Method) :
    Prop :=
  ∀ (index : Nat) (typeName : String) (sig : MethodSig), typeName ≠ (e.typeAt t).name →
    source.code[index]? = some (.invoke .special (constructorRef typeName sig)) →
    ∃ place : Nat, m.code[place]? = some (Instr.liveInit (e.typeAt t).id (constructorRef typeName sig))

theorem Engine.CompiledFrom.replaces {e : Engine} {t : TypeRef} {w : LiveVersion}
    {source : MethodDef} {m : Method} (compiled : e.CompiledFrom t w source m) :
    e.ReplacesConstructorCalls t source m := by
  intro index typeName sig other call
  obtain ⟨native, -, -, hosted, -⟩ := id compiled
  refine compiled.exists_privileged hosted call ?_ rfl
  have other : typeName ≠ (e.executorContext t native w.shape).typeName := other
  exact ExecutorContext.privileged?_constructor other

/-- The supertype of the live version is that of the version's unit. -/
theorem Engine.Recorded.live_superName {e e' : Engine} {t : TypeRef} {v : LiveVersion}
    (recorded : e.Recorded t v) (published : (e.typeAt t).published = some v)
    (during : e.During e') : (e'.typeAt t).live.shape.superName = v.unit.superName := by
  have live : (e.typeAt t).live = v := ManagedType.live_of_published published
  rw [during.live, live, TypeShape.eq_ofUnit recorded.shaped]
  rfl

/-- In a reachable engine let the version in force of a managed type have an executor, which
was compiled from a version with the same digest, so from the same methods unless two
payloads have one digest.  In its methods every constructor call of another type is one
instruction of the engine, which runs the live constructor that the call names exactly when
the version extends that type.  The guard of a host's constructor call finds the live
constructor that the call names, and a call by live versions runs it. -/
theorem executor_constructor_calls_iff {e : Engine} {t : TypeRef} {v : LiveVersion}
    {a : Artifacts} (reachable : e.Reachable) (managed : e.IsManaged t)
    (published : (e.typeAt t).published = some v) (generated : v.artifacts = some a) :
    ∃ w ∈ (e.typeAt t).versions,
      (TypeUnit.DigestsCollide w.data v.data ∨ w.unit.methods = v.unit.methods) ∧
      (∀ key m, (e.classAt a.executor).method? key = some m →
        ∃ source ∈ w.unit.bodied, e.CompiledFrom t w source m) ∧
      (∀ source ∈ w.unit.bodied, ∀ m, e.CompiledFrom t w source m →
        e.ReplacesConstructorCalls t source m) ∧
      ∀ (machine : Machine) (e' : Engine) (typeName : String) (sig : MethodSig),
        machine.scope = (e.typeAt t).scope → e.During e' → typeName ≠ (e.typeAt t).name →
        (∀ f, machine.execute (.liveInit (e.typeAt t).id (constructorRef typeName sig)) f e' =
          machine.runConstructor sig (e'.executorConstructor machine.scope t sig) f e') ∧
        (e'.executorConstructor machine.scope t sig =
            e'.liveConstructor machine.scope typeName sig ↔
          v.unit.superName = some typeName) ∧
        ∀ live, e'.liveConstructor machine.scope typeName sig = .ok live →
          (∀ id, ((e'.scopeAt machine.scope).routes.get? (id, .special, constructorKey sig)).filter
              (fun r => r.epoch = (e'.scopeAt machine.scope).epoch) = none →
            ∃ route e'', machine.liveTarget? id .special (constructorRef typeName sig) e' =
              .ok (some route) e'' ∧ route.live = live) ∧
          ∀ caller o args,
            machine.callDynamic caller .special (constructorRef typeName sig) live
                (.object o :: args) e' =
              machine.callResolved live (constructorKey sig) (.object o :: args) e' := by
  have recorded := (reachable.chronicled managed).recorded published
  have housed := reachable.housed
  obtain ⟨w, mem, alike, -, -, sources⟩ := recorded.sources generated
  refine ⟨w, mem, alike, ?_, fun source _ m compiled => compiled.replaces, ?_⟩
  · intro key m found
    obtain ⟨source, inUnit, -, compiled⟩ := sources key m found
    exact ⟨source, inUnit, compiled⟩
  · intro machine e' typeName sig scope during other
    have name : (e'.typeAt t).skeleton.name = (e.typeAt t).skeleton.name :=
      congrArg ManagedType.name (during.typeAt t)
    have name : (e'.typeAt t).name = (e.typeAt t).name := name
    obtain ⟨c, hosted⟩ := housed.hosts t managed
    have registered : e'.typeWithId? machine.scope (e.typeAt t).id = some t := by
      rw [during.typeWithId?, scope]
      exact hosted.registered
    refine ⟨fun f => Machine.execute_liveInit registered typeName sig f, ?_, fun live found => ?_⟩
    · rw [← recorded.live_superName published during]
      exact Engine.executorConstructor_eq_iff housed during (by rwa [name]) sig
    · exact ⟨fun id forgotten => Machine.liveTarget?_constructor found forgotten,
        fun caller o args => Machine.callDynamic_constructor caller typeName sig live o args e'⟩

namespace Constructing

/-- A type with a constructor. -/
def constructed : TypeUnit :=
  (TypeUnit.named "app.X").addMethod (.make constructorName ⟨[], .void⟩ .publicBit [.ret])

/-- A static method that gives an object. -/
def maker (code : List Instr) : MethodDef :=
  .make "make" ⟨[], .ref "app.X"⟩ (.publicBit ||| .staticBit) code

/-- A type with that method. -/
def making (code : List Instr) : TypeUnit := (TypeUnit.named "app.T").addMethod (maker code)

/-- A body that makes an object. -/
def allocating : List Instr :=
  [.new "app.X", .dup, .invoke .special (constructorRef "app.X" ⟨[], .void⟩), .retValue]

/-- A scope in which both types were defined. -/
def defined : Engine :=
  ((Engine.opened { included := ["app.*"] }).defining 4 constructed).defining 4
    (making [.constNull, .retValue])

/-- The scope after a reload in which the method makes an object. -/
def engine : Engine := defined.reloading 4 1 "later" (making allocating)

/-- The executor's method after the reload. -/
def compiled : Method where
  key := ⟨"make", ⟨[], .ref "app.X"⟩⟩
  modifiers := .publicBit ||| .staticBit ||| .syntheticBit
  declared := .publicBit ||| .staticBit ||| .syntheticBit
  declaring := "app.T$$E1"
  maxLocals := 0
  code := [.new "app.X", .dup, .liveInit 1 (constructorRef "app.X" ⟨[], .void⟩), .retValue]

/-- A machine whose calls all succeed. -/
def machine : Machine := ⟨0, fun _ _ _ => pure .null⟩

/-- The frame of the executor's method with a new object on the stack. -/
def frame : Frame := ((Frame.enter 4 compiled []).push (.object 0)).push (.object 0)

/-- Whether a step was made without an error. -/
def succeeds (made : EStateM.Result (Stop RunError) Engine (Flow × Frame)) : Bool :=
  match made with
  | .ok .. => true
  | .error .. => false

set_option maxRecDepth 100000 in
theorem outcomes : defined.types.size = 2 ∧ engine.IsManaged 1 ∧
    (engine.typeAt 1).published.isSome ∧
    ((engine.typeAt 1).name, (engine.typeAt 1).id, (engine.typeAt 1).scope) = ("app.T", 1, 0) ∧
    (engine.typeAt 1).live.unit = making allocating ∧
    (engine.typeAt 1).live.artifacts = some ⟨2, 3⟩ ∧
    (engine.classAt 3).method? (executorKey "app.T" (.ofDef (maker allocating))) = some compiled ∧
    succeeds (machine.runConstructor ⟨[], .void⟩ (engine.liveConstructor 0 "app.X" ⟨[], .void⟩)
      frame engine) = true ∧
    succeeds (machine.execute (.liveInit 1 (constructorRef "app.X" ⟨[], .void⟩)) frame engine) =
      false := by
  decide +kernel

set_option maxRecDepth 100000 in
theorem reachable : engine.Reachable := by
  have both : defined.Reachable :=
    ((Engine.reachable_opened _).defining 4 _ (by decide)).defining 4 _ (by decide +kernel)
  have type_lt : 1 < defined.types.size := by
    rw [outcomes.1]
    exact Nat.one_lt_two
  exact both.reloading 4 1 _ _ type_lt

theorem published : (engine.typeAt 1).published = some (engine.typeAt 1).live :=
  ManagedType.published_eq_live outcomes.2.2.1

end Constructing

open Constructing in
/-- In the executor of a type without a supertype the call does not mean the constructor. -/
theorem executor_constructor_calls_constructing :
    ∃ w ∈ (engine.typeAt 1).versions,
      (TypeUnit.DigestsCollide w.data (engine.typeAt 1).live.data ∨
        w.unit.methods = (engine.typeAt 1).live.unit.methods) ∧
      (∀ f, machine.execute
          (.liveInit (engine.typeAt 1).id (constructorRef "app.X" ⟨[], .void⟩)) f engine =
        machine.runConstructor ⟨[], .void⟩ (engine.executorConstructor 0 1 ⟨[], .void⟩) f engine) ∧
      engine.executorConstructor 0 1 ⟨[], .void⟩ ≠
        engine.liveConstructor 0 "app.X" ⟨[], .void⟩ := by
  obtain ⟨-, managed, -, ids, source, generated, -⟩ := outcomes
  obtain ⟨name, -, scope⟩ : _ = _ ∧ _ = _ ∧ _ = _ := by simpa only [Prod.mk.injEq] using ids
  obtain ⟨w, mem, same, -, -, runs⟩ :=
    executor_constructor_calls_iff reachable managed published generated
  have other : "app.X" ≠ (engine.typeAt 1).name := by
    rw [name]
    decide
  obtain ⟨executes, means, -⟩ := runs machine engine "app.X" ⟨[], .void⟩ scope.symm
    (.refl engine) other
  refine ⟨w, mem, same, executes, fun eq => ?_⟩
  have super := means.1 eq
  rw [source] at super
  cases super

open Constructing in
/-- The engine's instruction for a constructor call in the code of an executor does not run
the live constructor that the call names. -/
theorem executor_constructor_calls_missed :
    ¬ ∀ (e : Engine) (t : TypeRef) (v : LiveVersion) (a : Artifacts),
      e.Reachable → e.IsManaged t → (e.typeAt t).published = some v → v.artifacts = some a →
      ∀ source ∈ v.unit.bodied, ∀ (m : Method) (index place : Nat) (typeName : String)
        (sig : MethodSig), typeName ≠ (e.typeAt t).name →
        source.code[index]? = some (.invoke .special (constructorRef typeName sig)) →
        (e.classAt a.executor).method? (executorKey (e.typeAt t).name (.ofDef source)) = some m →
        m.code[place]? = some (.liveInit (e.typeAt t).id (constructorRef typeName sig)) →
        ∀ (machine : Machine) (f : Frame), machine.scope = (e.typeAt t).scope →
          machine.execute (.liveInit (e.typeAt t).id (constructorRef typeName sig)) f e =
            machine.runConstructor sig (e.liveConstructor machine.scope typeName sig) f e := by
  intro right
  obtain ⟨-, managed, -, ids, unit_eq, generated, found, runs, fails⟩ := outcomes
  obtain ⟨name, id, scope⟩ : _ = _ ∧ _ = _ ∧ _ = _ := by simpa only [Prod.mk.injEq] using ids
  have right := right engine 1 _ ⟨2, 3⟩ reachable managed published generated
  rw [unit_eq, name, id, scope] at right
  have inUnit : maker allocating ∈ (making allocating).bodied := List.mem_cons_self
  have same : machine.execute (.liveInit 1 (constructorRef "app.X" ⟨[], .void⟩)) frame engine =
      machine.runConstructor ⟨[], .void⟩ (engine.liveConstructor 0 "app.X" ⟨[], .void⟩) frame engine :=
    right _ inUnit compiled 2 2 "app.X" ⟨[], .void⟩ (by decide) rfl found rfl machine frame rfl
  rw [same, runs] at fails
  cases fails

end LiveUpdate
