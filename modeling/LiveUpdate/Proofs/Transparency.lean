import LiveUpdate.Proofs.Remembering

/-!
# What guards remember makes no difference

Between two publications in a scope nothing changes that a route depends on.  So in an engine in
which the guards name the owners of what they stand in front of, and all scopes have one table of
names, the guard of an invocation decides as it would if its scope remembered nothing.  This holds
at any time: between operations, and at every moment while code runs.
-/

set_option autoImplicit false

namespace LiveUpdate

open Exec

/-- What a scope remembers of routes, and of which epoch it remembers it. -/
def Scope.memory (scope : Scope) : Table RouteKey CachedRoute × Nat := (scope.routes, scope.epoch)

namespace Engine

variable {e e' : Engine} {s : ScopeRef} {names : NameTable}

section Edits

/-- What is left alone in one scope is left alone in all. -/
theorem memory_updateScope (e : Engine) (s : ScopeRef) {f : Scope → Scope}
    (kept : ∀ scope, (f scope).memory = scope.memory) (s' : ScopeRef) :
    ((e.updateScope s f).scopeAt s').memory = (e.scopeAt s').memory := by
  rw [scopeAt_updateScope]
  split
  · exact kept _
  · rfl

theorem memory_addClass (e : Engine) (s : ScopeRef) (cls : Class) (s' : ScopeRef) :
    ((e.addClass s cls).scopeAt s').memory = (e.scopeAt s').memory := by
  refine memory_updateScope { e with classes := e.classes.push cls } s ?_ s'
  intro scope
  rfl

/-- A publication makes the scope of the type forget its routes. -/
theorem routes_publish (t : TypeRef) (v : LiveVersion) (here : (e.typeAt t).scope = s) :
    ((e.publish t v).scopeAt s).routes = [] := by
  unfold Engine.publish
  rw [scopeAt_updateScope]
  split
  · rfl
  next beyond =>
    have absent : (e.updateType t fun type => type.publish v).scopeAt s = default := by
      refine getD_of_le _ _ (Nat.le_of_not_lt fun lt => beyond ⟨here, lt⟩)
    rw [absent]
    rfl

/-- An edit is a run of code, or makes a scope forget its routes, or leaves what the scope
remembers and the live versions of its types as they are. -/
theorem Edit.remembers (edit : e.Edit e') (housed : e.Housed) (s : ScopeRef) :
    (∀ law : Law, law.holds e → law.holds e') ∨ (e'.scopeAt s).routes = [] ∨
      ((e'.scopeAt s).memory = (e.scopeAt s).memory ∧ e.Steady s e') := by
  have grows := edit.grows
  have pushed (type : ManagedType) (id : TypeId) (t : TypeRef)
      (registered : e.typeWithId? s id = some t) :
      (({ e with types := e.types.push type } : Engine).typeAt t).live = (e.typeAt t).live := by
    rw [typeAt_push, if_neg (Nat.ne_of_lt (housed.types s id t registered).1.1)]
  have updated (t' : TypeRef) {f : ManagedType → ManagedType}
      (kept : (f (e.typeAt t')).live = (e.typeAt t').live) (t : TypeRef) :
      ((e.updateType t' f).typeAt t).live = (e.typeAt t).live := by
    have at_ : (e.updateType t' f).typeAt t = _ := getD_modify_or e.types t' f t default
    rw [at_]
    split
    next here => exact here.1 ▸ kept
    next => rfl
  cases edit with
  | run same lawful => exact .inl lawful
  | openScope options filter registry usable known =>
    have at_ : ({ e with scopes := e.scopes.push (.empty options filter registry) } :
        Engine).scopeAt s = if s = e.scopes.size then .empty options filter registry
          else e.scopeAt s := getD_push _ _ _ _
    by_cases last : s = e.scopes.size
    · rw [at_, if_pos last]
      exact .inr (.inl rfl)
    · rw [at_, if_neg last]
      exact .inr (.inr ⟨rfl, grows, fun _ _ _ => rfl⟩)
  | setDepth | addRegistry | number | trace =>
    exact .inr (.inr ⟨rfl, grows, fun _ _ _ => rfl⟩)
  | countClass s' | observe s' | close s' =>
    refine .inr (.inr ⟨memory_updateScope e s' ?_ s, grows, fun _ _ _ => rfl⟩)
    intro scope
    rfl
  | addClass s' spec cls =>
    exact .inr (.inr ⟨memory_addClass e s' cls s, grows, fun _ _ _ => rfl⟩)
  | manage s' type form parent interfaces cls =>
    have typed : ((e.addType s' type).scopeAt s).memory = (e.scopeAt s).memory := by
      refine memory_updateScope { e with types := e.types.push type } s' ?_ s
      intro scope
      rfl
    exact .inr (.inr ⟨(memory_addClass _ s' cls s).trans typed, grows, pushed type⟩)
  | abandon type => exact .inr (.inr ⟨rfl, grows, pushed type⟩)
  | countArtifact t | addSlots t | refuse t | remember t =>
    exact .inr (.inr ⟨rfl, grows, fun _ t' _ => updated t rfl t'⟩)
  | publish t v offers =>
    by_cases here : (e.typeAt t).scope = s
    · exact .inr (.inl (routes_publish t v here))
    · refine .inr (.inr ⟨?_, grows, fun id t' registered => ?_⟩)
      · unfold Engine.publish
        rw [scopeAt_updateScope, if_neg fun same => here same.1]
        rfl
      · have other : t ≠ t' := fun same => here (same ▸ (housed.types s id t' registered).2.1)
        have at_ : (e.publish t v).typeAt t' = _ := getD_modify_or e.types t _ t' default
        rw [at_, if_neg fun same => other same.1]
        rfl

/-- An edit keeps what is remembered right. -/
theorem Edit.recalls (edit : e.Edit e') (housed : e.Housed) (grounded : e.Grounded)
    (lineage : e.Lineage) (faithful : Faithful names e) : e'.Recalls names := by
  intro s key route held current
  rcases edit.remembers housed s with lawful | forgotten | ⟨memory, steady⟩
  · exact (lawful (.routes names) faithful).recalls s key route held current
  · rw [forgotten] at held
    cases held
  · have routes : (e'.scopeAt s).routes = (e.scopeAt s).routes := congrArg Prod.fst memory
    have epoch : (e'.scopeAt s).epoch = (e.scopeAt s).epoch := congrArg Prod.snd memory
    rw [routes] at held
    rw [epoch] at current
    exact (faithful.recalls s key route held current).steady steady housed grounded lineage

/-- What comes about by edits remembers right routes, if the guards of its methods name the
owners of what they stand in front of: those of earlier methods did so, too. -/
theorem Edits.recalls (edits : Edits {} e)
    (guards : ∀ method, e.Declares method → method.GuardsOwners names) : e.Recalls names := by
  induction edits with
  | refl => exact fun s key route held => by cases held
  | tail before edit ih =>
    have guards' := fun method declares => guards method (Declares.of_grows declares edit.grows)
    exact edit.recalls (Edits.housed before grounded_empty housed_empty)
      (Edits.grounded before grounded_empty) (Edits.lineage before)
      ⟨Edits.runsOnly before guards', ih guards'⟩

end Edits

/-- One thing that happens: an operation, or a step of running code.  Code executes an instruction
in a frame of a declared method, calls and returns, and begins and ends the initialization of a
class. -/
inductive Happens (e : Engine) : Engine → Prop
  | operate {e' : Engine} (operation : e.Operation e') : Happens e e'
  | execute (s : ScopeRef) (fuel : Nat) (frame : Frame) (instr : Instr)
      (here : frame.instr? = some instr) (declared : e.Declares frame.method) :
      Happens e (((Machine.of s fuel).execute instr frame).final e)
  | setDepth (depth : Nat) : Happens e { e with depth }
  | beginInit (c : ClassRef) : Happens e (e.beginInit c).2
  | finishInit (c : ClassRef) : Happens e (e.finishInit c)

/-- Whatever happens is a series of edits. -/
theorem Happens.edits (happens : e.Happens e') (grounded : e.Grounded) : e.Edits e' := by
  cases happens with
  | operate operation => exact operation.edits grounded
  | execute s fuel frame instr here declared =>
    obtain ⟨c, key, found⟩ := declared
    have same := Machine.keeps_execute (keepsSkeleton_of s fuel) here e
    exact (Edit.run same fun law holds =>
      ((Machine.obeys_execute (obeys_of law s fuel) (law.declared holds found) here).final
        holds).1).edits
  | setDepth depth => exact (Edit.setDepth depth).edits
  | beginInit c =>
    have same : (e.beginInit c).2.skeleton = e.skeleton := by
      unfold Engine.beginInit
      split
      · exact e.skeleton_updateClass c _ fun _ => rfl
      · rfl
    exact (Edit.run same fun law => law.writes (e.writes_beginInit c)).edits
  | finishInit c =>
    have same : (e.finishInit c).skeleton = e.skeleton := e.skeleton_updateClass c _ fun _ => rfl
    exact (Edit.run same fun law => law.writes (e.writes_finishInit c)).edits

/-- Anything may have happened. -/
def History : Engine → Prop := Relation.ReflTransGen Happens {}

theorem History.edits (history : e.History) : Edits {} e ∧ e.Grounded := by
  induction history with
  | refl => exact ⟨.refl, grounded_empty⟩
  | tail _ happens ih =>
    have edits := happens.edits ih.2
    exact ⟨ih.1.trans edits, Edits.grounded edits ih.2⟩

/-- Operations one after another are a history. -/
theorem Reachable.history (reachable : e.Reachable) : e.History := by
  induction reachable with
  | refl => exact .refl
  | tail _ operation ih => exact ih.tail (.operate operation)

/-- An engine with one table of names has it in all scopes. -/
theorem Grounded.namesOf_eq (grounded : e.Grounded) (one : e.registries.size ≤ 1)
    (s s' : ScopeRef) : e.namesOf s = e.namesOf s' := by
  have first (s : ScopeRef) : (e.scopeAt s).registry = 0 := by
    by_cases lt : s < e.scopes.size
    · exact Nat.lt_one_iff.1 (Nat.lt_of_lt_of_le (grounded.registry s lt) one)
    · have absent : e.scopeAt s = default := getD_of_le _ _ (Nat.le_of_not_lt lt)
      rw [absent]
      rfl
  unfold Engine.namesOf
  rw [first, first]

/-- Where all instructions of the engine are where it puts them, guards name owners. -/
theorem AllGenuine.guards (genuine : e.AllGenuine) (shared : ∀ s, e.namesOf s = names)
    (method : Method) (declares : e.Declares method) : method.GuardsOwners names := by
  intro pc id kind ref here next
  obtain ⟨c, key, found⟩ := declares
  by_cases lt : c < e.classes.size
  · obtain ⟨s, -, genuine⟩ := genuine c lt
    cases genuine key method found pc _ here rfl with
    | call next' numbered =>
      rw [next] at next'
      cases next'
      exact shared s ▸ numbered
  · rw [classAt_of_le (Nat.le_of_not_lt lt)] at found
    cases found

/-- What is refused, and with which error, does not change while code runs. -/
theorem checkAccess_of_skeleton_eq (same : e'.skeleton = e.skeleton) (caller : ClassRef)
    (declaring : String) (modifiers : Modifiers) (member : String) :
    e'.checkAccess s caller declaring modifiers member =
      e.checkAccess s caller declaring modifiers member := by
  have refusal (e : Engine) :
      e.skeleton.refusal s caller modifiers member = e.refusal s caller modifiers member := by
    unfold Engine.refusal nameOf
    rw [actingClass_skeleton, classAt_skeleton]
    rfl
  rw [checkAccess_eq, checkAccess_eq, mayUse_of_skeleton_eq same, ← refusal e', same, refusal e]

/-- The engine in which a scope remembers no routes. -/
def forgetRoutes (e : Engine) (s : ScopeRef) : Engine :=
  e.updateScope s fun scope => { scope with routes := [] }

theorem skeleton_forgetRoutes (e : Engine) (s : ScopeRef) :
    (e.forgetRoutes s).skeleton = e.skeleton :=
  e.skeleton_updateScope s _ fun _ => rfl

theorem routes_forgetRoutes (e : Engine) (s : ScopeRef) :
    ((e.forgetRoutes s).scopeAt s).routes = [] := by
  unfold forgetRoutes
  rw [scopeAt_updateScope]
  split
  · rfl
  next beyond =>
    have absent : e.scopeAt s = default :=
      getD_of_le _ _ (Nat.le_of_not_lt fun lt => beyond ⟨rfl, lt⟩)
    rw [absent]
    rfl

end Engine

namespace Machine

open Engine

variable {m : Machine} {e e' : Engine} {id : TypeId} {kind : InvokeKind} {method : MethodRef}

/-- What a guard would find does not change while code runs. -/
theorem freshRoute?_of_skeleton_eq (same : e'.skeleton = e.skeleton) :
    m.freshRoute? e' kind method = m.freshRoute? e kind method := by
  have during := During.of_skeleton_eq same
  unfold freshRoute?
  simp only [during.class?, during.resolveMethod, during.linksTo, during.epoch]

/-- A guard answers with what it would find, if that is what it remembers. -/
theorem answer_liveTarget? (right : ∀ route, m.recalled? e (id, kind, method.key) = some route →
      m.freshRoute? e kind method = .ok (some route)) :
    (m.liveTarget? id kind method).answer e = m.freshRoute? e kind method := by
  unfold answer
  cases recalled : m.recalled? e (id, kind, method.key) with
  | some route => rw [liveTarget?_recalled recalled, right route recalled]
  | none =>
    rw [liveTarget?_fresh recalled]
    cases m.freshRoute? e kind method with
    | error stop => rfl
    | ok found => cases found <;> rfl

/-- A guard decides by the route alone, in engines that only running code tells apart. -/
theorem answer_routeInvoke_congr (same : e'.skeleton = e.skeleton)
    (target : (m.liveTarget? id kind method).answer e' = (m.liveTarget? id kind method).answer e)
    (caller : ClassRef) : (m.routeInvoke caller id kind method).answer e' =
      (m.routeInvoke caller id kind method).answer e := by
  have kept (e : Engine) := keepsSkeleton_liveTarget? (m := m) id kind method e
  unfold routeInvoke
  rw [answer_bind, answer_bind, ask_apply, ask_apply]
  dsimp only
  rw [epoch_of_skeleton_eq same]
  split
  · rfl
  · have after := (kept e').trans (same.trans (kept e).symm)
    unfold answer at target
    unfold final at after
    rw [answer_bind, answer_bind]
    cases run : m.liveTarget? id kind method e with
    | error stop e₁ =>
      cases run' : m.liveTarget? id kind method e' with
      | error stop' e₁' =>
        rw [run, run'] at target
        cases target
        rfl
      | ok found' e₁' =>
        rw [run, run'] at target
        cases target
    | ok found e₁ =>
      cases run' : m.liveTarget? id kind method e' with
      | error stop' e₁' =>
        rw [run, run'] at target
        cases target
      | ok found' e₁' =>
        rw [run, run'] at target after
        cases target
        cases found with
        | none => rfl
        | some route =>
          dsimp only
          rw [answer_bind, answer_bind, ofResult_apply, ofResult_apply]
          cases checkInvokeKind kind method route.live.isStatic with
          | error error => rfl
          | ok _ =>
            dsimp only
            rw [answer_bind, answer_bind, check_apply, check_apply,
              checkAccess_of_skeleton_eq after]
            cases e₁.checkAccess m.scope caller route.live.declaring route.live.modifiers
              method.text with
            | error error => rfl
            | ok _ => cases route.nativeOk <;> rfl

end Machine

open Engine in
/-- What guards remember makes no difference.  Whatever happened to an engine, in whatever order,
as long as the instructions of the engine in it are where the engine puts them, one table of names
serves all scopes and its numbers have not run out: a guard that names the owner of what is invoked
by its number decides as it would if its scope remembered no routes. -/
theorem remembered_routes_transparent {e : Engine} (history : e.History) (genuine : e.AllGenuine)
    (one : e.registries.size ≤ 1) (m : Machine) (few : (e.namesOf m.scope).size ≤ UInt32.size)
    {id : TypeId} {method : MethodRef}
    (numbered : (e.namesOf m.scope).lookup method.owner = some id) (caller : ClassRef)
    (kind : InvokeKind) : (m.routeInvoke caller id kind method).answer e =
      (m.routeInvoke caller id kind method).answer (e.forgetRoutes m.scope) := by
  obtain ⟨edits, grounded⟩ := history.edits
  have shared := fun s => grounded.namesOf_eq one s m.scope
  have recalls := Edits.recalls edits (genuine.guards shared)
  have same := e.skeleton_forgetRoutes m.scope
  refine (Machine.answer_routeInvoke_congr same ?_ caller).symm
  have forgotten : m.recalled? (e.forgetRoutes m.scope) (id, kind, method.key) = none := by
    unfold Machine.recalled?
    rw [e.routes_forgetRoutes]
    rfl
  rw [Machine.answer_liveTarget? fun route recalled => absurd (forgotten.symm.trans recalled) nofun,
    Machine.answer_liveTarget? fun route recalled =>
      Machine.freshRoute?_of_recalled recalls few numbered recalled,
    Machine.freshRoute?_of_skeleton_eq same]

namespace Recalling

/-- A unit with a static method that answers a number. -/
def answering (name : String) (n : Int64) : TypeUnit :=
  (TypeUnit.named name).addMethod
    (.make "m" ⟨[], .int⟩ (.publicBit ||| .staticBit) [.constInt n, .retValue])

/-- A unit with a static method of some code. -/
def calling (name : String) (code : List Instr) : TypeUnit :=
  (TypeUnit.named name).addMethod
    (.make "call" ⟨[], .int⟩ (.publicBit ||| .staticBit) (code ++ [.retValue]))

def method : MethodRef := ⟨"app.A", "m", ⟨[], .int⟩⟩

/-- A class that calls the method. -/
def caller : TypeUnit := calling "lib.V" [.invoke .static method]

/-- A class that says that the engine wrote it.  Its guard names the type, but stands in front of
the call of another type's method. -/
def confusing : TypeUnit :=
  { calling "lib.U" [.invokeCheck 0, .invoke .static { method with owner := "core.B" }] with
    flags := TypeUnit.instrumentedFlag }

/-- The method of a class is called from outside. -/
def use (name : String) : Scope.Use := .invokeStatic name ⟨"call", ⟨[], .int⟩⟩ []

def opened : Engine := .opened { included := ["app.*"] }

def defined : Engine := opened.defining 8 (.named "app.A")

/-- The type has got the method in a reload. -/
def reloaded : Engine := defined.reloading 8 0 "second" (answering "app.A" 2)

def prepared : Engine := (reloaded.defining 8 (answering "core.B" 1)).defining 8 caller

/-- The method was called, and the guard remembers the route. -/
def recalling : Engine := ((use "lib.V").perform 8 0).final prepared

/-- The other type's method was called, and its route is remembered as if it were the type's. -/
def confused : Engine := ((use "lib.U").perform 8 0).final (prepared.defining 8 confusing)

/-- How the guard of a call of the method decides. -/
def route (e : Engine) : Except (Stop RunError) InvokeRoute :=
  ((Machine.of 0 8).routeInvoke 4 0 .static method).answer e

def isNative (answer : Except (Stop RunError) InvokeRoute) : Bool :=
  match answer with
  | .ok .native => true
  | _ => false

set_option maxRecDepth 100000 in
theorem facts :
    ((opened.scopes.size = 1 ∧ opened.classes.size = 0) ∧
      (defined.scopes.size = 1 ∧ defined.types.size = 1) ∧ reloaded.scopes.size = 1 ∧
      (reloaded.defining 8 (answering "core.B" 1)).scopes.size = 1 ∧ prepared.scopes.size = 1 ∧
      recalling.classes.size = prepared.classes.size) ∧
    (Unmarked (TypeUnit.named "app.A").encode ∧ Unmarked (answering "app.A" 2).encode ∧
      Unmarked (answering "core.B" 1).encode ∧ Unmarked caller.encode) ∧
    (recalling.registries.size = 1 ∧ (recalling.namesOf 0).size = 1 ∧
      (recalling.namesOf 0).lookup method.owner = some 0 ∧ (recalling.scopeAt 0).epoch = 1 ∧
      (recalling.scopeAt 0).routes.length = 1) ∧
    (confused.namesOf 0).lookup method.owner = some 0 ∧ (confused.scopeAt 0).epoch = 1 ∧
      isNative (route confused) = true ∧ isNative (route (confused.forgetRoutes 0)) = false := by
  decide +kernel

theorem trusted : prepared.Trusted := by
  obtain ⟨⟨⟨one, none_⟩, ⟨one', types⟩, two, three, -, -⟩, ⟨bare, grown, other, user⟩, -⟩ := facts
  have registry : Engine.Trusted ((Scope.newRegistry : Run RegistryRef).final {}) :=
    .single (.other .newRegistry rfl)
  have scope : (Engine.opened { included := ["app.*"] }).Trusted :=
    registry.tail (.other (.openWith _ 0 Nat.zero_lt_one) none_)
  have first : defined.Trusted :=
    scope.tail (.define 8 0 (TypeUnit.named "app.A").encode (one ▸ Nat.one_pos) bare)
  have second : reloaded.Trusted :=
    first.tail (.load 8 0 "second" (answering "app.A" 2).encode (types ▸ Nat.one_pos) grown)
  have both : (reloaded.defining 8 (answering "core.B" 1)).Trusted :=
    second.tail (.define 8 0 (answering "core.B" 1).encode (two ▸ Nat.one_pos) other)
  exact both.tail (.define 8 0 caller.encode (three ▸ Nat.one_pos) user)

theorem call_trusted : recalling.Trusted := by
  obtain ⟨⟨-, -, -, -, -, same⟩, -⟩ := facts
  exact trusted.tail (.other (.use 8 0 (use "lib.V")) same)

end Recalling

open Recalling in
/-- A guard that remembers a route decides as if it did not. -/
theorem remembered_routes_transparent_recalling : recalling.History ∧ recalling.AllGenuine ∧
    recalling.registries.size ≤ 1 ∧ (recalling.namesOf 0).size ≤ UInt32.size ∧
    (recalling.namesOf 0).lookup method.owner = some 0 ∧ (recalling.scopeAt 0).epoch = 1 ∧
    (recalling.scopeAt 0).routes.length = 1 ∧
    route recalling = route (recalling.forgetRoutes 0) := by
  obtain ⟨-, -, ⟨one, few, numbered, epoch, routes⟩, -⟩ := facts
  have history := call_trusted.reachable.history
  have genuine := call_trusted.allGenuine
  have few : (recalling.namesOf 0).size ≤ UInt32.size := few ▸ by decide
  exact ⟨history, genuine, Nat.le_of_eq one, few, numbered, epoch, routes,
    remembered_routes_transparent history genuine (Nat.le_of_eq one) (Machine.of 0 8) few
      numbered 4 .static⟩

open Recalling in
/-- A guard that names the owner of what is invoked decides by the route of another type's method,
which a guard with the same number has left behind. -/
theorem remembered_routes_confused : confused.History ∧ (confused.scopeAt 0).epoch = 1 ∧
    (confused.namesOf 0).lookup method.owner = some 0 ∧
    ((Machine.of 0 8).routeInvoke 4 0 .static method).answer confused ≠
      ((Machine.of 0 8).routeInvoke 4 0 .static method).answer (confused.forgetRoutes 0) := by
  obtain ⟨⟨-, -, -, -, scopes, -⟩, -, -, numbered, epoch, native, dynamic⟩ := facts
  have defined : (prepared.defining 8 confusing).Reachable :=
    trusted.reachable.defining 8 confusing (scopes ▸ Nat.one_pos)
  have called : confused.Reachable := defined.step (.use 8 0 (use "lib.U"))
  refine ⟨called.history, epoch, numbered, fun same => ?_⟩
  have same : isNative (route confused) = isNative (route (confused.forgetRoutes 0)) :=
    congrArg isNative same
  rw [native, dynamic] at same
  cases same

end LiveUpdate
