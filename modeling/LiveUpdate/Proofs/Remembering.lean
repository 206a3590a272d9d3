import LiveUpdate.Proofs.Provenance
import LiveUpdate.Proofs.Resolving

/-!
# Remembered routes

The guard of an invocation remembers what live versions make of it, under the number that the
guard names, the kind of the invocation and the member, but not under the owner of the member.
As long as every guard names the number of the owner, what is remembered is what a search would
find: a publication makes a scope forget, and whatever else happens only adds to the engine.
-/

set_option autoImplicit false

namespace LiveUpdate

open Exec

namespace Engine

variable {e e' : Engine} {s : ScopeRef} {names : NameTable}

section Running

/-! Where the methods that run come from. -/

/-- All methods that may run satisfy a condition: those that classes declare, those that virtual
calls select, and those that slots of managed types are redirected to. -/
structure RunsOnly (e : Engine) (runs : Method → Prop) : Prop where
  declared : ∀ {c key method}, (e.classAt c).method? key = some method → runs method
  selected : ∀ {c key method}, (e.classAt c).vtable.get? key = some method → runs method
  entered : ∀ {t key method}, (key, .executor method) ∈ (e.typeAt t).live.dispatch.entries →
    runs method

theorem RunsOnly.during {runs : Method → Prop} (only : e.RunsOnly runs) (during : e.During e') :
    e'.RunsOnly runs where
  declared found := only.declared ((during.method? _ _).symm.trans found)
  selected {c key method} found := by
    have vtable := congrArg Class.vtable (during.classAt c)
    exact only.selected ((congrArg (fun t : Table MemberKey Method => t.get? key) vtable).symm.trans
      found)
  entered {t key method} mem := by
    have live := congrArg ManagedType.live (during.typeAt t)
    exact only.entered ((congrArg (fun v : LiveVersion => v.dispatch.entries) live) ▸ mem)

/-- A class declares a method. -/
def Declares (e : Engine) (method : Method) : Prop :=
  ∃ c key, (e.classAt c).method? key = some method

/-- Methods stay declared. -/
theorem Declares.of_grows {method : Method} (declares : e.Declares method) (grows : e.Grows e') :
    e'.Declares method := by
  obtain ⟨c, key, found⟩ := declares
  by_cases lt : c < e.classes.size
  · exact ⟨c, key, (grows.class_eq lt (·.method? key) fun _ => rfl).trans found⟩
  · rw [classAt_of_le (Nat.le_of_not_lt lt)] at found
    cases found

/-- What virtual calls select was declared by a class. -/
theorem Lineage.declares_of_vtable (lineage : e.Lineage) {c : ClassRef} {key : MemberKey}
    {method : Method} (selected : (e.classAt c).vtable.get? key = some method) :
    e.Declares method := by
  induction c using lineage.induction with
  | absent c absent =>
    rw [absent] at selected
    cases selected
  | founded c spec founded ih =>
    rw [founded.described.get?_vtable] at selected
    rcases Option.or_eq_some_iff.1 selected with own | ⟨-, inherited⟩
    · exact ⟨c, key, (Option.filter_eq_some_iff.1 own).1⟩
    · unfold Engine.inheritedVtable at inherited
      rw [founded.described.parent_eq] at inherited
      cases parent : spec.parent with
      | none =>
        rw [parent] at inherited
        cases inherited
      | some p =>
        rw [parent] at inherited
        exact ih p (founded.described.parent_lt p parent) inherited

/-- What slots are redirected to is declared by a class. -/
def Redirects (e : Engine) : Prop :=
  ∀ t key method, (key, .executor method) ∈ (e.typeAt t).live.dispatch.entries → e.Declares method

/-- A slot is redirected to what it was redirected to, or to what a class declares. -/
theorem Edit.entered (edit : e.Edit e') {t : TypeRef} {key : MemberKey} {method : Method}
    (mem : (key, .executor method) ∈ (e'.typeAt t).live.dispatch.entries) :
    (key, .executor method) ∈ (e.typeAt t).live.dispatch.entries ∨ e.Declares method := by
  have pushed (type : ManagedType)
      (unexecuted : (key, .executor method) ∉ type.live.dispatch.entries)
      (mem : (key, .executor method) ∈
        (({ e with types := e.types.push type } : Engine).typeAt t).live.dispatch.entries) :
      (key, .executor method) ∈ (e.typeAt t).live.dispatch.entries := by
    rw [typeAt_push] at mem
    split at mem
    · exact absurd mem unexecuted
    · exact mem
  have updated (t' : TypeRef) (f : ManagedType → ManagedType)
      (kept : (f (e.typeAt t)).live = (e.typeAt t).live)
      (mem : (key, .executor method) ∈ ((e.updateType t' f).typeAt t).live.dispatch.entries) :
      (key, .executor method) ∈ (e.typeAt t).live.dispatch.entries := by
    have at_ : (e.updateType t' f).typeAt t = _ := getD_modify_or e.types t' f t default
    rw [at_] at mem
    split at mem
    · exact kept ▸ mem
    · exact mem
  cases edit with
  | run same lawful =>
    have live := congrArg ManagedType.live (typeAt_of_skeleton_eq same t)
    exact .inl ((congrArg (fun v : LiveVersion => v.dispatch.entries) live) ▸ mem)
  | manage s type form parent interfaces cls manages hosted admits =>
    exact .inl (pushed type (manages.unexecuted key method) mem)
  | abandon type unhosted unexecuted => exact .inl (pushed type (unexecuted key method) mem)
  | countArtifact t' | refuse t' | remember t' | addSlots t' => exact .inl (updated t' _ rfl mem)
  | publish t' v offers =>
    have at_ : (e.publish t' v).typeAt t = _ := getD_modify_or e.types t' _ t default
    rw [at_] at mem
    split at mem
    · have mem : (key, .executor method) ∈ v.dispatch.entries := mem
      rw [offers.dispatch] at mem
      obtain ⟨slot, -, same⟩ := List.mem_map.1 mem
      obtain ⟨own, -, -, found⟩ := DispatchTable.entryFor_eq_executor (Prod.mk.inj same).2
      obtain ⟨cls, executor, declared⟩ := Option.bind_eq_some_iff.1 found
      obtain ⟨a, -, rfl⟩ := Option.map_eq_some_iff.1 executor
      exact .inr ⟨_, _, declared⟩
    · exact .inl mem
  | _ => exact .inl mem

theorem Edits.redirects (edits : Edits {} e) : e.Redirects := by
  induction edits with
  | refl => exact fun t key method mem => by cases mem
  | tail _ edit ih =>
    intro t key method mem
    exact ((edit.entered mem).elim (ih t key method) id).of_grows edit.grows

/-- What holds of all methods that classes declare holds of all that may run. -/
theorem Edits.runsOnly (edits : Edits {} e) {runs : Method → Prop}
    (declared : ∀ method, e.Declares method → runs method) : e.RunsOnly runs where
  declared found := declared _ ⟨_, _, found⟩
  selected found := declared _ ((Edits.lineage edits).declares_of_vtable found)
  entered mem := declared _ (Edits.redirects edits _ _ _ mem)

end Running

end Engine

/-- The guard of an invocation in a method names the number of the owner of what is invoked. -/
def Method.GuardsOwners (names : NameTable) (method : Method) : Prop :=
  ∀ pc id kind ref, method.code[pc]? = some (.invokeCheck id) →
    method.code[pc + 1]? = some (.invoke kind ref) → names.lookup ref.owner = some id

namespace Engine

variable {e e' : Engine} {s : ScopeRef} {names : NameTable}

/-- A route is what live versions make of an invocation: of a member of the type with a number,
invoked in some way. -/
def Answers (e : Engine) (names : NameTable) (s : ScopeRef) (key : RouteKey)
    (route : CachedRoute) : Prop :=
  ∃ name owner, names.lookup name = some key.1 ∧ e.class? s name = some owner ∧
    e.resolveMethod s owner key.2.2 = .ok (some route.live) ∧
    route.nativeOk = Machine.linksTo e owner key.2.1 key.2.2 route.live

/-- The routes that scopes remember of their epochs are right. -/
def Recalls (e : Engine) (names : NameTable) : Prop :=
  ∀ s key route, (e.scopeAt s).routes.get? key = some route →
    route.epoch = (e.scopeAt s).epoch → e.Answers names s key route

theorem Answers.during {key : RouteKey} {route : CachedRoute}
    (answers : e.Answers names s key route) (during : e.During e') :
    e'.Answers names s key route := by
  obtain ⟨name, owner, numbered, known, resolved, links⟩ := answers
  refine ⟨name, owner, numbered, ?_, ?_, ?_⟩
  · rw [during.class?, known]
  · rw [during.resolveMethod, resolved]
  · rw [during.linksTo, links]

/-- A route stays right as long as the live versions of the scope stay. -/
theorem Answers.steady {key : RouteKey} {route : CachedRoute}
    (answers : e.Answers names s key route) (steady : e.Steady s e') (housed : e.Housed)
    (grounded : e.Grounded) (lineage : e.Lineage) : e'.Answers names s key route := by
  obtain ⟨name, owner, numbered, known, resolved, links⟩ := answers
  refine ⟨name, owner, numbered, steady.grows.class? (scope_lt_of_class? known) known, ?_, ?_⟩
  · exact steady.resolveMethod housed grounded lineage ⟨name, known⟩ resolved
  · rw [steady.grows.linksTo lineage (grounded.class_lt s name owner known), links]

theorem Recalls.during (recalls : e.Recalls names) (during : e.During e')
    (routes : ∀ s, (e'.scopeAt s).routes = (e.scopeAt s).routes) : e'.Recalls names := by
  intro s key route held current
  rw [routes] at held
  rw [during.epoch] at current
  exact (recalls s key route held current).during during

/-- A scope remembers one route more. -/
def remember (e : Engine) (s : ScopeRef) (key : RouteKey) (route : CachedRoute) : Engine :=
  e.updateScope s fun scope => { scope with routes := scope.routes.put key route }

theorem skeleton_remember (e : Engine) (s : ScopeRef) (key : RouteKey) (route : CachedRoute) :
    (e.remember s key route).skeleton = e.skeleton :=
  e.skeleton_updateScope s _ fun _ => rfl

theorem Recalls.remember (recalls : e.Recalls names) {key : RouteKey} {route : CachedRoute}
    (answers : e.Answers names s key route) : (e.remember s key route).Recalls names := by
  have during : e.During (e.remember s key route) :=
    .of_skeleton_eq (e.skeleton_remember s key route)
  intro s' key' route' held current
  rw [during.epoch] at current
  unfold Engine.remember at held
  rw [scopeAt_updateScope] at held
  split at held
  next here =>
    obtain ⟨rfl, -⟩ := here
    dsimp only at held
    rw [Table.get?_put] at held
    split at held
    next same =>
      cases same
      cases held
      exact answers.during during
    · exact (recalls s key' route' held current).during during
  · exact (recalls s' key' route' held current).during during

/-- Guards of methods that may run name the owners of what they stand in front of, and what they
remember is right. -/
structure Faithful (names : NameTable) (e : Engine) : Prop where
  guards : e.RunsOnly (·.GuardsOwners names)
  recalls : e.Recalls names

theorem Faithful.remember (faithful : Faithful names e) {key : RouteKey} {route : CachedRoute}
    (answers : e.Answers names s key route) : Faithful names (e.remember s key route) where
  guards := faithful.guards.during (.of_skeleton_eq (e.skeleton_remember s key route))
  recalls := faithful.recalls.remember answers

end Engine

namespace Machine

open Engine (Faithful)

variable {m : Machine} {e : Engine} {names : NameTable}

/-- What a guard finds that remembers nothing. -/
def freshRoute? (m : Machine) (e : Engine) (kind : InvokeKind) (method : MethodRef) :
    Except (Stop RunError) (Option CachedRoute) :=
  match e.class? m.scope method.owner with
  | none => .ok none
  | some owner => do
    match ← e.resolveMethod m.scope owner method.key with
    | none => .error (.error (.methodMissing method))
    | some live =>
      let epoch := (e.scopeAt m.scope).epoch
      .ok (some { epoch, live, nativeOk := linksTo e owner kind method.key live })

/-- What a guard remembers. -/
def recalled? (m : Machine) (e : Engine) (key : RouteKey) : Option CachedRoute :=
  ((e.scopeAt m.scope).routes.get? key).filter fun r => r.epoch = (e.scopeAt m.scope).epoch

/-- A guard that remembers a route answers with it. -/
theorem liveTarget?_recalled {id : TypeId} {kind : InvokeKind} {method : MethodRef}
    {route : CachedRoute} (recalled : m.recalled? e (id, kind, method.key) = some route) :
    m.liveTarget? id kind method e = .ok (some route) e := by
  unfold recalled? at recalled
  unfold liveTarget?
  rw [bind_apply, ask_apply]
  dsimp only
  rw [recalled]
  rfl

/-- A guard that remembers nothing searches, and remembers what it finds. -/
theorem liveTarget?_fresh {id : TypeId} {kind : InvokeKind} {method : MethodRef}
    (forgotten : m.recalled? e (id, kind, method.key) = none) :
    m.liveTarget? id kind method e = match m.freshRoute? e kind method with
      | .error stop => .error stop e
      | .ok none => .ok none e
      | .ok (some route) => .ok (some route) (e.remember m.scope (id, kind, method.key) route) := by
  unfold recalled? at forgotten
  unfold liveTarget? freshRoute? Engine.class?
  rw [bind_apply, ask_apply]
  dsimp only
  rw [forgotten]
  cases (e.scopeAt m.scope).classes.get? method.owner with
  | none => rfl
  | some owner =>
    dsimp only
    rw [bind_apply, resolve_apply]
    cases e.resolveMethod m.scope owner method.key with
    | error stop => rfl
    | ok found => cases found <;> rfl

/-- What a guard finds is right. -/
theorem answers_of_freshRoute? {id : TypeId} {kind : InvokeKind} {method : MethodRef}
    {route : CachedRoute} (numbered : names.lookup method.owner = some id)
    (found : m.freshRoute? e kind method = .ok (some route)) :
    e.Answers names m.scope (id, kind, method.key) route := by
  unfold freshRoute? at found
  cases known : e.class? m.scope method.owner with
  | none =>
    rw [known] at found
    cases found
  | some owner =>
    rw [known] at found
    obtain ⟨answer, resolved, found⟩ := bind_eq_ok.1 found
    cases answer with
    | none => cases found
    | some live =>
      cases found
      exact ⟨method.owner, owner, numbered, known, resolved, rfl⟩

/-- What a guard remembers is what it would find, if its number is that of the owner. -/
theorem freshRoute?_of_recalled (recalls : e.Recalls names) (few : names.size ≤ UInt32.size)
    {id : TypeId} {kind : InvokeKind} {method : MethodRef} {route : CachedRoute}
    (numbered : names.lookup method.owner = some id)
    (recalled : m.recalled? e (id, kind, method.key) = some route) :
    m.freshRoute? e kind method = .ok (some route) := by
  obtain ⟨held, current⟩ := Option.filter_eq_some_iff.1 recalled
  have current := of_decide_eq_true current
  obtain ⟨name, owner, numbered', known, resolved, links⟩ := recalls _ _ _ held current
  obtain rfl : method.owner = name := NameTable.eq_of_lookup few numbered numbered'
  unfold freshRoute?
  rw [known]
  refine bind_eq_ok.2 ⟨_, resolved, ?_⟩
  dsimp only at links ⊢
  rw [← current, ← links]

/-- A guard that names the owner of what is invoked remembers a right route, and finds one that
leads to a method that may run. -/
theorem obeys_liveTarget? {id : TypeId} {kind : InvokeKind} {method : MethodRef}
    (numbered : names.lookup method.owner = some id) :
    Exec.Obeys (Faithful names) (m.liveTarget? id kind method) fun found =>
      ∀ route, found = some route → route.live.Hosts (·.GuardsOwners names) := by
  intro e faithful
  have hosts {route : CachedRoute} {key : RouteKey}
      (answers : e.Answers names m.scope key route) :
      route.live.Hosts (·.GuardsOwners names) := by
    obtain ⟨name, owner, -, -, resolved, -⟩ := answers
    exact Engine.hosts_resolved faithful.guards.declared resolved
  cases recalled : m.recalled? e (id, kind, method.key) with
  | some route =>
    obtain ⟨held, current⟩ := Option.filter_eq_some_iff.1 recalled
    refine .of_ok (liveTarget?_recalled recalled) ⟨⟨faithful, rfl⟩, fun found same => ?_⟩
    cases same
    exact hosts (faithful.recalls _ _ _ held (of_decide_eq_true current))
  | none =>
    have apply := liveTarget?_fresh recalled
    cases found : m.freshRoute? e kind method with
    | error stop =>
      rw [found] at apply
      exact .of_error apply ⟨faithful, rfl⟩
    | ok answer =>
      rw [found] at apply
      cases answer with
      | none => exact .of_ok apply ⟨⟨faithful, rfl⟩, fun route same => by cases same⟩
      | some route =>
        have answers := answers_of_freshRoute? numbered found
        refine .of_ok apply ⟨⟨faithful.remember answers, rfl⟩, fun found same => ?_⟩
        cases same
        exact hosts answers

theorem obeys_routeInvoke {id : TypeId} {kind : InvokeKind} {method : MethodRef}
    (numbered : names.lookup method.owner = some id) (caller : ClassRef) :
    Exec.Obeys (Faithful names) (m.routeInvoke caller id kind method) fun route =>
      ∀ live, route = .dynamic live → live.Hosts (·.GuardsOwners names) := by
  unfold routeInvoke
  refine obeys_ask_bind fun e _ => ?_
  split
  · exact obeys_pure fun live same => by cases same
  · refine obeys_bind (obeys_liveTarget? numbered) fun found hosts => ?_
    cases found with
    | none => exact obeys_pure fun live same => by cases same
    | some route =>
      refine obeys_bind obeys_examined fun _ _ => obeys_bind obeys_checked fun _ _ => ?_
      split
      · exact obeys_pure fun live same => by cases same
      · refine obeys_pure fun live same => ?_
        cases same
        exact hosts route rfl

end Machine

/-- The law that guards name the owners of what they stand in front of, and that what they
remember is right. -/
def Law.routes (names : NameTable) : Law where
  holds := Engine.Faithful names
  runs := (·.GuardsOwners names)
  writes written faithful :=
    ⟨faithful.guards.during written.during,
      faithful.recalls.during written.during written.routes⟩
  declared faithful := faithful.guards.declared
  selected faithful := faithful.guards.selected
  entered faithful := faithful.guards.entered
  routed guards here next caller :=
    Machine.obeys_routeInvoke (guards _ _ _ _ here next) caller
  reflects reflected faithful :=
    ⟨faithful.guards.during reflected.during,
      faithful.recalls.during reflected.during reflected.routes⟩

end LiveUpdate
