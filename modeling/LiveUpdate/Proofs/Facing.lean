import LiveUpdate.Proofs.ConcurringRuns
import LiveUpdate.Proofs.Transparency

/-!
# Engines with one face

What guards remember and in which epoch they have remembered it is not part of the face of an
engine.  As long as what they remember is right, their decisions are.  So in engines that come
about by operations, and in which the engine's instructions are where the engine puts them, all
uses of scopes come out in the same way if the engines have one face.
-/

set_option autoImplicit false

namespace LiveUpdate

open Exec

namespace Exec

variable {ε α : Type} {holds extra : Engine → Prop} {post : α → Prop}

/-- What the skeleton tells goes on to hold beside what a computation obeys. -/
theorem Obeys.and_keeps {x : Exec ε α} (obeys : Obeys holds x post) (keeps : Keeps Engine.skeleton x)
    (told : ∀ e e', e'.skeleton = e.skeleton → extra e → extra e') :
    Obeys (fun e => holds e ∧ extra e) x post := by
  intro e he
  have same := Engine.ends_of_keeps (e := e) keeps
  have ends := obeys e he.1
  cases run : x e with
  | ok a e' =>
    have ends := ends.ok run
    exact .of_ok run ⟨⟨⟨ends.1.1, told _ _ (same.ok run) he.2⟩, ends.1.2⟩, ends.2⟩
  | error stop e' =>
    have ends := ends.error run
    exact .of_error run ⟨⟨ends.1, told _ _ (same.error run) he.2⟩, ends.2⟩

/-- A computation ends with its answer in its final engine. -/
theorem apply_eq_answer (x : Exec ε α) (e : Engine) : x e = match x.answer e with
    | .ok a => .ok a (x.final e)
    | .error stop => .error stop (x.final e) := by
  unfold answer final
  cases x e <;> rfl

end Exec

namespace Engine

variable {e e' : Engine} {names : NameTable}

/-- Whether tables are in order the skeleton tells. -/
theorem Tabled.during (tabled : e.Tabled) (during : e.During e') : e'.Tabled := by
  intro s id t known
  rw [during.typeWithId?] at known
  have bones : (e'.typeAt t).skeleton.Tabled := by
    rw [during.typeAt]
    exact ⟨(tabled s id t known).unpublished, (tabled s id t known).executed⟩
  exact ⟨bones.unpublished, bones.executed⟩

/-- What guards remember is right, and tables are in order. -/
def Upright (names : NameTable) (e : Engine) : Prop := Faithful names e ∧ e.Tabled

end Engine

namespace Machine

open Engine

variable {m : Machine} {e e' : Engine} {names : NameTable} {id : TypeId} {kind : InvokeKind}
  {method : MethodRef}

theorem obeys_upright {α : Type} {x : Run α} {post : α → Prop}
    (obeys : Exec.Obeys (Faithful names) x post) (keeps : Keeps Engine.skeleton x) :
    Exec.Obeys (Upright names) x post :=
  obeys.and_keeps keeps fun _ _ same tabled => tabled.during (.of_skeleton_eq same)

theorem upright_routeInvoke (numbered : names.lookup method.owner = some id) (caller : ClassRef) :
    Exec.Obeys (Upright names) (m.routeInvoke caller id kind method) fun route =>
      ∀ live, route = .dynamic live → live.Hosts (·.GuardsOwners names) :=
  obeys_upright (obeys_routeInvoke numbered caller)
    (keeps_routeInvoke (fun e _ _ _ => e.skeleton_updateScope _ _ fun _ => rfl) _ _ _ _)

end Machine

/-- The law that guards name the owners of what they stand in front of, that what they remember is
right, and that tables are in order. -/
def Law.upright (names : NameTable) : Law where
  holds := Engine.Upright names
  runs := (·.GuardsOwners names)
  writes written he := ⟨(Law.routes names).writes written he.1, he.2.during written.during⟩
  declared he := he.1.guards.declared
  selected he := he.1.guards.selected
  entered he := he.1.guards.entered
  routed guards here next caller :=
    Machine.upright_routeInvoke (guards _ _ _ _ here next) caller
  reflects reflected he := ⟨(Law.routes names).reflects reflected he.1, he.2.during reflected.during⟩

namespace Machine

open Engine

variable {m : Machine} {e e' : Engine} {names : NameTable} {id : TypeId} {kind : InvokeKind}
  {method : MethodRef}

/-- What a guard would find in engines that resemble each other differs in the epoch only. -/
theorem freshRoute?_of_resembles (same : e.Resembles e') (kind : InvokeKind) (method : MethodRef) :
    m.freshRoute? e' kind method = (m.freshRoute? e kind method).map
      (Option.map fun route => { route with epoch := (e'.scopeAt m.scope).epoch }) := by
  unfold freshRoute?
  rw [same.class?]
  cases e.class? m.scope method.owner with
  | none => rfl
  | some owner =>
    have links (live : LiveMethod) :
        linksTo e' owner kind method.key live = linksTo e owner kind method.key live :=
      same.of_body (linksTo · owner kind method.key live) fun _ => rfl
    dsimp only
    rw [same.resolveMethod]
    cases e.resolveMethod m.scope owner method.key with
    | error stop => rfl
    | ok found =>
      cases found with
      | none => rfl
      | some live =>
        show Except.ok (some _) = Except.ok (some _)
        rw [links]

/-- Looking a route up does not show. -/
theorem resembles_liveTarget? (id : TypeId) (kind : InvokeKind) (method : MethodRef) (e : Engine) :
    e.Resembles ((m.liveTarget? id kind method).final e) := by
  refine keeps_liveTarget? (π := Engine.face) (fun e s key route => ?_) id kind method e
  have scopes : (e.scopes.modify s fun scope =>
      { scope with routes := scope.routes.put key route }).map Scope.face =
        e.scopes.map Scope.face :=
    map_modify_of_eq _ _ _ _ fun _ => rfl
  exact congrArg (fun scopes => { e.face with scopes }) scopes

/-- What goes on with a route in the same way in every epoch concurs. -/
theorem concurs_liveTarget?_bind (few : names.size ≤ UInt32.size)
    (numbered : names.lookup method.owner = some id) {β : Type} {f : Option CachedRoute → Run β}
    {post : β → Prop}
    (timeless : ∀ route epoch, f (some { route with epoch }) = f (some route))
    (goesOn : ∀ found : Option CachedRoute,
      (∀ route, found = some route → route.live.Hosts (·.GuardsOwners names)) →
        Exec.Concurs (.upright names) (f found) post) :
    Exec.Concurs (.upright names) (m.liveTarget? id kind method >>= f) post := by
  intro e e' matched
  have obeys := obeys_upright (obeys_liveTarget? (m := m) numbered)
    (keepsSkeleton_liveTarget? id kind method)
  have fresh {e : Engine} (upright : Upright names e) :
      (m.liveTarget? id kind method).answer e = m.freshRoute? e kind method :=
    answer_liveTarget? fun route recalled =>
      freshRoute?_of_recalled upright.1.recalls few numbered recalled
  have after : (Law.upright names).Matches ((m.liveTarget? id kind method).final e)
      ((m.liveTarget? id kind method).final e') :=
    ⟨(obeys.final matched.left).1, (obeys.final matched.right).1,
      (resembles_liveTarget? id kind method e').trans
        (matched.same.trans (resembles_liveTarget? id kind method e).symm)⟩
  have runs (e : Engine) := apply_eq_answer (m.liveTarget? id kind method) e
  have ends := obeys e matched.left
  unfold Engine.Ends at ends
  rw [runs, fresh matched.left] at ends
  rw [bind_apply, bind_apply, runs e, runs e', fresh matched.left, fresh matched.right,
    freshRoute?_of_resembles matched.same]
  cases found : m.freshRoute? e kind method with
  | error stop => exact .error after
  | ok answer =>
    rw [found] at ends
    have hosts := goesOn answer ends.2 _ _ after
    cases answer with
    | none => exact hosts
    | some route =>
      show Matched _ _ (f (some route) _) (f (some { route with epoch := _ }) _)
      rw [timeless route (e'.scopeAt m.scope).epoch]
      exact hosts

/-- A guard that names the owner of what is invoked decides by the face. -/
theorem concurs_routeInvoke (few : names.size ≤ UInt32.size)
    (numbered : names.lookup method.owner = some id) (caller : ClassRef) :
    Exec.Concurs (.upright names) (m.routeInvoke caller id kind method) fun route =>
      ∀ live, route = .dynamic live → live.Hosts (·.GuardsOwners names) := by
  unfold routeInvoke
  refine concurs_ask_bind (fun same => by simp only [same.epoch_eq_zero_iff]) fun e _ => ?_
  split
  · exact concurs_pure fun live same => by cases same
  · refine concurs_liveTarget?_bind few numbered (fun _ _ => rfl) fun found hosts => ?_
    cases found with
    | none => exact concurs_pure fun live same => by cases same
    | some route =>
      refine concurs_bind concurs_examined fun _ _ =>
        concurs_bind (concurs_check fun same => same.checkAccess _ _ _ _ _) fun _ _ => ?_
      split
      · exact concurs_pure fun live same => by cases same
      · refine concurs_pure fun live same => ?_
        cases same
        exact hosts route rfl

end Machine

/-- As long as numbers of names have not run out code sees no more than the face. -/
theorem Law.blind_upright {names : NameTable} (few : names.size ≤ UInt32.size) :
    (Law.upright names).Blind where
  tabled he := he.2
  routed guards here next caller :=
    Machine.concurs_routeInvoke few (guards _ _ _ _ here next) caller

namespace Engine

variable {e : Engine} {s : ScopeRef} {t : TypeRef}

/-- The tables of managed types are in order. -/
theorem Chronicled.tabled (chronicled : e.Chronicled t) : (e.typeAt t).Tabled := by
  rcases chronicled.live_cases with ⟨unpublished, live⟩ | ⟨published, recorded⟩
  · obtain ⟨slots, -, first⟩ := chronicled.first
    have host (slot : Nat) (entry : DispatchEntry)
        (found : (e.typeAt t).live.dispatch.entry? slot = some entry) : entry = .host := by
      rw [live, first] at found
      obtain ⟨pair, there, rfl⟩ := Option.map_eq_some_iff.1 found
      obtain ⟨s, -, rfl⟩ := List.mem_map.1 (List.mem_of_getElem? there)
      rfl
    refine ⟨fun _ => host, fun slot method found => ?_⟩
    cases host slot _ found
  · refine ⟨fun none_ => (Option.some_ne_none _ (published.symm.trans none_)).elim,
      fun slot method found => ?_⟩
    obtain ⟨slots, -, -, dispatch⟩ := recorded.dispatch
    rw [dispatch] at found
    obtain ⟨pair, there, same⟩ := Option.map_eq_some_iff.1 found
    obtain ⟨s, -, rfl⟩ := List.mem_map.1 (List.mem_of_getElem? there)
    obtain ⟨shape, -, -, executed⟩ := DispatchTable.entryFor_eq_executor same
    obtain ⟨cls, generated, -⟩ := Option.bind_eq_some_iff.1 executed
    obtain ⟨a, generated, -⟩ := Option.map_eq_some_iff.1 generated
    unfold LiveVersion.executor?
    rw [generated]
    rfl

theorem Reachable.tabled (reachable : e.Reachable) : e.Tabled := fun s id t known =>
  (reachable.chronicled (reachable.housed.types s id t known).1).tabled

/-- Where the instructions of the engine are where it puts them, what guards remember is right. -/
theorem Reachable.upright {names : NameTable} (reachable : e.Reachable)
    (guards : ∀ method, e.Declares method → method.GuardsOwners names) : Upright names e :=
  ⟨⟨Edits.runsOnly reachable.edits.1 guards, Edits.recalls reachable.edits.1 guards⟩,
    reachable.tabled⟩

end Engine

end LiveUpdate
