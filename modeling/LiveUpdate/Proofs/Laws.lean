import LiveUpdate.Proofs.Outcomes
import LiveUpdate.Proofs.Skeleton
import LiveUpdate.Reflect.Query

/-!
# Laws of running code

A law says what holds of the engine while code runs, and of the methods that run.  It does not
depend on what code writes, it holds of every method that a class, a dispatch table or a
remembered route leads to, and a guard in such a method upholds it.  So does reflection, which
remembers what types look like.  A computation obeys a law when it ends where the law holds,
however it comes out.
-/

set_option autoImplicit false

namespace LiveUpdate

open Exec

namespace Engine

/-- One engine is in a state of running code of another. -/
def During (e e' : Engine) : Prop := ∃ depth, e'.skeleton = ({ e with depth } : Engine).skeleton

theorem During.refl (e : Engine) : e.During e := ⟨e.depth, rfl⟩

/-- Running code has written, and remembered nothing about invocations and about types. -/
structure Writes (e e' : Engine) : Prop where
  during : e.During e'
  routes : ∀ s, (e'.scopeAt s).routes = (e.scopeAt s).routes
  metadata : ∀ s, (e'.scopeAt s).metadata = (e.scopeAt s).metadata

section Writes

variable (e : Engine)

theorem Writes.of_scopes_eq {e e' : Engine} (same : e'.skeleton = e.skeleton)
    (scopes : e'.scopes = e.scopes) : e.Writes e' where
  during := ⟨e.depth, same⟩
  routes s := by
    unfold scopeAt
    rw [scopes]
  metadata s := by
    unfold scopeAt
    rw [scopes]

theorem writes_setDepth (depth : Nat) : e.Writes { e with depth } :=
  ⟨⟨depth, rfl⟩, fun _ => rfl, fun _ => rfl⟩

theorem writes_updateClass (c : ClassRef) {f : Class → Class}
    (skeleton : ∀ cls, (f cls).skeleton = cls.skeleton) : e.Writes (e.updateClass c f) :=
  .of_scopes_eq (e.skeleton_updateClass c f skeleton) rfl

theorem writes_updateType (t : TypeRef) {f : ManagedType → ManagedType}
    (skeleton : ∀ type, (f type).skeleton = type.skeleton) : e.Writes (e.updateType t f) :=
  .of_scopes_eq (e.skeleton_updateType t f skeleton) rfl

theorem writes_updateObject (o : ObjectRef) (f : Object → Object) :
    e.Writes (e.updateObject o f) := .of_scopes_eq rfl rfl

theorem writes_updateArray (a : ArrayRef) (f : ArrayCell → ArrayCell) :
    e.Writes (e.updateArray a f) := .of_scopes_eq rfl rfl

theorem writes_newObject (c : ClassRef) : e.Writes (e.newObject c).2 := .of_scopes_eq rfl rfl

theorem writes_newArray (cell : ArrayCell) : e.Writes (e.newArray cell).2 := .of_scopes_eq rfl rfl

theorem writes_beginInit (c : ClassRef) : e.Writes (e.beginInit c).2 := by
  unfold beginInit
  split
  · exact e.writes_updateClass c fun _ => rfl
  · exact .of_scopes_eq rfl rfl

theorem writes_finishInit (c : ClassRef) : e.Writes (e.finishInit c) :=
  e.writes_updateClass c fun _ => rfl

end Writes

section Reflects

/-- A view of scopes that an update leaves alone is the same in every scope. -/
theorem view_updateScope {α : Type} (e : Engine) (s : ScopeRef) {f : Scope → Scope}
    (view : Scope → α) (same : ∀ scope, view (f scope) = view scope) (s' : ScopeRef) :
    view ((e.updateScope s f).scopeAt s') = view (e.scopeAt s') := by
  have at_ := getD_map (e.updateScope s f).scopes view s' default
  have before := getD_map e.scopes view s' default
  rw [updateScope, map_modify_of_eq _ _ _ _ same] at at_
  exact at_.symm.trans before

/-- A scope remembers the metadata of one more version. -/
def withMetadata (e : Engine) (s : ScopeRef) (m : TypeMetadata) : Engine :=
  e.updateScope s fun scope => { scope with metadata := scope.metadata.put m.name m }

/-- A scope has forgotten the metadata of a type. -/
def withoutMetadata (e : Engine) (s : ScopeRef) (typeName : String) : Engine :=
  e.updateScope s fun scope => { scope with metadata := scope.metadata.erase typeName }

/-- Reflection has remembered what a type looks like, or has forgotten it. -/
inductive Reflects (e : Engine) : Engine → Prop
  | remembers {s : ScopeRef} {typeName : String} {c : ClassRef} {shape : TypeShape}
      (known : e.class? s typeName = some c) (shaped : Reflect.shapeOf e s c = .ok shape) :
      Reflects e (e.withMetadata s (.ofShape shape (Reflect.versionOf e s c)))
  | forgets (s : ScopeRef) (typeName : String) : Reflects e (e.withoutMetadata s typeName)

variable {e e' : Engine} (reflects : e.Reflects e')
include reflects

theorem Reflects.skeleton_eq : e'.skeleton = e.skeleton := by
  cases reflects with
  | remembers | forgets => exact e.skeleton_updateScope _ _ fun _ => rfl

theorem Reflects.during : e.During e' := ⟨e.depth, reflects.skeleton_eq⟩

theorem Reflects.routes (s : ScopeRef) : (e'.scopeAt s).routes = (e.scopeAt s).routes := by
  cases reflects with
  | remembers | forgets =>
    refine e.view_updateScope _ Scope.routes (fun _ => ?_) s
    rfl

end Reflects

end Engine

namespace Exec

variable {ε δ α β : Type} {holds : Engine → Prop} {post mid : α → Prop} {post' : β → Prop}

/-- Where a condition holds, a computation ends where it holds, at the depth of the start, and a
result satisfies `post`. -/
def Obeys (holds : Engine → Prop) (x : Exec ε α) (post : α → Prop) : Prop :=
  ∀ e, holds e → e.Ends x (fun a e' => (holds e' ∧ e'.depth = e.depth) ∧ post a)
    fun _ e' => holds e' ∧ e'.depth = e.depth

/-- What holds goes on to hold, however a computation comes out. -/
theorem Obeys.final {x : Exec ε α} (hx : Obeys holds x post) {e : Engine} (h : holds e) :
    holds (x.final e) ∧ (x.final e).depth = e.depth :=
  Engine.Ends.final (Engine.Ends.weaken (hx e h) (fun _ _ h => h.1) fun _ _ h => h)

theorem Obeys.weaken {x : Exec ε α} (hx : Obeys holds x mid) (h : ∀ a, mid a → post a) :
    Obeys holds x post := fun e he =>
  Engine.Ends.weaken (hx e he) (fun a _ done => ⟨done.1, h a done.2⟩) fun _ _ stopped => stopped

/-- Only that what holds goes on to hold. -/
theorem Obeys.trivial {x : Exec ε α} (hx : Obeys holds x mid) : Obeys holds x fun _ => True :=
  hx.weaken fun _ _ => True.intro

theorem obeys_pure {a : α} (h : post a) : Obeys holds (pure a : Exec ε α) post :=
  fun _ he => ⟨⟨he, rfl⟩, h⟩

theorem obeys_fail (error : ε) : Obeys holds (fail error : Exec ε α) post :=
  fun _ he => ⟨he, rfl⟩

theorem obeys_throw (stop : Stop ε) : Obeys holds (throw stop : Exec ε α) post :=
  fun _ he => ⟨he, rfl⟩

theorem obeys_bind {x : Exec ε α} {f : α → Exec ε β} (hx : Obeys holds x mid)
    (hf : ∀ a, mid a → Obeys holds (f a) post') : Obeys holds (x >>= f) post' := by
  intro e he
  refine Engine.ends_bind (hx e he) fun a e' done => ?_
  obtain ⟨⟨he', depth⟩, ha⟩ := done
  exact Engine.Ends.weaken (hf a ha e' he')
    (fun _ _ done => ⟨⟨done.1.1, done.1.2.trans depth⟩, done.2⟩)
    fun _ _ stopped => ⟨stopped.1, stopped.2.trans depth⟩

theorem obeys_ask {g : Engine → α} (h : ∀ e, holds e → post (g e)) :
    Obeys holds (ask g : Exec ε α) post := fun e he => ⟨⟨he, rfl⟩, h e he⟩

theorem obeys_get : Obeys holds (get : Exec ε Engine) fun _ => True :=
  fun _ he => ⟨⟨he, rfl⟩, True.intro⟩

/-- What is asked is asked of an engine of which the condition holds. -/
theorem obeys_ask_bind {g : Engine → α} {f : α → Exec ε β}
    (h : ∀ e, holds e → Obeys holds (f (g e)) post') : Obeys holds (ask g >>= f) post' :=
  fun e he => Engine.ends_ask_bind (h e he e he)

theorem obeys_ofResult {x : Except ε α} (h : ∀ a, x = .ok a → post a) :
    Obeys holds (ofResult x) post := by
  cases x with
  | ok a => exact obeys_pure (h a rfl)
  | error error => exact obeys_fail error

theorem obeys_check {g : Engine → Except ε α} (h : ∀ e, holds e → ∀ a, g e = .ok a → post a) :
    Obeys holds (check g) post := fun e he => obeys_ofResult (h e he) e he

/-- A check of which only the failure matters. -/
theorem obeys_checked {g : Engine → Except ε α} : Obeys holds (check g) fun _ => True :=
  obeys_check fun _ _ _ _ => True.intro

theorem obeys_examined {x : Except ε α} : Obeys holds (ofResult x) fun _ => True :=
  obeys_ofResult fun _ _ => True.intro

theorem obeys_resolve {g : Engine → Except (Stop ε) α}
    (h : ∀ e, holds e → ∀ a, g e = .ok a → post a) : Obeys holds (resolve g) post := by
  intro e he
  unfold Engine.Ends
  rw [resolve_apply]
  cases answer : g e with
  | ok a => exact ⟨⟨he, rfl⟩, h e he a answer⟩
  | error stop => exact ⟨he, rfl⟩

theorem obeys_require {g : Engine → Option α} {error : ε}
    (h : ∀ e, holds e → ∀ a, g e = some a → post a) : Obeys holds (require g error) post := by
  intro e he
  unfold Engine.Ends
  rw [require_apply]
  cases answer : g e with
  | some a => exact ⟨⟨he, rfl⟩, h e he a answer⟩
  | none => exact ⟨he, rfl⟩

theorem obeys_modifyGet {g : Engine → α × Engine}
    (h : ∀ e, holds e → (holds (g e).2 ∧ (g e).2.depth = e.depth) ∧ post (g e).1) :
    Obeys holds (modifyGet g : Exec ε α) post := h

theorem obeys_modify {g : Engine → Engine}
    (h : ∀ e, holds e → holds (g e) ∧ (g e).depth = e.depth) :
    Obeys holds (modify g : Exec ε Unit) fun _ => True := fun e he => ⟨h e he, True.intro⟩

theorem obeys_map {g : α → β} {x : Exec ε α} (hx : Obeys holds x fun a => post' (g a)) :
    Obeys holds (g <$> x) post' := by
  intro e he
  have ends := hx e he
  unfold Engine.Ends at ends ⊢
  rw [map_apply]
  cases run : x e <;> rw [run] at ends <;> exact ends

theorem obeys_discard {x : Exec ε α} (hx : Obeys holds x post) :
    Obeys holds (discard x) fun _ => True := obeys_map hx.trivial

theorem obeys_finally_modify {x : Exec ε α} {g : Engine → Engine} (hx : Obeys holds x post)
    (h : ∀ e, holds e → holds (g e) ∧ (g e).depth = e.depth) :
    Obeys holds (tryFinally x (modify g)) post := by
  intro e he
  have ends := hx e he
  unfold Engine.Ends at ends ⊢
  rw [finally_modify_apply]
  cases run : x e with
  | ok a e' =>
    rw [run] at ends
    obtain ⟨⟨he', depth⟩, ha⟩ := ends
    exact ⟨⟨(h e' he').1, (h e' he').2.trans depth⟩, ha⟩
  | error stop e' =>
    rw [run] at ends
    exact ⟨(h e' ends.1).1, (h e' ends.1).2.trans ends.2⟩

end Exec

/-- The answer that a search along a chain gives is that of one of the classes. -/
theorem LiveChain.findSome?_eq_ok {α : Type} {chain : LiveChain} {f : ClassRef → Option α} {a : α}
    (found : chain.findSome? f = .ok (some a)) : chain.classes.findSome? f = some a := by
  unfold LiveChain.findSome? at found
  split at found
  next here =>
    cases found
    exact here
  · split at found <;> cases found

namespace Engine

variable {e : Engine} {s : ScopeRef}

/-- What a search along a chain finds one of its classes has. -/
theorem exists_of_findSome? {α : Type} {chain : LiveChain} {f : ClassRef → Option α} {a : α}
    (found : chain.findSome? f = .ok (some a)) : ∃ c ∈ chain.classes, f c = some a :=
  List.exists_of_findSome?_eq_some (LiveChain.findSome?_eq_ok found)

/-- A resolved method is declared by a class, or comes from an interface. -/
theorem resolveMethod_cases {c : ClassRef} {key : MemberKey} {live : LiveMethod}
    (resolved : e.resolveMethod s c key = .ok (some live)) :
    (∃ d, e.ownLiveMethod? s key d = some live) ∨ e.interfaceMethod? c key = some live := by
  unfold resolveMethod at resolved
  split at resolved
  · exact .inl ⟨c, Except.ok.inj resolved⟩
  · obtain ⟨found, search, resolved⟩ := Exec.bind_eq_ok.1 resolved
    cases found with
    | some own =>
      cases resolved
      obtain ⟨d, -, own⟩ := exists_of_findSome? search
      exact .inl ⟨d, own⟩
    | none => exact .inr (Except.ok.inj resolved)

end Engine

/-- The method of a host class that a live method comes with satisfies a condition. -/
def LiveMethod.Hosts (runs : Method → Prop) (live : LiveMethod) : Prop :=
  ∀ c method, live.host = some (c, method) → runs method

/-- What holds of the engine while code runs, and of every method that runs. -/
structure Law where
  holds : Engine → Prop
  runs : Method → Prop
  writes : ∀ {e e' : Engine}, e.Writes e' → holds e → holds e'
  declared : ∀ {e : Engine} {c : ClassRef} {key : MemberKey} {method : Method}, holds e →
    (e.classAt c).method? key = some method → runs method
  selected : ∀ {e : Engine} {c : ClassRef} {key : MemberKey} {method : Method}, holds e →
    (e.classAt c).vtable.get? key = some method → runs method
  entered : ∀ {e : Engine} {t : TypeRef} {key : MemberKey} {method : Method}, holds e →
    (key, .executor method) ∈ (e.typeAt t).live.dispatch.entries → runs method
  routed : ∀ {m : Machine} {method : Method} {pc : Nat} {id : TypeId} {kind : InvokeKind}
    {ref : MethodRef}, runs method → method.code[pc]? = some (.invokeCheck id) →
    method.code[pc + 1]? = some (.invoke kind ref) → ∀ caller,
      Exec.Obeys holds (m.routeInvoke caller id kind ref) fun route =>
        ∀ live, route = .dynamic live → live.Hosts runs
  reflects : ∀ {e e' : Engine}, e.Reflects e' → holds e → holds e'

/-- The calls of a machine obey a law. -/
def Machine.Obeys (m : Machine) (law : Law) : Prop :=
  ∀ c method args, law.runs method → Exec.Obeys law.holds (m.call c method args) fun _ => True

namespace Engine

section Declared

/-! What a search comes to was declared by a class. -/

variable {e : Engine} {s : ScopeRef} {runs : Method → Prop}
  (declared : ∀ {c key method}, (e.classAt c).method? key = some method → runs method)
include declared

theorem runs_hostMethod {c : ClassRef} {key : MemberKey} {found : ClassRef × Method}
    (answer : e.hostMethod? c key = some found) : runs found.2 := by
  obtain ⟨d, -, here⟩ := List.exists_of_findSome?_eq_some answer
  obtain ⟨method, own, rfl⟩ := Option.map_eq_some_iff.1 here
  exact declared own

theorem hosts_ownLive {key : MemberKey} {c : ClassRef} {live : LiveMethod}
    (own : e.ownLiveMethod? s key c = some live) : live.Hosts runs := by
  have hosts {d : ClassRef} {method : Method}
      (host : ((e.classAt c).method? key).map (fun m => (c, m)) = some (d, method)) :
      runs method := by
    obtain ⟨m, found, same⟩ := Option.map_eq_some_iff.1 host
    cases same
    exact declared found
  unfold ownLiveMethod? at own
  intro d method host
  dsimp only at own
  split at own
  · obtain ⟨m, -, rfl⟩ := Option.map_eq_some_iff.1 own
    exact hosts host
  · obtain ⟨m, -, rfl⟩ := Option.map_eq_some_iff.1 own
    exact hosts host

theorem hosts_interface {key : MemberKey} {c : ClassRef} {live : LiveMethod}
    (inherited : e.interfaceMethod? c key = some live) : live.Hosts runs := by
  unfold interfaceMethod? at inherited
  intro d method host
  split at inherited
  next found =>
    split at inherited
    · cases inherited
      cases host
      exact runs_hostMethod declared found
    · cases inherited
  next => cases inherited

theorem hosts_resolved {key : MemberKey} {c : ClassRef} {live : LiveMethod}
    (resolved : e.resolveMethod s c key = .ok (some live)) : live.Hosts runs := by
  rcases resolveMethod_cases resolved with ⟨d, own⟩ | inherited
  · exact hosts_ownLive declared own
  · exact hosts_interface declared inherited

end Declared

end Engine

namespace Law

variable {law : Law} {ε α : Type}

theorem obeys_writes {g : Engine → Engine} (h : ∀ e : Engine, e.Writes (g e))
    (depth : ∀ e, (g e).depth = e.depth) :
    Exec.Obeys law.holds (modify g : Exec ε Unit) fun _ => True :=
  obeys_modify fun e he => ⟨law.writes (h e) he, depth e⟩

theorem obeys_writesGet {g : Engine → α × Engine} (h : ∀ e : Engine, e.Writes (g e).2)
    (depth : ∀ e, (g e).2.depth = e.depth) :
    Exec.Obeys law.holds (modifyGet g : Exec ε α) fun _ => True :=
  obeys_modifyGet fun e he => ⟨⟨law.writes (h e) he, depth e⟩, True.intro⟩

section Lookups

variable {e : Engine} {s : ScopeRef} (h : law.holds e)
include h

theorem runs_hostMethod {c : ClassRef} {key : MemberKey} {found : ClassRef × Method}
    (answer : e.hostMethod? c key = some found) : law.runs found.2 :=
  Engine.runs_hostMethod (law.declared h) answer

theorem hosts_resolved {key : MemberKey} {c : ClassRef} {live : LiveMethod}
    (resolved : e.resolveMethod s c key = .ok (some live)) : live.Hosts law.runs :=
  Engine.hosts_resolved (law.declared h) resolved

theorem runs_selectVirtual {key : MemberKey} {c d : ClassRef} {method : Method}
    (selects : e.selectVirtual s c key = .ok (some (.host d method))) : law.runs method := by
  obtain ⟨c', -, held⟩ := Engine.exists_of_findSome? selects
  unfold Engine.selectIn? at held
  dsimp only at held
  split at held
  · obtain ⟨m, -, same⟩ := Option.map_eq_some_iff.1 held
    split at same <;> cases same
  · obtain ⟨m, kept, same⟩ := Option.map_eq_some_iff.1 held
    split at same
    · cases same
    · cases same
      exact law.declared h (Option.filter_eq_some_iff.1 kept).1

theorem runs_lookup {t : TypeRef} {key : MemberKey} {method : Method}
    (entry : (e.typeAt t).live.dispatch.lookup key = some (.executor method)) :
    law.runs method := by
  obtain ⟨⟨key', _⟩, found, rfl⟩ := Option.map_eq_some_iff.1 entry
  exact law.entered h (List.mem_of_find?_eq_some found)

theorem runs_entry {t : TypeRef} {version : LiveVersion} {slot : Nat} {method : Method}
    (published : (e.typeAt t).published = some version)
    (entry : version.dispatch.entry? slot = some (.executor method)) : law.runs method := by
  obtain ⟨⟨key, _⟩, found, rfl⟩ := Option.map_eq_some_iff.1 entry
  have live : (e.typeAt t).live = version := ManagedType.live_of_published published
  exact law.entered h (live ▸ List.mem_of_getElem? found)

end Lookups

end Law

end LiveUpdate
