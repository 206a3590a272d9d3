import LiveUpdate.Proofs.Recounting

/-!
# Recordings of histories

Uses of a scope have accounts as calls have, and so has an operation: whatever else it does,
nothing runs in it before its account begins, and after its end only observers are called.  The
accounts of operations one after another are a recording of how an engine came about, and every
reachable engine has one.
-/

set_option autoImplicit false

namespace LiveUpdate

open Exec ManagedType

/-- A computation is what a routine does with the calls of a scope, and that has an account in every
engine. -/
def Exec.Recounted (s : ScopeRef) (fuel : Nat) {α : Type} (y : Run α) : Prop :=
  ∃ x : Routine α, x (invoke s fuel) = y ∧ Recounts s (invoke s fuel) (Account s fuel) x

section Recounted

variable {s : ScopeRef} {fuel : Nat} {α β : Type} {y : Run α}

theorem recounted_keeps (keeps : Keeps Engine.outline y) : Recounted s fuel y :=
  ⟨fun _ => y, rfl, recounts_keeps keeps⟩

theorem recounted_bind {f : α → Run β} (hy : Recounted s fuel y)
    (hf : ∀ a, Recounted s fuel (f a)) : Recounted s fuel (y >>= f) := by
  obtain ⟨x, same, first⟩ := hy
  choose next same' next' using hf
  refine ⟨fun call => x call >>= fun a => next a call, ?_, recounts_bind first next'⟩
  dsimp only
  rw [same]
  exact congrArg (y >>= ·) (funext same')

/-- What a routine does whose parts all have accounts. -/
theorem recounted_routine {x : Routine α} (total : Recounts s (invoke s fuel) (Account s fuel) x) :
    Recounted s fuel (x (invoke s fuel)) :=
  ⟨x, rfl, total⟩

theorem recounted_pure (a : α) : Recounted s fuel (pure a : Run α) := recounted_keeps (keeps_pure a)

theorem recounted_fail (error : RunError) : Recounted s fuel (fail error : Run α) :=
  recounted_keeps (keeps_fail error)

theorem recounted_ask (g : Engine → α) : Recounted s fuel (ask g : Run α) :=
  recounted_keeps (keeps_ask g)

theorem recounted_check (g : Engine → Except RunError α) : Recounted s fuel (check g : Run α) :=
  recounted_keeps (keeps_check g)

theorem recounted_resolve (g : Engine → Except (Stop RunError) α) :
    Recounted s fuel (resolve g : Run α) :=
  recounted_keeps (keeps_resolve g)

theorem recounted_discard (hy : Recounted s fuel y) : Recounted s fuel (discard y) := by
  obtain ⟨x, rfl, total⟩ := hy
  exact ⟨fun call => discard (x call), rfl, recounts_map _ total⟩

end Recounted

namespace Reflect

variable (s : ScopeRef) (fuel : Nat) (typeName name : String)

theorem keeps_metadata : Keeps Engine.outline (metadata s typeName) := by
  refine keeps_bind (keeps_check _) fun c => keeps_bind (keeps_ask _) fun version =>
    keeps_bind (keeps_ask _) fun known => ?_
  cases known with
  | some m => exact keeps_pure _
  | none =>
    exact keeps_bind (keeps_check _) fun shape =>
      keeps_bind (keeps_modify fun e => e.outline_updateScope s fun _ => rfl) fun _ => keeps_pure _

theorem keeps_forget : Keeps Engine.outline (forget s typeName : Run Unit) :=
  keeps_modify fun e => e.outline_updateScope s fun _ => rfl

theorem keeps_searchField (n : Nat) (met pending : List String) :
    Keeps Engine.outline (searchField s name n met pending) := by
  induction n generalizing met pending with
  | zero =>
    cases pending with
    | nil => exact keeps_pure _
    | cons current pending => exact keeps_throw _
  | succ n ih =>
    cases pending with
    | nil => exact keeps_pure _
    | cons current pending =>
      refine keeps_bind (keeps_metadata s current) fun t => ?_
      split
      · exact keeps_pure _
      · exact ih _ _

theorem keeps_collectMethods (n : Nat) (found : List MethodInfo) (met pending : List String) :
    Keeps Engine.outline (collectMethods s n found met pending) := by
  induction n generalizing found met pending with
  | zero =>
    cases pending with
    | nil => exact keeps_pure _
    | cons current pending => exact keeps_throw _
  | succ n ih =>
    cases pending with
    | nil => exact keeps_pure _
    | cons current pending => exact keeps_bind (keeps_metadata s current) fun t => ih _ _ _

variable {s fuel}

theorem recounted_checkInstance (receiver : ClassRef) :
    Recounted s fuel (checkInstance receiver typeName) :=
  recounted_routine (Machine.recounts_checkReceiverClass receiver typeName)

theorem recounted_liveField (receiver : Option Value) :
    Recounted s fuel (liveField s typeName name receiver) := by
  refine recounted_bind (recounted_check _) fun c =>
    recounted_bind (recounted_resolve _) fun found => ?_
  cases found with
  | none => exact recounted_fail _
  | some f =>
    dsimp only
    split
    · exact recounted_pure _
    · split
      · exact recounted_bind (recounted_ask _) fun cls =>
          recounted_bind (recounted_checkInstance typeName cls) fun _ => recounted_pure _
      · exact recounted_fail _

theorem recounted_readField (receiver : Option Value) :
    Recounted s fuel (readField fuel s typeName name receiver) :=
  recounted_bind (recounted_liveField typeName name receiver) fun f =>
    recounted_routine (Machine.recounts_readField (exists_account s fuel) f.1 f.2)

theorem recounted_writeField (receiver : Option Value) (value : Value) :
    Recounted s fuel (writeField fuel s typeName name receiver value) :=
  recounted_bind (recounted_liveField typeName name receiver) fun f =>
    recounted_routine (Machine.recounts_writeField (exists_account s fuel) f.1 f.2 value)

theorem recounted_liveMethod (key : MemberKey) : Recounted s fuel (liveMethod s typeName key) := by
  refine recounted_bind (recounted_check _) fun c =>
    recounted_bind (recounted_resolve _) fun found => ?_
  cases found with
  | none => exact recounted_fail _
  | some live => exact recounted_pure _

theorem recounted_callResolved (live : LiveMethod) (key : MemberKey) (args : List Value) :
    Recounted s fuel ((Machine.of s fuel).callResolved live key args) :=
  recounted_routine (Machine.recounts_callResolved (exists_account s fuel) live key args)

theorem recounted_call (key : MemberKey) (args : List Value) :
    Recounted s fuel (call fuel s typeName key args) := by
  refine recounted_bind (recounted_liveMethod typeName key) fun found => ?_
  dsimp only
  split
  · exact recounted_callResolved _ _ _
  · refine recounted_bind (recounted_keeps (keeps_ofResult _)) fun o =>
      recounted_bind (recounted_ask _) fun cls =>
        recounted_bind (recounted_checkInstance typeName cls) fun _ => ?_
    split
    · exact recounted_callResolved _ _ _
    · exact recounted_routine (Machine.recounts_callVirtual (exists_account s fuel) _ _ _)

theorem recounted_newInstance (sig : MethodSig) (args : List Value) :
    Recounted s fuel (newInstance fuel s typeName sig args) :=
  recounted_bind (recounted_liveMethod typeName _) fun _ =>
    recounted_bind (recounted_routine (Machine.recounts_instantiate (exists_account s fuel) typeName))
      fun _ => recounted_bind (recounted_discard (recounted_callResolved _ _ _)) fun _ =>
        recounted_pure _

end Reflect

namespace Scope

open Reflect

variable {s : ScopeRef} {fuel : Nat} (typeName name : String)

theorem recounted_invokeVirtual (receiver : Value) (key : MemberKey) (args : List Value) :
    Recounted s fuel (invokeVirtual fuel s receiver key args) := by
  unfold invokeVirtual
  split
  · refine recounted_bind (recounted_ask _) fun c => recounted_bind (recounted_routine
      (Machine.recounts_dispatchVirtual (exists_account s fuel) c key (receiver :: args)))
      fun answer => ?_
    cases answer with
    | some value => exact recounted_pure _
    | none =>
      refine recounted_bind (recounted_ask _) fun _ =>
        recounted_bind (recounted_resolve _) fun found => ?_
      cases found with
      | none => exact recounted_fail _
      | some live =>
        dsimp only
        split <;> exact recounted_fail _
  · exact recounted_fail _

theorem recounted_invokeStatic (key : MemberKey) (args : List Value) :
    Recounted s fuel (invokeStatic fuel s typeName key args) := by
  refine recounted_bind (recounted_liveMethod typeName key) fun found => ?_
  dsimp only
  split
  · exact recounted_callResolved _ _ _
  · exact recounted_fail _

theorem recounted_requireStatic : Recounted s fuel (requireStatic s typeName name) := by
  refine recounted_bind (recounted_check _) fun c =>
    recounted_bind (recounted_resolve _) fun found => ?_
  cases found with
  | none => exact recounted_fail _
  | some f =>
    dsimp only
    split
    · exact recounted_pure _
    · exact recounted_fail _

theorem recounted_classNameOf (receiver : Value) : Recounted s fuel (classNameOf receiver name) := by
  unfold classNameOf
  split
  · exact recounted_ask _
  · exact recounted_fail _

/-- Every use of a scope has an account. -/
theorem Use.recounted_perform (use : Scope.Use) : Recounted s fuel (use.perform fuel s) := by
  have done {x : Run Unit} (h : Recounted s fuel x) : Recounted s fuel (do x; return Value.null) :=
    recounted_bind h fun _ => recounted_pure _
  cases use with
  | invokeStatic => exact recounted_invokeStatic _ _ _
  | invokeVirtual => exact recounted_invokeVirtual _ _ _
  | newInstance => exact recounted_newInstance _ _ _
  | call => exact Reflect.recounted_call _ _ _
  | getField => exact recounted_bind (recounted_classNameOf _ _) fun _ => recounted_readField _ _ _
  | setField =>
    exact done (recounted_bind (recounted_classNameOf _ _) fun _ => recounted_writeField _ _ _ _)
  | getStatic => exact recounted_bind (recounted_requireStatic _ _) fun _ => recounted_readField _ _ _
  | setStatic =>
    exact done (recounted_bind (recounted_requireStatic _ _) fun _ => recounted_writeField _ _ _ _)
  | readField => exact recounted_readField _ _ _
  | writeField => exact done (recounted_writeField _ _ _ _)

end Scope

/-- Running the static initializer of a version again calls one method, or nothing. -/
theorem ManagedType.final_rerunStaticInit (fuel : Nat) (t : TypeRef) (native : ClassRef)
    (e : Engine) : (rerunStaticInit fuel t native).final e = e ∨ ∃ c init,
      (rerunStaticInit fuel t native).final e =
        (invoke (e.typeAt t).scope fuel c init []).final e := by
  unfold rerunStaticInit
  rw [final_bind_of_ok (ask_apply _ e)]
  dsimp only
  split
  · exact .inl rfl
  · rw [final_bind_of_ok (ask_apply _ e), final_bind_of_ok (ask_apply _ e)]
    split
    next c init _ =>
      exact .inr ⟨c, init, final_discard _ e⟩
    next => exact .inl rfl

namespace Engine

variable {e e' : Engine}

/-- An operation, and an account of what happens in it.  In its first part nothing runs, in the
second the code runs which the account is of, and in the third observers are called. -/
structure Elapses (e : Engine) (account : List Occurrence) (e' : Engine) : Prop where
  operation : e.Operation e'
  parts : ∃ (e₁ : Engine) (s : ScopeRef) (fuel : Nat) (α : Type) (x : Routine α),
    e.Rests Class.Untouched e₁ ∧ Passes s (invoke s fuel) (Account s fuel) x e₁ account ∧
      OnlyTraced ((x (invoke s fuel)).final e₁) e'

section Elapses

variable (operation : e.Operation e')
include operation

/-- An operation in which nothing runs. -/
theorem Operation.elapses_resting (rests : e.Rests Class.Untouched e') : e.Elapses [] e' :=
  ⟨operation, e', 0, 0, Unit, fun _ => pure (), rests, .quiet (fun _ => rfl) rfl, ⟨_, rfl⟩⟩

/-- An operation which leaves alone what calls and initializations change. -/
theorem Operation.elapses_keeping {α : Type} {y : Run α} (keeps : Keeps outline y)
    (same : e' = y.final e) : e.Elapses [] e' :=
  ⟨operation, e, 0, 0, α, fun _ => y, .refl e, .quiet (fun _ => rfl) (keeps e), same ▸ ⟨_, rfl⟩⟩

/-- An operation which does nothing but run code. -/
theorem Operation.exists_elapses_running {s : ScopeRef} {fuel : Nat} {α : Type} {y : Run α}
    (total : Recounted s fuel y) (same : e' = y.final e) : ∃ account, e.Elapses account e' := by
  obtain ⟨x, rfl, total⟩ := total
  obtain ⟨account, passes⟩ := total e
  exact ⟨account, operation, e, s, fuel, α, x, .refl e, passes, same ▸ ⟨_, rfl⟩⟩

end Elapses

theorem exists_elapses_define (fuel : Nat) (s : ScopeRef) (data : List UInt8)
    (scope_lt : s < e.scopes.size) :
    ∃ account, e.Elapses account ((Scope.define fuel s data).final e) := by
  have operation : e.Operation _ := .define fuel s data scope_lt
  have rests := Scope.moves_enroll s data e
  rw [Scope.define_eq] at operation ⊢
  cases run : Scope.enroll s data e with
  | error stop e₁ =>
    rw [final_of_error run] at rests
    rw [final_bind_of_error run] at operation ⊢
    exact ⟨[], operation.elapses_resting rests⟩
  | ok c e₁ =>
    rw [final_of_ok run] at rests
    rw [final_bind_of_ok run] at operation ⊢
    obtain ⟨account, passes⟩ :=
      Machine.recounts_ensureInitialized (s := s) (exists_account s fuel) c e₁
    refine ⟨account, operation, e₁, s, fuel, Unit, _, rests, passes, ?_⟩
    have same : (mapError ReloadError.run ((Machine.of s fuel).ensureInitialized c) >>=
        fun _ => pure c).final e₁ = ((Machine.of s fuel).ensureInitialized c).final e₁ := by
      have mapped := mapError_apply ReloadError.run ((Machine.of s fuel).ensureInitialized c) e₁
      unfold final
      rw [bind_apply, mapped]
      cases (Machine.of s fuel).ensureInitialized c e₁ <;> rfl
    exact ⟨_, same⟩

theorem exists_elapses_load (fuel : Nat) (t : TypeRef) (stamp : String) (data : List UInt8)
    (type_lt : t < e.types.size) :
    ∃ account, e.Elapses account ((ManagedType.load fuel t stamp data).final e) := by
  have operation : e.Operation _ := .load fuel t stamp data type_lt
  cases leaves_load (e := e) (t := t) fuel stamp data with
  | quiet reloads =>
    exact ⟨[], operation.elapses_resting (reloads.toRests.mono fun _ => Class.Generated.toUntouched)⟩
  | rerun published native reloads wanted reported =>
    have rests := reloads.toRests.mono fun _ => Class.Generated.toUntouched
    rcases final_rerunStaticInit fuel t native published with same | ⟨c, init, same⟩
    · rw [same] at reported
      exact ⟨[], operation, published, 0, 0, Unit, fun _ => pure (), rests,
        .quiet (fun _ => rfl) rfl, reported⟩
    · rw [same] at reported
      obtain ⟨account, told⟩ := exists_account (published.typeAt t).scope fuel c init [] published
      exact ⟨account, operation, published, _, fuel, Value, fun call => call c init [], rests,
        .calls told, reported⟩

/-- Every operation has an account. -/
theorem Operation.exists_elapses (operation : e.Operation e') : ∃ account, e.Elapses account e' := by
  cases operation with
  | define fuel s data scope_lt => exact exists_elapses_define fuel s data scope_lt
  | load fuel t stamp data type_lt => exact exists_elapses_load fuel t stamp data type_lt
  | newRegistry =>
    exact ⟨[], Operation.newRegistry.elapses_resting (.of_classes_eq rfl rfl rfl rfl fun _ => rfl)⟩
  | number s name =>
    exact ⟨[], (Operation.number s name).elapses_resting
      (.of_classes_eq rfl rfl rfl rfl fun _ => rfl)⟩
  | addObserver s observer =>
    exact ⟨[], (Operation.addObserver s observer).elapses_resting
      (.of_classes_eq rfl rfl rfl rfl fun _ => rfl)⟩
  | close s => exact ⟨[], (Operation.close s).elapses_resting (e.rests_updateScope s _)⟩
  | openWith options registry known =>
    exact ⟨[], (Operation.openWith options registry known).elapses_resting
      (rests_openWith options registry)⟩
  | superType t =>
    exact ⟨[], (Operation.superType t).elapses_resting (rests_superType t)⟩
  | metadata s typeName =>
    exact ⟨[], (Operation.metadata s typeName).elapses_keeping
      (Reflect.keeps_metadata s typeName) rfl⟩
  | forget s typeName =>
    exact ⟨[], (Operation.forget s typeName).elapses_keeping (Reflect.keeps_forget s typeName) rfl⟩
  | searchField s name fuel met pending =>
    exact ⟨[], (Operation.searchField s name fuel met pending).elapses_keeping
      (Reflect.keeps_searchField s name fuel met pending) rfl⟩
  | collectMethods s fuel found met pending =>
    exact ⟨[], (Operation.collectMethods s fuel found met pending).elapses_keeping
      (Reflect.keeps_collectMethods s fuel found met pending) rfl⟩
  | use fuel s use =>
    exact (Operation.use fuel s use).exists_elapses_running use.recounted_perform rfl

/-- A recording of how an engine came about from the empty one, operation by operation. -/
inductive Accounted : List Occurrence → Engine → Prop
  | start : Accounted [] {}
  | goesOn {e e' : Engine} {account inside : List Occurrence} (before : Accounted account e)
    (next : e.Elapses inside e') : Accounted (account ++ inside) e'

theorem Accounted.reachable {account : List Occurrence} (accounted : Accounted account e) :
    e.Reachable := by
  induction accounted with
  | start => exact .refl
  | goesOn _ next ih => exact ih.step next.operation

/-- Every reachable engine has a recording. -/
theorem Reachable.exists_accounted (reachable : e.Reachable) : ∃ account, Accounted account e := by
  induction reachable with
  | refl => exact ⟨[], .start⟩
  | tail _ operation ih =>
    obtain ⟨account, before⟩ := ih
    obtain ⟨inside, next⟩ := operation.exists_elapses
    exact ⟨_, .goesOn before next⟩

end Engine

end LiveUpdate
