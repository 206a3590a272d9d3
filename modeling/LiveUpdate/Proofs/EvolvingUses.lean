import LiveUpdate.Proofs.EvolvingRuns
import LiveUpdate.Proofs.Reachable

/-!
# Uses of a scope let the heap evolve

Calls and field accesses from outside, by a scope and by its reflection, let the heap evolve
as the code does that they run.
-/

set_option autoImplicit false

namespace LiveUpdate

open Exec Engine

variable {p : Prop} {e : Engine}

namespace Reflect

variable (sound : p → e.Sound)
include sound

theorem tame_metadata (s : ScopeRef) (typeName : String) :
    e.Tame p (metadata s typeName) fun _ _ => True := by
  refine tame_check_bind sound fun c _ => tame_ask_bind (tame_ask_bind ?_)
  split
  · exact tame_pure fun hp => ⟨sound hp, trivial⟩
  · refine tame_check_bind sound fun shape _ => ?_
    exact tame_modify_bind (e.evolves_updateScope s fun _ => rfl)
      (tame_pure fun hp => ⟨(sound hp).updateScope s fun _ => rfl, trivial⟩)

theorem tame_forget (s : ScopeRef) (typeName : String) :
    e.Tame p (forget s typeName : Run Unit) fun _ _ => True :=
  tame_modify (e.evolves_updateScope s fun _ => rfl) fun hp =>
    ⟨(sound hp).updateScope s fun _ => rfl, trivial⟩

theorem tame_searchField (s : ScopeRef) (name : String) (fuel : Nat) (met pending : List String) :
    e.Tame p (searchField s name fuel met pending) fun _ _ => True := by
  induction fuel generalizing e met pending with
  | zero =>
    cases pending with
    | nil => exact tame_pure fun hp => ⟨sound hp, trivial⟩
    | cons current pending => exact tame_throw sound
  | succ fuel ih =>
    cases pending with
    | nil => exact tame_pure fun hp => ⟨sound hp, trivial⟩
    | cons current pending =>
      refine tame_bind (tame_metadata sound s current) fun t e' _ ok => ?_
      split
      · exact tame_pure fun hp => ⟨(ok hp).1, trivial⟩
      · exact ih (fun hp => (ok hp).1) _ _

theorem tame_collectMethods (s : ScopeRef) (fuel : Nat) (found : List MethodInfo)
    (met pending : List String) :
    e.Tame p (collectMethods s fuel found met pending) fun _ _ => True := by
  induction fuel generalizing e found met pending with
  | zero =>
    cases pending with
    | nil => exact tame_pure fun hp => ⟨sound hp, trivial⟩
    | cons current pending => exact tame_throw sound
  | succ fuel ih =>
    cases pending with
    | nil => exact tame_pure fun hp => ⟨sound hp, trivial⟩
    | cons current pending =>
      exact tame_bind (tame_metadata sound s current) fun t e' _ ok =>
        ih (fun hp => (ok hp).1) _ _ _

theorem tame_liveField (s : ScopeRef) (typeName name : String) {receiver : Option Value}
    (given : p → ∀ v ∈ receiver, v.Exists e) :
    e.Tame p (liveField s typeName name receiver) fun r e' =>
      (r.1.storedBy? = none → e'.Backs r.1) ∧ ∀ o ∈ r.2, o < e'.objects.size := by
  refine tame_check_bind sound fun c _ => tame_resolve_bind sound fun found answer => ?_
  cases found with
  | none => exact tame_fail sound
  | some f =>
    have backs (hp : p) := (sound hp).coherent.backed s c name f answer
    dsimp only
    split
    · exact tame_pure fun hp => ⟨sound hp, backs hp, fun _ held => by cases held⟩
    · split
      next o object =>
        refine tame_ask_bind (tame_bind (Machine.tame_checkReceiverClass sound _ typeName)
          fun _ e' evolves ok => ?_)
        refine tame_pure fun hp => ⟨(ok hp).1, fun kept => (backs hp kept).mono evolves.during,
          fun o' same => ?_⟩
        cases same
        obtain ⟨v, held, same⟩ := Option.bind_eq_some_iff.1 object
        cases v <;> cases same
        exact (given hp _ held).mono evolves
      next => exact tame_fail sound

theorem tame_readField (fuel : Nat) (s : ScopeRef) (typeName name : String)
    {receiver : Option Value} (given : p → ∀ v ∈ receiver, v.Exists e) :
    e.Tame p (readField fuel s typeName name receiver) Value.Answered := by
  refine tame_bind (tame_liveField sound s typeName name given) fun found e' evolves ok => ?_
  exact (Machine.tame_readField (tame_of p s fuel) found.1 found.2 (fun hp => (ok hp).1)
    (fun hp => (ok hp).2.1) fun hp => (ok hp).2.2).weaken fun v e' fits => fits.there

theorem tame_writeField (fuel : Nat) (s : ScopeRef) (typeName name : String)
    {receiver : Option Value} {value : Value} (given : p → ∀ v ∈ receiver, v.Exists e)
    (written : p → value.Exists e) :
    e.Tame p (writeField fuel s typeName name receiver value) fun _ _ => True := by
  refine tame_bind (tame_liveField sound s typeName name given) fun found e' evolves ok => ?_
  exact Machine.tame_writeField (tame_of p s fuel) found.1 found.2 (fun hp => (ok hp).1)
    (fun hp => (ok hp).2.1) (fun hp => (ok hp).2.2) fun hp => (written hp).mono evolves

theorem tame_liveMethod (s : ScopeRef) (typeName : String) (key : MemberKey) :
    e.Tame p (liveMethod s typeName key) fun _ _ => True := by
  refine tame_check_bind sound fun c _ => tame_resolve_bind sound fun found _ => ?_
  cases found with
  | none => exact tame_fail sound
  | some live => exact tame_pure fun hp => ⟨sound hp, trivial⟩

theorem tame_call (fuel : Nat) (s : ScopeRef) (typeName : String) (key : MemberKey)
    {args : List Value} (given : p → ∀ v ∈ args, v.Exists e) :
    e.Tame p (call fuel s typeName key args) Value.Answered := by
  have hm := tame_of p s fuel
  refine tame_bind (tame_liveMethod sound s typeName key) fun found e₁ evolves ok => ?_
  have sound (hp : p) := (ok hp).1
  have given (hp : p) : ∀ v ∈ args, v.Exists e₁ := fun v mem => (given hp v mem).mono evolves
  dsimp only
  split
  · exact Machine.tame_callResolved hm sound given _ _
  · refine tame_ofResult_bind sound fun o _ => tame_ask_bind ?_
    refine tame_bind (Machine.tame_checkReceiverClass sound _ typeName) fun _ e₂ evolves ok => ?_
    have sound (hp : p) := (ok hp).1
    have given (hp : p) : ∀ v ∈ args, v.Exists e₂ := fun v mem => (given hp v mem).mono evolves
    split
    · exact Machine.tame_callResolved hm sound given _ _
    · exact Machine.tame_callVirtual hm sound given _ _

theorem tame_newInstance (fuel : Nat) (s : ScopeRef) (typeName : String) (sig : MethodSig)
    {args : List Value} (given : p → ∀ v ∈ args, v.Exists e) :
    e.Tame p (newInstance fuel s typeName sig args) Value.Answered := by
  have hm := tame_of p s fuel
  refine tame_bind (tame_liveMethod sound s typeName _) fun found e₁ evolves₁ ok => ?_
  refine tame_bind (Machine.tame_instantiate hm typeName fun hp => (ok hp).1)
    fun o e₂ evolves₂ ok' => ?_
  have given (hp : p) : ∀ v ∈ .object o :: args, v.Exists e₂ := by
    intro v mem
    rcases List.mem_cons.1 mem with rfl | mem
    · exact (ok' hp).2
    · exact (given hp v mem).mono (evolves₁.trans evolves₂)
  refine tame_bind (tame_discard (Machine.tame_callResolved hm (fun hp => (ok' hp).1) given _ _))
    fun _ e₃ evolves₃ ok => ?_
  exact tame_pure fun hp => ⟨(ok hp).1, Value.Exists.mono (ok' hp).2 evolves₃⟩

end Reflect

namespace Scope

open Reflect

variable (sound : p → e.Sound)
include sound

theorem tame_invokeVirtual (fuel : Nat) (s : ScopeRef) {receiver : Value} (key : MemberKey)
    {args : List Value} (given : p → ∀ v ∈ receiver :: args, v.Exists e) :
    e.Tame p (invokeVirtual fuel s receiver key args) Value.Answered := by
  have hm := tame_of p s fuel
  unfold invokeVirtual
  split
  · refine tame_ask_bind (tame_bind (Machine.tame_dispatchVirtual hm sound given _ key)
      fun answer e' _ ok => ?_)
    have sound (hp : p) := (ok hp).1
    cases answer with
    | some value => exact tame_pure fun hp => ⟨sound hp, (ok hp).2 value rfl⟩
    | none =>
      refine tame_ask_bind (tame_resolve_bind sound fun live _ => ?_)
      cases live with
      | none => exact tame_fail sound
      | some live =>
        dsimp only
        split <;> exact tame_fail sound
  · exact tame_fail sound

theorem tame_invokeStatic (fuel : Nat) (s : ScopeRef) (typeName : String) (key : MemberKey)
    {args : List Value} (given : p → ∀ v ∈ args, v.Exists e) :
    e.Tame p (invokeStatic fuel s typeName key args) Value.Answered := by
  refine tame_bind (tame_liveMethod sound s typeName key) fun found e' evolves ok => ?_
  have sound (hp : p) := (ok hp).1
  dsimp only
  split
  · exact Machine.tame_callResolved (tame_of p s fuel) sound
      (fun hp v mem => (given hp v mem).mono evolves) _ _
  · exact tame_fail sound

theorem tame_requireStatic (s : ScopeRef) (typeName name : String) :
    e.Tame p (requireStatic s typeName name) fun _ _ => True := by
  refine tame_check_bind sound fun c _ => tame_resolve_bind sound fun found _ => ?_
  cases found with
  | none => exact tame_fail sound
  | some f =>
    dsimp only
    split
    · exact tame_pure fun hp => ⟨sound hp, trivial⟩
    · exact tame_fail sound

theorem tame_classNameOf (receiver : Value) (name : String) :
    e.Tame p (classNameOf receiver name) fun _ _ => True := by
  unfold classNameOf
  split
  · exact tame_ask fun hp => ⟨sound hp, trivial⟩
  · exact tame_fail sound

end Scope

namespace Scope.Use

/-- The values that a scope is used with. -/
def values : Scope.Use → List Value
  | invokeStatic _ _ args | newInstance _ _ args | call _ _ args => args
  | invokeVirtual receiver _ args => receiver :: args
  | getField receiver _ => [receiver]
  | setField receiver _ value => [receiver, value]
  | getStatic _ _ => []
  | setStatic _ _ value => [value]
  | readField _ _ receiver => receiver.toList
  | writeField _ _ receiver value => value :: receiver.toList

/-- A use of a scope lets the heap evolve, and keeps it typed when what it is given exists. -/
theorem tame_perform (fuel : Nat) (s : ScopeRef) (use : Scope.Use) (sound : p → e.Sound)
    (given : p → ∀ v ∈ use.values, v.Exists e) :
    e.Tame p (use.perform fuel s) Value.Answered := by
  have done {x : Run Unit} (h : e.Tame p x fun _ _ => True) :
      e.Tame p (do x; return .null) Value.Answered :=
    tame_bind h fun _ _ _ ok => tame_pure fun hp => ⟨(ok hp).1, trivial⟩
  cases use with
  | invokeStatic typeName key args => exact tame_invokeStatic sound fuel s typeName key given
  | invokeVirtual receiver key args => exact tame_invokeVirtual sound fuel s key given
  | newInstance typeName sig args => exact Reflect.tame_newInstance sound fuel s typeName sig given
  | call typeName key args => exact Reflect.tame_call sound fuel s typeName key given
  | getField receiver name =>
    refine tame_bind (tame_classNameOf sound receiver name) fun typeName e' evolves ok => ?_
    refine Reflect.tame_readField (fun hp => (ok hp).1) fuel s typeName name fun hp v same => ?_
    cases same
    exact (given hp receiver (by simp [values])).mono evolves
  | setField receiver name value =>
    refine done (tame_bind (tame_classNameOf sound receiver name) fun typeName e' evolves ok => ?_)
    refine Reflect.tame_writeField (fun hp => (ok hp).1) fuel s typeName name
      (fun hp v same => ?_) fun hp => (given hp value (by simp [values])).mono evolves
    cases same
    exact (given hp receiver (by simp [values])).mono evolves
  | getStatic typeName name =>
    refine tame_bind (tame_requireStatic sound s typeName name) fun _ e' evolves ok => ?_
    exact Reflect.tame_readField (fun hp => (ok hp).1) fuel s typeName name
      fun hp _ held => by cases held
  | setStatic typeName name value =>
    refine done (tame_bind (tame_requireStatic sound s typeName name) fun _ e' evolves ok => ?_)
    exact Reflect.tame_writeField (fun hp => (ok hp).1) fuel s typeName name
      (fun hp _ held => by cases held) fun hp => (given hp value (by simp [values])).mono evolves
  | readField typeName name receiver =>
    exact Reflect.tame_readField sound fuel s typeName name
      fun hp v held => given hp v (Option.mem_toList.2 held)
  | writeField typeName name receiver value =>
    refine done (Reflect.tame_writeField sound fuel s typeName name (fun hp v held => ?_)
      fun hp => given hp value List.mem_cons_self)
    exact given hp v (List.mem_cons_of_mem _ (Option.mem_toList.2 held))

end Scope.Use

namespace ManagedType

/-- The static initializer of a version runs as any other code. -/
theorem tame_rerunStaticInit (fuel : Nat) (t : TypeRef) (native : ClassRef)
    (sound : p → e.Sound) : e.Tame p (rerunStaticInit fuel t native) fun _ _ => True := by
  refine tame_ask_bind ?_
  dsimp only
  split
  · exact tame_pure fun hp => ⟨sound hp, trivial⟩
  · refine tame_ask_bind (tame_ask_bind ?_)
    split
    next c m _ =>
      exact tame_discard (tame_of p _ fuel e c m [] sound fun _ _ mem => by cases mem)
    next => exact tame_pure fun hp => ⟨sound hp, trivial⟩

end ManagedType

end LiveUpdate
