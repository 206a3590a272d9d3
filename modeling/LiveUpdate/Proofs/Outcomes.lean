import LiveUpdate.Proofs.Computation

/-!
# How computations come out

A computation either ends with a result or stops for a reason, and it leaves a state behind
in both cases.  `Ends` says something about each, and the rules put such statements about
the parts of a computation together to one about the whole.
-/

set_option autoImplicit false

namespace LiveUpdate

open Exec

/-- From an engine, a computation ends with `done` of its result and the state, or stops with
`failed` of the reason and the state. -/
def Engine.Ends {ε α : Type} (e : Engine) (x : Exec ε α) (done : α → Engine → Prop)
    (failed : Stop ε → Engine → Prop) : Prop :=
  match x e with
  | .ok a e' => done a e'
  | .error stop e' => failed stop e'

namespace Engine

variable {ε δ α β γ : Type} {e : Engine} {x : Exec ε α} {done : α → Engine → Prop}
  {failed : Stop ε → Engine → Prop} {done' : β → Engine → Prop}

theorem Ends.of_ok {a : α} {e' : Engine} (run : x e = .ok a e') (h : done a e') :
    e.Ends x done failed := by
  unfold Ends
  rw [run]
  exact h

theorem Ends.of_error {stop : Stop ε} {e' : Engine} (run : x e = .error stop e')
    (h : failed stop e') : e.Ends x done failed := by
  unfold Ends
  rw [run]
  exact h

theorem Ends.ok {a : α} {e' : Engine} (h : e.Ends x done failed) (run : x e = .ok a e') :
    done a e' := by
  unfold Ends at h
  rw [run] at h
  exact h

theorem Ends.error {stop : Stop ε} {e' : Engine} (h : e.Ends x done failed)
    (run : x e = .error stop e') : failed stop e' := by
  unfold Ends at h
  rw [run] at h
  exact h

/-- What holds of the final state of a computation holds however it comes out. -/
theorem ends_of_final {holds : Engine → Prop} (h : holds (x.final e)) :
    e.Ends x (fun _ => holds) fun _ => holds := by
  unfold Exec.final at h
  cases run : x e with
  | ok a e' =>
    rw [run] at h
    exact .of_ok run h
  | error stop e' =>
    rw [run] at h
    exact .of_error run h

/-- What always holds holds however a computation comes out. -/
theorem ends_of_always (onDone : ∀ a e', done a e') (onFailed : ∀ stop e', failed stop e') :
    e.Ends x done failed := by
  cases run : x e with
  | ok a e' => exact .of_ok run (onDone a e')
  | error stop e' => exact .of_error run (onFailed stop e')

theorem Ends.weaken {weaker : α → Engine → Prop} {weaker' : Stop ε → Engine → Prop}
    (h : e.Ends x done failed) (onDone : ∀ a e', done a e' → weaker a e')
    (onFailed : ∀ stop e', failed stop e' → weaker' stop e') : e.Ends x weaker weaker' := by
  cases run : x e with
  | ok a e' => exact .of_ok run (onDone a e' (h.ok run))
  | error stop e' => exact .of_error run (onFailed stop e' (h.error run))

/-- What holds however a computation comes out holds of its final state. -/
theorem Ends.final {holds : Engine → Prop} (h : e.Ends x (fun _ => holds) fun _ => holds) :
    holds (x.final e) := by
  unfold Exec.final
  cases run : x e with
  | ok a e' => exact h.ok run
  | error stop e' => exact h.error run

theorem ends_pure {a : α} (h : done a e) : e.Ends (pure a : Exec ε α) done failed := h

theorem ends_fail {error : ε} (h : failed (.error error) e) :
    e.Ends (fail error : Exec ε α) done failed := h

/-- The second of two computations goes on from what the first ends with. -/
theorem ends_bind {f : α → Exec ε β} (hx : e.Ends x done failed)
    (hf : ∀ a e', done a e' → e'.Ends (f a) done' failed) : e.Ends (x >>= f) done' failed := by
  cases run : x e with
  | ok a e' =>
    have next := hf a e' (hx.ok run)
    unfold Ends
    rw [bind_apply, run]
    exact next
  | error stop e' =>
    have stopped : (x >>= f) e = .error stop e' := by rw [bind_apply, run]
    exact .of_error stopped (hx.error run)

/-- A computation that does not fail goes on to the next one. -/
theorem ends_bind_done {f : α → Exec ε β} {failed' : Stop ε → Engine → Prop}
    (hx : e.Ends x done fun _ _ => False) (hf : ∀ a e', done a e' → e'.Ends (f a) done' failed') :
    e.Ends (x >>= f) done' failed' :=
  ends_bind (hx.weaken (fun _ _ h => h) fun _ _ impossible => impossible.elim) hf

theorem ends_ask_bind {g : Engine → α} {f : α → Exec ε β} (h : e.Ends (f (g e)) done' failed) :
    e.Ends (ask g >>= f) done' failed := by
  unfold Ends
  rw [bind_apply, ask_apply]
  exact h

theorem ends_modify_bind {g : Engine → Engine} {f : Unit → Exec ε β}
    (h : (g e).Ends (f ()) done' failed) : e.Ends (modify g >>= f) done' failed := by
  unfold Ends
  rw [bind_apply, modify_apply]
  exact h

theorem ends_modifyGet_bind {g : Engine → α × Engine} {f : α → Exec ε β}
    (h : (g e).2.Ends (f (g e).1) done' failed) : e.Ends (modifyGet g >>= f) done' failed := by
  unfold Ends
  rw [bind_apply, modifyGet_apply]
  exact h

theorem ends_ofResult_bind {y : Except ε α} {f : α → Exec ε β}
    (onOk : ∀ a, y = .ok a → e.Ends (f a) done' failed)
    (onError : ∀ error, y = .error error → failed (.error error) e) :
    e.Ends (ofResult y >>= f) done' failed := by
  cases y with
  | ok a => exact onOk a rfl
  | error error => exact onError error rfl

theorem ends_mapError {g : ε → δ} {failed : Stop δ → Engine → Prop}
    (h : e.Ends x done fun stop => failed (stop.map g)) : e.Ends (mapError g x) done failed := by
  cases run : x e with
  | ok a e' =>
    have ended : mapError g x e = .ok a e' := by rw [mapError_apply, run]
    exact .of_ok ended (h.ok run)
  | error stop e' =>
    have stopped : mapError g x e = .error (stop.map g) e' := by rw [mapError_apply, run]
    exact .of_error stopped (h.error run)

/-- What a computation keeps it keeps however it comes out. -/
theorem ends_of_keeps {π : Engine → γ} (hx : Keeps π x) :
    e.Ends x (fun _ e' => π e' = π e) fun _ e' => π e' = π e := by
  have same := hx e
  unfold Exec.final at same
  cases run : x e with
  | ok a e' =>
    rw [run] at same
    exact .of_ok run same
  | error stop e' =>
    rw [run] at same
    exact .of_error run same

end Engine

end LiveUpdate
