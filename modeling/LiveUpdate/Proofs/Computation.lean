import LiveUpdate.Engine.Exec

/-!
# Computations and what they leave alone

A computation of the engine ends in a state, whether it has a result or not.  This module
names that state, says how it comes about for the ways in which computations are put
together, and from that derives how a view of the state survives: a computation keeps a
view when its parts do.
-/

set_option autoImplicit false

namespace LiveUpdate.Exec

variable {ε δ α β γ : Type}

/-- A result that is put together from two has both. -/
theorem bind_eq_ok {x : Except ε α} {f : α → Except ε β} {b : β} :
    (x >>= f) = .ok b ↔ ∃ a, x = .ok a ∧ f a = .ok b := by
  cases x with
  | ok a => exact ⟨fun h => ⟨a, rfl, h⟩, fun ⟨_, same, h⟩ => by cases same; exact h⟩
  | error error => exact ⟨fun h => (nomatch h), fun ⟨_, same, _⟩ => nomatch same⟩

/-- A result that was not an error before its error was renamed. -/
theorem ok_of_mapError {f : ε → δ} {x : Except ε α} {a : α} (h : x.mapError f = .ok a) :
    x = .ok a := by
  cases x with
  | error error => cases h
  | ok b => exact congrArg Except.ok (Except.ok.inj h)

/-- A result that there is without its error. -/
theorem ok_of_toOption {x : Except ε α} {a : α} (h : x.toOption = some a) : x = .ok a := by
  cases x with
  | error error => cases h
  | ok b => exact congrArg Except.ok (Option.some.inj h)

/-- The state in which a computation stops, with a result or without one. -/
def final (x : Exec ε α) (e : Engine) : Engine :=
  match x e with
  | .ok _ e' => e'
  | .error _ e' => e'

theorem bind_apply (x : Exec ε α) (f : α → Exec ε β) (e : Engine) :
    (x >>= f) e = match x e with
      | .ok a e' => f a e'
      | .error stop e' => .error stop e' := by
  show EStateM.bind x f e = _
  unfold EStateM.bind
  cases x e <;> rfl

theorem pure_apply (a : α) (e : Engine) : (pure a : Exec ε α) e = .ok a e := rfl

/-- Nothing happens after a failure. -/
@[simp] theorem fail_bind (error : ε) (f : α → Exec ε β) :
    (fail error >>= f) = (fail error : Exec ε β) := rfl

theorem ask_apply (f : Engine → α) (e : Engine) : (ask f : Exec ε α) e = .ok (f e) e := rfl

theorem modify_apply (f : Engine → Engine) (e : Engine) :
    (modify f : Exec ε Unit) e = .ok () (f e) := rfl

theorem modifyGet_apply (f : Engine → α × Engine) (e : Engine) :
    (modifyGet f : Exec ε α) e = .ok (f e).1 (f e).2 := rfl

theorem ofResult_apply (x : Except ε α) (e : Engine) :
    (ofResult x : Exec ε α) e = match x with
      | .ok a => .ok a e
      | .error error => .error (.error error) e := by
  cases x <;> rfl

theorem check_apply (f : Engine → Except ε α) (e : Engine) :
    (check f : Exec ε α) e = match f e with
      | .ok a => .ok a e
      | .error error => .error (.error error) e :=
  ofResult_apply (f e) e

theorem resolve_apply (f : Engine → Except (Stop ε) α) (e : Engine) :
    (resolve f : Exec ε α) e = match f e with
      | .ok a => .ok a e
      | .error stop => .error stop e := by
  show (match f e with
    | .ok a => (pure a : Exec ε α)
    | .error stop => throw stop) e = _
  cases f e <;> rfl

theorem require_apply (f : Engine → Option α) (error : ε) (e : Engine) :
    (require f error : Exec ε α) e = match f e with
      | some a => .ok a e
      | none => .error (.error error) e := by
  show (match f e with
    | some a => (pure a : Exec ε α)
    | none => fail error) e = _
  cases f e <;> rfl

theorem map_apply (f : α → β) (x : Exec ε α) (e : Engine) :
    (f <$> x) e = match x e with
      | .ok a e' => .ok (f a) e'
      | .error stop e' => .error stop e' := by
  show EStateM.map f x e = _
  unfold EStateM.map
  cases x e <;> rfl

/-- What is to happen finally happens in either case, and changes nothing but the state. -/
theorem finally_modify_apply (x : Exec ε α) (f : Engine → Engine) (e : Engine) :
    (tryFinally x (modify f)) e = match x e with
      | .ok a e' => .ok a (f e')
      | .error stop e' => .error stop (f e') := by
  have inner : (tryFinally' x fun _ => modify f : Exec ε (α × Unit)) e = match x e with
      | .ok a e' => .ok (a, ()) (f e')
      | .error stop e' => .error stop (f e') := by
    cases run : x e <;> simp only [tryFinally', run] <;> rfl
  show (Prod.fst <$> tryFinally' x fun _ => modify f : Exec ε α) e = _
  rw [map_apply, inner]
  cases x e <;> rfl

/-- What is done about a failure is done where it happened. -/
theorem tryCatch_apply (x : Exec ε α) (handle : Stop ε → Exec ε α) (e : Engine) :
    (tryCatch x handle) e = match x e with
      | .ok a e' => .ok a e'
      | .error stop e' => handle stop e' := by
  show EStateM.tryCatch x handle e = _
  unfold EStateM.tryCatch
  cases x e <;> rfl

theorem mapError_apply (f : ε → δ) (x : Exec ε α) (e : Engine) :
    mapError f x e = match x e with
      | .ok a e' => .ok a e'
      | .error stop e' => .error (stop.map f) e' := rfl

/-- Whatever a computation does to the engine, the view `π` of it stays the same. -/
def Keeps (π : Engine → γ) (x : Exec ε α) : Prop := ∀ e, π (x.final e) = π e

section Keeps

variable {π : Engine → γ}

theorem keeps_pure (a : α) : Keeps π (pure a : Exec ε α) := fun _ => rfl

theorem keeps_fail (error : ε) : Keeps π (fail error : Exec ε α) := fun _ => rfl

theorem keeps_throw (stop : Stop ε) : Keeps π (throw stop : Exec ε α) := fun _ => rfl

theorem keeps_ask (f : Engine → α) : Keeps π (ask f : Exec ε α) := fun _ => rfl

theorem keeps_ofResult (x : Except ε α) : Keeps π (ofResult x : Exec ε α) := by
  intro e
  cases x <;> rfl

theorem keeps_check (f : Engine → Except ε α) : Keeps π (check f : Exec ε α) := by
  intro e
  rw [final, check_apply]
  cases f e <;> rfl

theorem keeps_resolve (f : Engine → Except (Stop ε) α) : Keeps π (resolve f : Exec ε α) := by
  intro e
  rw [final, resolve_apply]
  cases f e <;> rfl

theorem keeps_modify {f : Engine → Engine} (h : ∀ e, π (f e) = π e) :
    Keeps π (modify f : Exec ε Unit) := h

theorem keeps_modifyGet {f : Engine → α × Engine} (h : ∀ e, π (f e).2 = π e) :
    Keeps π (modifyGet f : Exec ε α) := h

/-- One computation after another keeps what both keep. -/
theorem keeps_bind {x : Exec ε α} {f : α → Exec ε β} (hx : Keeps π x)
    (hf : ∀ a, Keeps π (f a)) : Keeps π (x >>= f) := by
  intro e
  have first := hx e
  unfold final at first ⊢
  rw [bind_apply]
  cases run : x e with
  | ok a e' =>
    rw [run] at first
    exact (hf a e').trans first
  | error stop e' =>
    rw [run] at first
    exact first

theorem keeps_mapError (f : ε → δ) {x : Exec ε α} (hx : Keeps π x) : Keeps π (mapError f x) := by
  intro e
  have same := hx e
  unfold final at same ⊢
  rw [mapError_apply]
  cases run : x e <;> rw [run] at same <;> exact same

theorem keeps_tryCatch {x : Exec ε α} {handle : Stop ε → Exec ε α} (hx : Keeps π x)
    (h : ∀ stop, Keeps π (handle stop)) : Keeps π (tryCatch x handle) := by
  intro e
  have same := hx e
  unfold final at same ⊢
  rw [tryCatch_apply]
  cases run : x e with
  | ok a e' =>
    rw [run] at same
    exact same
  | error stop e' =>
    rw [run] at same
    exact (h stop e').trans same

end Keeps

end LiveUpdate.Exec
