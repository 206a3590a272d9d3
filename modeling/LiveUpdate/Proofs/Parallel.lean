import LiveUpdate.Proofs.Stepping

/-!
# Computations in parallel

Two computations that begin in one engine may succeed and fail together, with one answer and
one effect, although they are written in different ways and fail with different errors.  In
frames they may also stand at different places of different methods, as long as both have the
same stack.  Computations that are put together from such parts are of this kind again.
-/

set_option autoImplicit false

namespace LiveUpdate

namespace Exec

variable {ε α β : Type} {bones : Engine}

/-- Two outcomes are alike: both have an answer, the answers are related, and the engine is the
same and still has the skeleton, or both have failed in the same engine. -/
def Alike {α β : Type} (bones : Engine) (related : α → β → Prop)
    (made : EStateM.Result (Stop ε) Engine α) (made' : EStateM.Result (Stop ε) Engine β) : Prop :=
  match made, made' with
  | .ok a e, .ok b e' => related a b ∧ e' = e ∧ e.skeleton = bones
  | .error _ e, .error _ e' => e' = e
  | .ok .., .error .. | .error .., .ok .. => False

/-- Two computations have outcomes that are alike in every engine with a skeleton. -/
def Parallel (bones : Engine) (x y : Exec ε α) : Prop :=
  ∀ e, e.skeleton = bones → Alike bones (· = ·) (x e) (y e)

/-- Whether a computation ended with an answer. -/
def answers : EStateM.Result (Stop ε) Engine α → Bool
  | .ok .. => true
  | .error .. => false

theorem Alike.answers_eq {related : α → β → Prop} {made : EStateM.Result (Stop ε) Engine α}
    {made' : EStateM.Result (Stop ε) Engine β} (alike : Alike bones related made made') :
    answers made' = answers made := by
  cases made <;> cases made' <;> first | rfl | exact alike.elim

/-- A computation that keeps the skeleton is parallel to itself. -/
theorem parallel_self {x : Exec ε α} (keeps : Keeps Engine.skeleton x) : Parallel bones x x := by
  intro e same
  have kept := keeps e
  unfold final at kept
  cases run : x e with
  | ok a e' =>
    rw [run] at kept
    exact ⟨rfl, rfl, kept.trans same⟩
  | error stop e' => exact rfl

theorem parallel_bind {x y : Exec ε α} {f g : α → Exec ε β} (first : Parallel bones x y)
    (rest : ∀ a, Parallel bones (f a) (g a)) : Parallel bones (x >>= f) (y >>= g) := by
  intro e same
  have first := first e same
  rw [bind_apply, bind_apply]
  cases run : x e with
  | ok a e' =>
    cases run' : y e with
    | ok b e'' =>
      rw [run, run'] at first
      obtain ⟨rfl, rfl, same⟩ := first
      exact rest a e'' same
    | error stop e'' =>
      rw [run, run'] at first
      exact first.elim
  | error stop e' =>
    cases run' : y e with
    | ok b e'' =>
      rw [run, run'] at first
      exact first.elim
    | error stop' e'' =>
      rw [run, run'] at first
      exact first

/-- Questions with the same answers are parallel, whatever the errors. -/
theorem parallel_check {f g : Engine → Except ε α}
    (same : ∀ e, e.skeleton = bones → (f e).toOption = (g e).toOption) :
    Parallel bones (check f) (check g) := by
  intro e skeleton
  have same := same e skeleton
  rw [check_apply, check_apply]
  cases asked : f e with
  | ok a =>
    rw [asked] at same
    cases asked' : g e with
    | ok b =>
      rw [asked'] at same
      exact ⟨Option.some.inj same, rfl, skeleton⟩
    | error error =>
      rw [asked'] at same
      cases same
  | error error =>
    rw [asked] at same
    cases asked' : g e with
    | ok b =>
      rw [asked'] at same
      cases same
    | error error' => exact rfl

end Exec

open Exec

namespace Step

variable {α β : Type} {bones : Engine}

/-- What is behind two frames is the same: the stack. -/
def SameStack {α β : Type} (x : α × Frame) (y : β × Frame) : Prop := y.2.stack = x.2.stack

/-- Two computations inside frames have outcomes that are alike in every engine with a skeleton
and in all frames with one stack: they have the same answer and leave the same stack. -/
def Parallel (bones : Engine) (x y : Step α) : Prop :=
  ∀ e, e.skeleton = bones → ∀ f g : Frame, g.stack = f.stack →
    Alike bones (fun a b => a.1 = b.1 ∧ SameStack a b) (x f e) (y g e)

theorem parallel_bind {x y : Step α} {h k : α → Step β} (first : Parallel bones x y)
    (rest : ∀ a, Parallel bones (h a) (k a)) : Parallel bones (x >>= h) (y >>= k) := by
  intro e same f g stacked
  have first := first e same f g stacked
  rw [bind_apply, bind_apply]
  cases run : x f e with
  | ok next e' =>
    cases run' : y g e with
    | ok next' e'' =>
      obtain ⟨a, f'⟩ := next
      obtain ⟨b, g'⟩ := next'
      rw [run, run'] at first
      obtain ⟨⟨answers, stacked⟩, rfl, same⟩ := first
      obtain rfl : a = b := answers
      exact rest a e'' same f' g' stacked
    | error stop e'' =>
      rw [run, run'] at first
      exact first.elim
  | error stop e' =>
    cases run' : y g e with
    | ok b e'' =>
      rw [run, run'] at first
      exact first.elim
    | error stop' e'' =>
      rw [run, run'] at first
      exact first

theorem parallel_lift {x y : Run α} (h : Exec.Parallel bones x y) :
    Parallel bones (liftM x) (liftM y) := by
  intro e same f g stacked
  have h := h e same
  rw [lift_apply, lift_apply]
  cases run : x e with
  | ok a e' =>
    cases run' : y e with
    | ok b e'' =>
      rw [run, run'] at h
      obtain ⟨rfl, rfl, same⟩ := h
      exact ⟨⟨rfl, stacked⟩, rfl, same⟩
    | error stop e'' =>
      rw [run, run'] at h
      exact h.elim
  | error stop e' =>
    cases run' : y e with
    | ok b e'' =>
      rw [run, run'] at h
      exact h.elim
    | error stop' e'' =>
      rw [run, run'] at h
      exact h

theorem parallel_check {f g : Engine → Except RunError α}
    (same : ∀ e, e.skeleton = bones → (f e).toOption = (g e).toOption) :
    Parallel bones (check f) (check g) :=
  parallel_lift (Exec.parallel_check same)

theorem parallel_push (value : Value) : Parallel bones (push value) (push value) := by
  intro e same f g stacked
  exact ⟨⟨rfl, congrArg (value :: ·) stacked⟩, rfl, same⟩

theorem parallel_pop : Parallel bones pop pop := by
  intro e same f g stacked
  unfold pop
  rw [onFrame_apply, onFrame_apply]
  unfold Frame.pop
  rw [stacked]
  cases f.stack with
  | nil => exact rfl
  | cons value rest => exact ⟨⟨rfl, rfl⟩, rfl, same⟩

/-- Calls that are made one after another from a frame are one call. -/
theorem lift_seq (x : Run α) (k : α → Run β) :
    (liftM (x >>= k) : Step β) = liftM x >>= fun a => liftM (k a) := by
  funext f e
  rw [lift_bind, lift_apply, Exec.bind_apply]
  cases x e with
  | error stop e' => rfl
  | ok a e' =>
    dsimp only
    rw [lift_apply]

end Step

end LiveUpdate
