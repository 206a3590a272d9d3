import LiveUpdate.Proofs.Computation
import LiveUpdate.Proofs.Edit
import LiveUpdate.Proofs.Running

/-!
# Where computations lead

A computation leads from an engine through edits, whether it succeeds or fails, and a
result of it satisfies a condition.  The rules say how such statements about the parts of
a computation are put together to one about the whole.
-/

set_option autoImplicit false

namespace LiveUpdate

open Exec

/-- A computation takes an engine through edits, and a result of it satisfies `post`. -/
structure Engine.Leads {ε α : Type} (e : Engine) (x : Exec ε α) (post : α → Engine → Prop) :
    Prop where
  edits : e.Edits (x.final e)
  post : ∀ a e', x e = .ok a e' → post a e'

namespace Engine

variable {ε δ α β : Type} {e : Engine} {post : α → Engine → Prop} {post' : β → Engine → Prop}

theorem Leads.weaken {x : Exec ε α} {weaker : α → Engine → Prop} (hx : e.Leads x post)
    (h : ∀ a e', post a e' → weaker a e') : e.Leads x weaker :=
  ⟨hx.edits, fun a e' run => h a e' (hx.post a e' run)⟩

theorem leads_pure {a : α} (h : post a e) : e.Leads (pure a : Exec ε α) post := by
  refine ⟨.refl, fun b e' run => ?_⟩
  cases run
  exact h

theorem leads_fail (error : ε) : e.Leads (fail error : Exec ε α) post :=
  ⟨.refl, fun _ _ run => by cases run⟩

/-- The edits that led to a result may be used where it is. -/
theorem Leads.reached {x : Exec ε α} (hx : e.Leads x post) :
    e.Leads x fun a e' => e.Edits e' ∧ post a e' := by
  refine ⟨hx.edits, fun a e' run => ⟨?_, hx.post a e' run⟩⟩
  have edits := hx.edits
  unfold final at edits
  rw [run] at edits
  exact edits

/-- What the first of two computations leads to, the second goes on from. -/
theorem leads_bind {x : Exec ε α} {f : α → Exec ε β} (hx : e.Leads x post)
    (hf : ∀ a e', post a e' → e'.Leads (f a) post') : e.Leads (x >>= f) post' := by
  obtain ⟨edits, result⟩ := hx
  unfold final at edits
  cases run : x e with
  | ok a e' =>
    rw [run] at edits
    have next := hf a e' (result a e' run)
    refine ⟨?_, fun b e'' run' => ?_⟩
    · unfold final
      rw [bind_apply, run]
      exact edits.trans next.edits
    · rw [bind_apply, run] at run'
      exact next.post b e'' run'
  | error stop e' =>
    rw [run] at edits
    refine ⟨?_, fun b e'' run' => ?_⟩
    · unfold final
      rw [bind_apply, run]
      exact edits
    · rw [bind_apply, run] at run'
      cases run'

/-- Only what a computation does to this engine counts. -/
theorem leads_congr {x y : Exec ε α} (same : x e = y e) (hy : e.Leads y post) :
    e.Leads x post := by
  refine ⟨?_, fun a e' run => hy.post a e' (same ▸ run)⟩
  have edits := hy.edits
  unfold final at edits ⊢
  rw [same]
  exact edits

theorem leads_ask_bind {g : Engine → α} {f : α → Exec ε β} (h : e.Leads (f (g e)) post') :
    e.Leads (ask g >>= f) post' :=
  leads_congr (by rw [bind_apply, ask_apply]) h

theorem leads_ofResult_bind {x : Except ε α} {f : α → Exec ε β}
    (h : ∀ a, x = .ok a → e.Leads (f a) post') : e.Leads (ofResult x >>= f) post' := by
  cases x with
  | ok a => exact h a rfl
  | error error => exact leads_fail error

theorem leads_check_bind {g : Engine → Except ε α} {f : α → Exec ε β}
    (h : ∀ a, g e = .ok a → e.Leads (f a) post') : e.Leads (check g >>= f) post' :=
  leads_congr (y := ofResult (g e) >>= f) (by rw [bind_apply, bind_apply]; rfl)
    (leads_ofResult_bind h)

theorem leads_modify {g : Engine → Engine} (edits : e.Edits (g e)) :
    e.Leads (modify g : Exec ε Unit) fun _ e' => e' = g e :=
  ⟨edits, fun _ _ run => by cases run; rfl⟩

theorem leads_modify_bind {g : Engine → Engine} {f : Unit → Exec ε β} (edits : e.Edits (g e))
    (h : (g e).Leads (f ()) post') : e.Leads (modify g >>= f) post' :=
  leads_bind (leads_modify edits) fun _ _ same => same ▸ h

theorem leads_mapError {x : Exec ε α} (g : ε → δ) (hx : e.Leads x post) :
    e.Leads (mapError g x) post := by
  obtain ⟨edits, result⟩ := hx
  unfold final at edits
  have apply := mapError_apply g x e
  cases run : x e with
  | ok a e' =>
    rw [run] at edits apply
    refine ⟨?_, fun b e'' run' => ?_⟩
    · unfold final
      rw [apply]
      exact edits
    · rw [apply] at run'
      cases run'
      exact result a e' run
  | error stop e' =>
    rw [run] at edits apply
    refine ⟨?_, fun b e'' run' => ?_⟩
    · unfold final
      rw [apply]
      exact edits
    · rw [apply] at run'
      cases run'

/-- Running code is an edit. -/
theorem leads_of_obeys {x : Exec ε α} {post : α → Prop}
    (hx : ∀ law : Law, Exec.Obeys law.holds x post) :
    e.Leads x fun _ e' => e'.skeleton = e.skeleton := by
  have keeps : Keeps skeleton x := keeps_of_obeys fun bones => hx (.skeleton bones)
  refine ⟨(Edit.run (keeps e) fun law holds => ((hx law).final holds).1).edits, fun a e' run => ?_⟩
  have same := keeps e
  unfold final at same
  rw [run] at same
  exact same

end Engine

end LiveUpdate
