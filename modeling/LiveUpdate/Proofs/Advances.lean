import LiveUpdate.Proofs.Enrolling
import LiveUpdate.Proofs.EvolvingUses

/-!
# What operations do

An operation has up to three parts.  In the first nothing runs; it may add classes and change
what scopes and managed types say.  In the second code runs.  In the third observers are
called, which leaves a trace.  What each of the parts preserves, an operation preserves.
-/

set_option autoImplicit false

namespace LiveUpdate

open Exec ManagedType

namespace Engine

variable {new : Class → Prop} {p : Prop} {e e' : Engine}

/-- One engine comes from another in three parts: classes that are `new` are added, code runs,
and observers are called.  If `p` holds, the code leaves a sound heap sound. -/
def Advances (new : Class → Prop) (p : Prop) (e e' : Engine) : Prop :=
  ∃ e₁ e₂, e.Rests new e₁ ∧ (e₁.Evolves e₂ ∧ (p → e₁.Sound → e₂.Sound)) ∧ OnlyTraced e₂ e'

theorem Advances.of_rests (rests : e.Rests new e') : e.Advances new p e' :=
  ⟨e', e', rests, ⟨.refl e', fun _ sound => sound⟩, refl_of OnlyTraced e'⟩

theorem Advances.of_tame {ε α : Type} {x : Exec ε α} {post : α → Engine → Prop}
    (tame : e.Tame (p ∧ e.Sound) x post) : e.Advances new p (x.final e) :=
  ⟨e, _, .refl e, ⟨tame.evolves, fun hp sound => tame.sound ⟨hp, sound⟩⟩, refl_of OnlyTraced _⟩

theorem Advances.mono {new' : Class → Prop} (advances : e.Advances new p e')
    (h : ∀ c, new c → new' c) : e.Advances new' p e' := by
  obtain ⟨e₁, e₂, rests, ran, traced⟩ := advances
  exact ⟨e₁, e₂, rests.mono h, ran, traced⟩

theorem advances_load (fuel : Nat) (t : TypeRef) (stamp : String) (data : List UInt8) :
    e.Advances Class.Generated p ((load fuel t stamp data).final e) := by
  cases leaves_load (e := e) (t := t) fuel stamp data with
  | quiet reloads => exact .of_rests reloads.toRests
  | rerun published native reloads wanted reported =>
    have tame : published.Tame (p ∧ published.Sound) (rerunStaticInit fuel t native)
        fun _ _ => True := tame_rerunStaticInit fuel t native And.right
    exact ⟨published, _, reloads.toRests,
      ⟨tame.evolves, fun hp sound => tame.sound ⟨hp, sound⟩⟩, reported⟩

theorem advances_define (fuel : Nat) (s : ScopeRef) (data : List UInt8) :
    e.Advances Class.Untouched p ((Scope.define fuel s data).final e) := by
  rw [Scope.define_eq]
  apply Ends.final
  refine ends_bind (((Scope.moves_enroll s data).ends e).weaken (fun _ _ rests => rests)
    fun _ _ rests => .of_rests rests) fun c e₁ rests => ?_
  have tame : e₁.Tame (p ∧ e₁.Sound) (mapError ReloadError.run
      ((Machine.of s fuel).ensureInitialized c) >>= fun _ => pure c) fun _ _ => True :=
    tame_bind (tame_mapError (Machine.tame_ensureInitialized (tame_of _ s fuel) c And.right))
      fun _ _ _ ok => tame_pure fun hp => ⟨(ok hp).1, trivial⟩
  exact ends_of_final ⟨e₁, _, rests, ⟨tame.evolves, fun hp sound => tame.sound ⟨hp, sound⟩⟩,
    refl_of OnlyTraced _⟩

theorem rests_openWith (options : Options) (registry : RegistryRef) :
    e.Rests new ((Scope.openWith options registry).final e) :=
  moves_bind (moves_ofResult _) (fun _ => moves_modifyGet fun _ =>
    .of_classes_eq rfl rfl rfl rfl fun _ => rfl) e

theorem rests_superType (t : TypeRef) :
    e.Rests new ((Scope.superType t : Run (Option TypeRef)).final e) := by
  refine moves_bind (moves_ask _) (fun type => ?_) e
  split
  · exact moves_pure _
  · exact moves_bind (moves_ask _) fun found => moves_bind (moves_modify fun e =>
      e.rests_updateType t fun _ => rfl) fun _ => moves_pure _

/-- Every operation advances the engine, and only a definition adds classes other than generated
ones. -/
theorem Operation.advances (operation : e.Operation e') :
    (∃ fuel s data, e' = (Scope.define fuel s data).final e) ∨
      e.Advances Class.Generated False e' := by
  cases operation with
  | newRegistry | number | addObserver =>
    exact .inr (.of_rests (.of_classes_eq rfl rfl rfl rfl fun _ => rfl))
  | close s => exact .inr (.of_rests (e.rests_updateScope s _))
  | openWith options registry known => exact .inr (.of_rests (rests_openWith options registry))
  | define fuel s data scope_lt => exact .inl ⟨fuel, s, data, rfl⟩
  | load fuel t stamp data type_lt => exact .inr (advances_load fuel t stamp data)
  | superType t => exact .inr (.of_rests (rests_superType t))
  | metadata s typeName => exact .inr (.of_tame (Reflect.tame_metadata And.right s typeName))
  | forget s typeName => exact .inr (.of_tame (Reflect.tame_forget And.right s typeName))
  | searchField s name fuel met pending =>
    exact .inr (.of_tame (Reflect.tame_searchField And.right s name fuel met pending))
  | collectMethods s fuel found met pending =>
    exact .inr (.of_tame (Reflect.tame_collectMethods And.right s fuel found met pending))
  | use fuel s use =>
    exact .inr (.of_tame (use.tame_perform fuel s And.right fun h => h.1.elim))

end Engine

end LiveUpdate
