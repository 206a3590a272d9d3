import LiveUpdate.Proofs.Facing
import LiveUpdate.Proofs.Observing
import LiveUpdate.Proofs.Turns

/-!
# Reloads with the same bytes

A version is made from bytes, from the first version and from the slots of its type.  The version
in force would come out the same if it were made again: its classes serve again, no member gets a
new slot, and its table is the one that would be built.  So a reload with its bytes publishes a
version that code cannot tell from it, and leaves the face of the engine as it is.
-/

set_option autoImplicit false

namespace LiveUpdate

open Exec

/-- No static initializer ran when the version was published. -/
def LiveVersion.Idle (v : LiveVersion) : Prop :=
  v.rerun = true → v.shape.staticInitializer? = none

namespace SlotTable

/-- Members that have slots are given none. -/
theorem assignAll_eq_self {t : SlotTable} {keys : List MemberKey} (origin : SlotOrigin)
    (known : ∀ key ∈ keys, (t.slotOf? key).isSome) : t.assignAll keys origin = t := by
  refine assignAll_induction (motive := (· = t)) rfl fun t' key mem before => ?_
  subst before
  exact if_pos (known key mem)

end SlotTable

namespace Engine

variable {e e' : Engine} {t : TypeRef}

/-- The table of the first version is over slots that the type still has, and of these a later
version has added none. -/
def Rooted (e : Engine) (t : TypeRef) : Prop :=
  ∃ slots : SlotTable, slots.slots <+: (e.typeAt t).slots.slots ∧
    (e.typeAt t).first.dispatch = .allHost slots ∧ ∀ slot ∈ slots.slots, slot.origin ≠ .added

theorem Manages.rooted {s : ScopeRef} {form : HostForm} {parent : Option ClassRef}
    {interfaces : List ClassRef}
    (manages : e.Manages s (e'.typeAt t) form parent interfaces) : e'.Rooted t := by
  have defines := manages.defines
  obtain ⟨names, -, -, same⟩ := manages.hosted
  refine ⟨form.slots, ?_, congrArg (fun type => type.first.dispatch) defines, ?_⟩
  · rw [defines]
    exact List.prefix_refl _
  · rw [same]
    exact HostForm.origin_ne_added _ _ _

theorem Rooted.of_grows (rooted : e.Rooted t) (grows : e.Grows e')
    (type_lt : t < e.types.size) : e'.Rooted t := by
  obtain ⟨slots, grown, first, own⟩ := rooted
  have kept := grows.typeAt t type_lt
  exact ⟨slots, grown.trans kept.slots, kept.first ▸ first, own⟩

/-- A managed type is rooted from its definition on. -/
theorem Edits.rooted (edits : e.Edits e') (before : ∀ t, e.IsManaged t → e.Rooted t) :
    ∀ t, e'.IsManaged t → e'.Rooted t := by
  induction edits with
  | refl => exact before
  | tail _ edit ih =>
    intro t managed
    rcases edit.versions managed.1 managed.2 with ⟨old, -⟩ | ⟨v, offers, rfl⟩ |
        ⟨-, s, form, parent, interfaces, manages⟩
    · have hosted := (edit.grows.typeAt t old).native ▸ managed.2
      exact (ih t ⟨old, hosted⟩).of_grows edit.grows old
    · exact (ih t ⟨offers.type_lt, offers.hosted⟩).of_grows edit.grows offers.type_lt
    · exact manages.rooted

theorem Reachable.rooted (reachable : e.Reachable) (managed : e.IsManaged t) : e.Rooted t :=
  Edits.rooted reachable.edits.1 (fun t managed => by cases managed.1) t managed

/-- What a managed type would have of its version in force if it were built again. -/
structure Rebuilds (e : Engine) (t : TypeRef) (v : LiveVersion) : Prop where
  decoded : TypeUnit.decode v.data = .ok v.unit
  shaped : TypeShape.extract v.unit = .ok v.shape
  digest : v.digest = TypeUnit.storedDigest? v.data
  cumulative : v.cumulative = ShapeDiff.cumulative (e.typeAt t).first.shape v.shape
  generated : v.artifacts.isSome = v.cumulative.isSome
  covered : ∀ m ∈ v.shape.methods, m.isStaticInit = false →
    ((e.typeAt t).slots.slotOf? m.key).isSome
  dispatch : v.dispatch = DispatchTable.build (e.typeAt t).name (e.typeAt t).slots v.shape
    v.cumulative (v.artifacts.map fun a => e.classAt a.executor)

/-- The table over slots that a type had once is over those that it has now if there are entries
for all of them. -/
theorem slots_eq_of_covered {slots : SlotTable} {entry : Slot → DispatchEntry}
    (grown : slots.slots <+: (e.typeAt t).slots.slots) (balanced : (e.typeAt t).Balanced)
    (dispatch : (e.typeAt t).live.dispatch = ⟨slots.slots.map fun s => (s.key, entry s)⟩) :
    slots = (e.typeAt t).slots := by
  have lengths := congrArg List.length balanced.covered
  rw [dispatch] at lengths
  simp only [List.length_map] at lengths
  exact congrArg SlotTable.mk (grown.eq_of_length lengths)

/-- A version that was published is as it would be built again. -/
theorem Recorded.rebuilds (recorded : e.Recorded t (e.typeAt t).live)
    (balanced : (e.typeAt t).Balanced) : e.Rebuilds t (e.typeAt t).live := by
  obtain ⟨slots, grown, covered, dispatch⟩ := recorded.dispatch
  obtain rfl := slots_eq_of_covered grown balanced dispatch
  refine ⟨recorded.decoded, recorded.shaped, recorded.digest, recorded.cumulative,
    recorded.generated, covered, ?_⟩
  rw [dispatch, ← DispatchTable.build_skeleton _ _ _ _
    ((e.typeAt t).live.artifacts.map fun a => e.classAt a.executor), Option.map_map]
  rfl

/-- So is the first version, unless it has methods without a body. -/
theorem Chronicled.rebuilds_first (chronicled : e.Chronicled t) (rooted : e.Rooted t)
    (balanced : (e.typeAt t).Balanced) (isFirst : (e.typeAt t).live = (e.typeAt t).first)
    (concrete : ∀ m ∈ (e.typeAt t).first.shape.methods, m.isAbstract = false) :
    e.Rebuilds t (e.typeAt t).live := by
  obtain ⟨slots, grown, dispatch, own⟩ := rooted
  obtain rfl := slots_eq_of_covered grown balanced (isFirst ▸ dispatch)
  have simple := chronicled.simple_live
  obtain ⟨_, -, made⟩ := chronicled.first
  have cumulative : (e.typeAt t).first.cumulative = none := congrArg LiveVersion.cumulative made
  have artifacts : (e.typeAt t).first.artifacts = none := congrArg LiveVersion.artifacts made
  rw [isFirst] at simple ⊢
  refine ⟨chronicled.decoded, chronicled.shaped, congrArg LiveVersion.digest made, ?_, ?_, ?_, ?_⟩
  · rw [cumulative, ShapeDiff.cumulative_of_isEmpty (ShapeDiff.isEmpty_between_self simple)]
  · rw [cumulative, artifacts]
    rfl
  · intro m mem plain
    rw [TypeShape.eq_ofUnit chronicled.shaped] at mem
    obtain ⟨source, declared, rfl⟩ := List.mem_map.1 mem
    exact balanced.serves.covered _ (List.mem_map_of_mem declared) plain
  · rw [dispatch, cumulative, artifacts]
    refine congrArg DispatchTable.mk (List.map_congr_left fun slot mem => ?_)
    have origin := chronicled.origin_iff balanced mem
    unfold DispatchTable.entryFor
    cases declared : (e.typeAt t).first.shape.method? slot.key with
    | some m =>
      rw [declared] at origin
      have bodied := concrete m (List.mem_of_find?_eq_some declared)
      simp [bodied, origin.2 rfl, DispatchTable.isUnchanged]
    | none =>
      rw [declared] at origin
      cases made : slot.origin with
      | declared => cases origin.1 made
      | catcher => rfl
      | added => exact absurd made (own slot mem)

/-- The type was reloaded before, or every method that it was defined with has a body. -/
def Rebuildable (e : Engine) (t : TypeRef) : Prop :=
  (e.typeAt t).published.isSome ∨ ∀ m ∈ (e.typeAt t).first.shape.methods, m.isAbstract = false

theorem Reachable.rebuilds (reachable : e.Reachable) (managed : e.IsManaged t)
    (rebuildable : e.Rebuildable t) : e.Rebuilds t (e.typeAt t).live := by
  have chronicled := reachable.chronicled managed
  have balanced := reachable.balanced t managed.1
  rcases chronicled.live_cases with ⟨unpublished, isFirst⟩ | ⟨-, recorded⟩
  · rcases rebuildable with published | concrete
    · rw [unpublished] at published
      cases published
    · exact chronicled.rebuilds_first (reachable.rooted managed) balanced isFirst concrete
  · exact recorded.rebuilds balanced

/-! ### The reload -/

/-- An array shows nothing of a change that the entry does not show. -/
theorem map_modify_of_at {α β : Type} (xs : Array α) (view : α → β) (i : Nat) (f : α → α) (d : α)
    (h : view (f (xs.getD i d)) = view (xs.getD i d)) : (xs.modify i f).map view = xs.map view := by
  apply Array.ext
  · simp
  · intro j hj hj'
    simp only [Array.getElem_map, Array.getElem_modify]
    split
    next here =>
      subst here
      have lt : i < xs.size := by simpa using hj'
      simpa [Array.getD_eq_getD_getElem?, lt] using h
    next => rfl

theorem updateType_eq_self {f : ManagedType → ManagedType} (h : f (e.typeAt t) = e.typeAt t) :
    e.updateType t f = e := by
  have types := map_modify_of_at e.types id t f default h
  rw [Array.map_id, Array.map_id] at types
  unfold updateType
  rw [types]

/-- The publication of a version that has the face of the one in force does not show. -/
theorem resembles_publish {v : LiveVersion} (same : v.face = (e.typeAt t).live.face)
    (reloaded : (e.scopeAt (e.typeAt t).scope).epoch ≠ 0) : e.Resembles (e.publish t v) := by
  have types : (e.types.modify t fun type => type.publish v).map ManagedType.face =
      e.types.map ManagedType.face := by
    refine map_modify_of_at _ _ _ _ default ?_
    show ({ (e.typeAt t).face with published := some v.face } : ManagedType) = (e.typeAt t).face
    rw [same]
    rfl
  have scopes : (e.scopes.modify (e.typeAt t).scope fun scope =>
      { scope with
        epoch := scope.epoch + 1
        routes := []
        metadata := scope.metadata.erase (e.typeAt t).name }).map Scope.face =
      e.scopes.map Scope.face := by
    refine map_modify_of_at _ _ _ _ default ?_
    show ({ (e.scopeAt (e.typeAt t).scope).face with
      epoch := min ((e.scopeAt (e.typeAt t).scope).epoch + 1) 1 } : Scope) =
        (e.scopeAt (e.typeAt t).scope).face
    have epochs : min ((e.scopeAt (e.typeAt t).scope).epoch + 1) 1 =
        min (e.scopeAt (e.typeAt t).scope).epoch 1 := by omega
    rw [epochs]
    rfl
  exact congrArg₂ (fun types scopes => ({ e.face with types, scopes } : Engine)) types scopes

end Engine

namespace ManagedType

variable {e : Engine} {t : TypeRef} {native : ClassRef}

/-- The classes of the version in force serve another version with its bytes. -/
theorem artifactsFor_again {v : LiveVersion} (live : (e.typeAt t).live = v)
    (rebuilds : e.Rebuilds t v) :
    artifactsFor t native v.unit v.shape (TypeUnit.storedDigest? v.data) v.cumulative.isNone e =
      .ok v.artifacts e := by
  have stored : (TypeUnit.storedDigest? v.data).isSome := by
    rw [(TypeUnit.decode_eq_ok rebuilds.decoded).2]
    rfl
  have generated := rebuilds.generated
  unfold artifactsFor
  rw [bind_apply, ask_apply]
  dsimp only
  rw [live, rebuilds.digest]
  cases made : v.artifacts with
  | none =>
    rw [made] at generated
    rw [Option.isSome_eq_false_iff.1 generated.symm]
    rfl
  | some a =>
    rw [made] at generated
    obtain ⟨d, some_d⟩ := Option.isSome_iff_exists.1 generated.symm
    rw [some_d, stored]
    simp
    rfl

/-- Reports about a reload leave a trace only. -/
theorem ends_report_traced (event : ReloadEvent) (observers : List Observer) :
    e.Ends (report event observers) (fun _ e' => OnlyTraced e e') fun _ _ => True := by
  rw [report_eq_callInTurn]
  exact (ends_callInTurn _ _ _ _).weaken (fun _ _ reported => ⟨_, reported.2⟩) fun _ _ _ => True.intro

/-- Behind a publication that runs no static initializer there are only reports. -/
theorem ends_finish_idle {v : LiveVersion} (live : (e.typeAt t).live = v) (fuel : Nat)
    (event : ReloadEvent) (observers : List Observer) :
    e.Ends (do
        if v.rerun then mapError .run (rerunStaticInit fuel t native)
        report event observers : Exec ReloadError Unit)
      (fun _ e' => (e'.typeAt t).live.Idle → OnlyTraced e e') fun _ _ => True := by
  have reported : e.Ends (report event observers) (fun _ e' => OnlyTraced e e') fun _ _ => True :=
    ends_report_traced event observers
  cases wanted : v.rerun with
  | false => exact reported.weaken (fun _ _ traced _ => traced) fun _ _ _ => True.intro
  | true =>
    cases init : v.shape.staticInitializer? with
    | none =>
      have nothing : rerunStaticInit fuel t native e = .ok () e := by
        unfold rerunStaticInit
        rw [bind_apply, ask_apply]
        dsimp only
        rw [live, init]
        rfl
      have ran : e.Ends (mapError ReloadError.run (rerunStaticInit fuel t native))
          (fun _ e' => e' = e) fun _ _ => False :=
        Engine.ends_mapError (.of_ok nothing rfl)
      refine Engine.ends_bind_done ran fun _ e₁ same => ?_
      subst same
      exact reported.weaken (fun _ _ traced _ => traced) fun _ _ _ => True.intro
    | some _ =>
      have books : Keeps Engine.books (do
          mapError .run (rerunStaticInit fuel t native)
          report event observers : Exec ReloadError Unit) :=
        keeps_bind (keeps_mapError _ (keepsBooks_rerunStaticInit fuel t native)) fun _ e =>
          ((ends_report event observers).weaken (fun _ _ same => same) fun _ _ late => late.1).final
      refine (Engine.ends_of_keeps books).weaken (fun _ e' same idle => ?_) fun _ _ _ => True.intro
      have kept : (e'.typeAt t).books.live = (e.typeAt t).books.live := by
        rw [Engine.books_typeAt_of_eq same t]
      have kept : (e'.typeAt t).live = (e.typeAt t).live := kept
      rw [kept, live] at idle
      cases init.symm.trans (idle wanted)

/-- The publication of a version with the face of the one in force does not show, if it runs no
static initializer. -/
theorem ends_publish_idle {w : LiveVersion} (face : w.face = (e.typeAt t).live.face)
    (type_lt : t < e.types.size) (reloaded : (e.scopeAt (e.typeAt t).scope).epoch ≠ 0) (fuel : Nat)
    (event : ReloadEvent) (observers : List Observer) :
    e.Ends (do
        publishVersion t w
        if w.rerun then mapError .run (rerunStaticInit fuel t native)
        report event observers : Exec ReloadError Unit)
      (fun _ e' => (e'.typeAt t).live.Idle → e.Resembles e') fun _ _ => True := by
  have entered : e.Ends (publishVersion t w) (fun _ e' => e' = e.publish t w) fun _ _ => False :=
    .of_ok (publishVersion_eq_ok type_lt w) rfl
  refine Engine.ends_bind_done entered fun _ e₁ held => ?_
  subst held
  have live := e.live_publish w type_lt
  have published := Engine.resembles_publish face reloaded
  refine (ends_finish_idle live fuel event observers).weaken (fun _ e' finished idle => ?_)
    fun _ _ _ => True.intro
  obtain ⟨trace, rfl⟩ := finished idle
  exact published

/-- A reload with the bytes of the version in force publishes a version with the same face. -/
theorem ends_install_again {v : LiveVersion} (live : (e.typeAt t).live = v)
    (rebuilds : e.Rebuilds t v) (type_lt : t < e.types.size)
    (reloaded : (e.scopeAt (e.typeAt t).scope).epoch ≠ 0) (fuel : Nat) (stamp : String) :
    e.Ends (install fuel t native stamp v.data v.unit v.shape)
      (fun _ e' => (e'.typeAt t).live.Idle → e.Resembles e') fun _ _ => True := by
  unfold install
  refine Engine.ends_ask_bind (Engine.ends_ask_bind ?_)
  refine Engine.ends_bind ((ends_announce _ _).weaken (fun _ _ h => h) fun _ _ _ => True.intro)
    fun _ e₁ held => ?_
  obtain ⟨trace, rfl⟩ := held
  let asked : Engine := { e with trace }
  have rebuilds₁ : asked.Rebuilds t v := { rebuilds with }
  show asked.Ends (mapError ReloadError.run (artifactsFor t native v.unit v.shape
    (TypeUnit.storedDigest? v.data)
    (ShapeDiff.cumulative (e.typeAt t).first.shape v.shape).isNone) >>= _) _ _
  rw [← rebuilds.cumulative]
  have found : asked.Ends (mapError ReloadError.run (artifactsFor t native v.unit v.shape
      (TypeUnit.storedDigest? v.data) v.cumulative.isNone))
      (fun artifacts e' => artifacts = v.artifacts ∧ e' = asked) fun _ _ => False :=
    Engine.ends_mapError (.of_ok (artifactsFor_again live rebuilds₁) ⟨rfl, rfl⟩)
  refine Engine.ends_bind_done found fun artifacts e₂ held => ?_
  obtain ⟨rfl, rfl⟩ := held
  refine Engine.ends_modify_bind ?_
  have slots : (e.typeAt t).slots.assignAll
      ((v.shape.methods.filter fun m => !m.isStaticInit).map MethodShape.key) .added =
        (e.typeAt t).slots := by
    refine SlotTable.assignAll_eq_self _ fun key mem => ?_
    obtain ⟨m, listed, rfl⟩ := List.mem_map.1 mem
    obtain ⟨mem, plain⟩ := List.mem_filter.1 listed
    exact rebuilds.covered m mem (by simpa using plain)
  rw [slots, Engine.updateType_eq_self (e := asked) rfl]
  refine Engine.ends_ask_bind ?_
  let event : ReloadEvent := ⟨(e.typeAt t).name, native, stamp, (e.typeAt t).versions.length⟩
  have asking : asked.Ends (askRerun event (e.scopeAt (e.typeAt t).scope).observers)
      (fun _ e' => OnlyTraced e e') fun _ _ => False :=
    .of_ok (askRerun_apply _ _ _) ⟨_, rfl⟩
  refine Engine.ends_bind_done asking fun wanted e₄ held => ?_
  obtain ⟨trace', rfl⟩ := held
  let told : Engine := { e with trace := trace' }
  let delta := ShapeDiff.between (e.typeAt t).live.shape v.shape
  let cumulative := ShapeDiff.cumulative (e.typeAt t).first.shape v.shape
  let dispatch := DispatchTable.build (e.typeAt t).name (e.typeAt t).slots v.shape cumulative
    (v.artifacts.map fun a => e.classAt a.executor)
  let w : LiveVersion := {
    number := (e.typeAt t).versions.length, stamp, data := v.data
    digest := TypeUnit.storedDigest? v.data, unit := v.unit, shape := v.shape
    delta := some delta, cumulative, artifacts := v.artifacts, dispatch
    rerun := delta.staticInitChanged || wanted }
  have face : w.face = v.face := by
    have table : dispatch = v.dispatch := by
      rw [rebuilds.dispatch, rebuilds.cumulative]
    show ({ v.face with
      digest := TypeUnit.storedDigest? v.data, cumulative, dispatch } : LiveVersion) = v.face
    rw [table, ← rebuilds.digest, show cumulative = v.cumulative from rebuilds.cumulative.symm]
    rfl
  exact ends_publish_idle (e := told) (face.trans (congrArg LiveVersion.face live.symm)) type_lt
    reloaded fuel event _

theorem ends_load_again (rebuilds : e.Rebuilds t (e.typeAt t).live) (type_lt : t < e.types.size)
    (reloaded : (e.scopeAt (e.typeAt t).scope).epoch ≠ 0) (fuel : Nat) (stamp : String) :
    e.Ends (load fuel t stamp (e.typeAt t).live.data)
      (fun accepted e' => accepted = true → (e'.typeAt t).live.Idle → e.Resembles e')
      fun _ _ => True := by
  unfold load
  refine Engine.ends_ask_bind (Engine.ends_ask_bind ?_)
  cases (e.scopeAt (e.typeAt t).scope).isOpen with
  | false => exact Engine.ends_fail True.intro
  | true =>
  cases (e.typeAt t).native with
  | none => exact Engine.ends_fail True.intro
  | some native =>
  refine Engine.ends_ofResult_bind (fun read readable => ?_) fun _ _ => True.intro
  obtain ⟨u, shape⟩ := read
  obtain ⟨decoded, shaped, -, -⟩ := readVersion_eq_ok readable
  obtain rfl : (e.typeAt t).live.unit = u := Except.ok.inj (rebuilds.decoded.symm.trans decoded)
  obtain rfl : (e.typeAt t).live.shape = shape := Except.ok.inj (rebuilds.shaped.symm.trans shaped)
  refine Engine.ends_ask_bind ?_
  split
  · exact Engine.ends_modify_bind (Engine.ends_pure fun refused => Bool.noConfusion refused)
  · exact Engine.ends_bind (ends_install_again rfl rebuilds type_lt reloaded fuel stamp)
      fun _ _ same => Engine.ends_pure fun _ => same

end ManagedType

end LiveUpdate
