import LiveUpdate.Proofs.Generating
import LiveUpdate.Proofs.Reloading

/-!
# The books of managed types

The books of a managed type are its versions, its slots and its counts.  Only a reload
writes them, and it does so at the very end: before that it can fail, and then the books
are as they were; after that only the static initializer and the observers can.
-/

set_option autoImplicit false

namespace LiveUpdate

open Exec

/-- A managed type with nothing but its books: not the place of its host class, not what was
found out about its supertype, no static values and no number for generated classes. -/
def ManagedType.books (t : ManagedType) : ManagedType :=
  { t with native := none, superType := none, statics := {}, nextArtifact := 0 }

namespace Engine

/-- The books of all managed types. -/
def books (e : Engine) : Array ManagedType := e.types.map ManagedType.books

variable {e e' : Engine}

theorem getD_books (e : Engine) (t : TypeRef) :
    e.books.getD t (default : ManagedType).books = (e.typeAt t).books :=
  getD_map e.types ManagedType.books t default

theorem size_books (e : Engine) : e.books.size = e.types.size := Array.size_map ..

theorem books_typeAt_of_eq (same : e'.books = e.books) (t : TypeRef) :
    (e'.typeAt t).books = (e.typeAt t).books := by
  rw [← getD_books, ← getD_books, same]

/-- Running code writes no books. -/
theorem books_of_skeleton_eq (same : e'.skeleton = e.skeleton) : e'.books = e.books := by
  have of_skeleton (e : Engine) : e.books = e.skeleton.types.map ManagedType.books := by
    show e.types.map _ = (e.types.map _).map _
    rw [Array.map_map]
    rfl
  rw [of_skeleton, of_skeleton, same]

theorem books_updateType_of_eq (e : Engine) (t : TypeRef) {f : ManagedType → ManagedType}
    (h : ∀ type, (f type).books = type.books) : (e.updateType t f).books = e.books :=
  map_modify_of_eq _ _ _ _ h

/-- A change of a managed type that shows in its books shows in the books of all. -/
theorem books_updateType (e : Engine) (t : TypeRef) {f g : ManagedType → ManagedType}
    (h : ∀ type, (f type).books = g type.books) :
    (e.updateType t f).books = e.books.modify t g := by
  show (e.types.modify t f).map _ = (e.types.map _).modify t g
  apply Array.ext
  · simp
  · intro j hj hj'
    simp only [Array.getElem_map, Array.getElem_modify]
    split
    · exact h _
    · rfl

theorem modify_modify {α : Type} (xs : Array α) (i : Nat) (f g : α → α) :
    (xs.modify i f).modify i g = xs.modify i (g ∘ f) := by
  apply Array.ext
  · simp
  · intro j hj hj'
    simp only [Array.getElem_modify]
    split <;> rfl

end Engine

theorem keepsBooks_of_skeleton {ε α : Type} {x : Exec ε α} (hx : Keeps Engine.skeleton x) :
    Keeps Engine.books x :=
  fun e => Engine.books_of_skeleton_eq (hx e)

theorem keepsBooks_of_obeys {ε α : Type} {x : Exec ε α} {post : α → Prop}
    (hx : ∀ law : Law, Exec.Obeys law.holds x post) : Keeps Engine.books x :=
  keepsBooks_of_skeleton (keeps_of_obeys fun bones => hx (.skeleton bones))

namespace Scope

theorem keepsBooks_defineClass (s : ScopeRef) (spec : ClassSpec) :
    Keeps Engine.books (defineClass s spec) := by
  intro e
  unfold final
  by_cases free : e.class? s spec.unit.name = none
  · rw [defineClass_apply free]
    cases Class.define e.classes.size (e.scopeAt s).nextClassId spec (spec.parent.map e.classAt)
      (spec.interfaces.map e.classAt) <;> rfl
  · rw [defineClass_taken free]

end Scope

namespace ManagedType

theorem keepsBooks_defineArtifacts (t : TypeRef) (native : ClassRef) (u : TypeUnit)
    (shape : TypeShape) : Keeps Engine.books (defineArtifacts t native u shape) := by
  refine keeps_bind (keeps_ask _) fun type => keeps_bind (keeps_modify fun e => ?_) fun _ => ?_
  · exact e.books_updateType_of_eq t fun _ => rfl
  · exact keeps_bind (keeps_modifyGet fun _ => rfl) fun _ => keeps_bind (keeps_ofResult _) fun _ =>
      keeps_bind (Scope.keepsBooks_defineClass _ _) fun _ =>
        keeps_bind (Scope.keepsBooks_defineClass _ _) fun _ => keeps_pure _

theorem keepsBooks_artifactsFor (t : TypeRef) (native : ClassRef) (u : TypeUnit)
    (shape : TypeShape) (digest : Option (List UInt8)) (isLikeFirst : Bool) :
    Keeps Engine.books (artifactsFor t native u shape digest isLikeFirst) := by
  refine keeps_bind (keeps_ask _) fun current => ?_
  split
  · exact keeps_pure _
  · split
    · exact keeps_pure _
    · exact keeps_bind (keepsBooks_defineArtifacts t native u shape) fun _ => keeps_pure _

theorem keepsBooks_rerunStaticInit (fuel : Nat) (t : TypeRef) (native : ClassRef) :
    Keeps Engine.books (rerunStaticInit fuel t native) :=
  keepsBooks_of_obeys fun law => obeys_rerunStaticInit law fuel t native

variable {e : Engine} {t : TypeRef}

theorem ends_record (observer : Observer) (call : ObserverCall) (event : ReloadEvent) :
    e.Ends (record observer call event) (fun _ e' => OnlyTraced e e') fun _ _ => False := by
  unfold record
  cases observer.name with
  | none => exact ⟨e.trace, rfl⟩
  | some name => exact ⟨_, rfl⟩

/-- Asking the observers leaves a trace only, and only an objection of one of them ends the
reload. -/
theorem ends_announce (event : ReloadEvent) (observers : List Observer) :
    e.Ends (announce event observers) (fun _ e' => OnlyTraced e e') fun stop e' =>
      OnlyTraced e e' ∧ ∃ o ∈ observers, ∃ message, o.before event = some message ∧
        stop = .error (.observer event.typeName message) := by
  induction observers generalizing e with
  | nil => exact ⟨e.trace, rfl⟩
  | cons o rest ih =>
    refine Engine.ends_bind_done (ends_record o .before event) fun _ e₁ first => ?_
    cases objection : o.before event with
    | some message =>
      exact Engine.ends_fail ⟨first, o, List.mem_cons_self, message, objection, rfl⟩
    | none =>
      refine ih.weaken (fun _ _ second => first.trans second) fun stop e' late => ?_
      obtain ⟨second, o', mem, rest⟩ := late
      exact ⟨first.trans second, o', List.mem_cons_of_mem _ mem, rest⟩

/-- The question whether the static initializer is to run again is always answered. -/
theorem ends_askRerun (event : ReloadEvent) (observers : List Observer) :
    e.Ends (askRerun event observers) (fun _ e' => e'.books = e.books) fun _ _ => False := by
  induction observers generalizing e with
  | nil => exact Engine.ends_pure rfl
  | cons o rest ih =>
    refine Engine.ends_bind_done (ends_record o .rerun event) fun _ e₁ first => ?_
    obtain ⟨trace, rfl⟩ := first
    exact Engine.ends_bind_done ih fun _ e₂ same => Engine.ends_pure same

/-- Only a complaint of an observer ends the reports about a reload. -/
theorem ends_report (event : ReloadEvent) (observers : List Observer) :
    e.Ends (report event observers) (fun _ e' => e'.books = e.books) fun stop e' =>
      e'.books = e.books ∧ ∃ o ∈ observers, ∃ message, o.after event = some message ∧
        stop = .error (.observer event.typeName message) := by
  induction observers generalizing e with
  | nil => exact Engine.ends_pure rfl
  | cons o rest ih =>
    refine Engine.ends_bind_done (ends_record o .after event) fun _ e₁ first => ?_
    obtain ⟨trace, rfl⟩ := first
    cases complaint : o.after event with
    | some message =>
      exact Engine.ends_fail ⟨rfl, o, List.mem_cons_self, message, complaint, rfl⟩
    | none =>
      refine ih.weaken (fun _ _ same => same) fun stop e' late => ?_
      obtain ⟨same, o', mem, rest⟩ := late
      exact ⟨same, o', List.mem_cons_of_mem _ mem, rest⟩

/-- The classes of a verified version are found or generated, unless a name is taken. -/
theorem ends_artifactsFor (grounded : e.Grounded) (type_lt : t < e.types.size)
    {native : ClassRef} (hosted : (e.typeAt t).native = some native) {u : TypeUnit}
    (verified : u.verify = .ok ()) (digest : Option (List UInt8)) (isLikeFirst : Bool) :
    e.Ends (artifactsFor t native u (.ofUnit u) digest isLikeFirst)
      (fun _ e' => e'.books = e.books) fun _ e' => ¬ e.NamesFree t ∧ e'.books = e.books := by
  have kept : e.Ends (artifactsFor t native u (.ofUnit u) digest isLikeFirst)
      (fun _ e' => e'.books = e.books) fun _ e' => e'.books = e.books :=
    Engine.ends_of_keeps (keepsBooks_artifactsFor t native u _ digest isLikeFirst)
  cases run : artifactsFor t native u (.ofUnit u) digest isLikeFirst e with
  | ok artifacts e' => exact .of_ok run (kept.ok run)
  | error stop e' =>
    refine .of_error run ⟨fun free => ?_, kept.error run⟩
    have generated : e.Ends (artifactsFor t native u (.ofUnit u) digest isLikeFirst)
        (fun _ _ => True) fun _ _ => False := by
      refine Engine.ends_ask_bind ?_
      split
      · exact trivial
      · split
        · exact trivial
        · exact Engine.ends_bind (ends_defineArtifacts grounded type_lt hosted free verified)
            fun _ _ _ => Engine.ends_pure trivial
    exact generated.error run

/-- A version was published for a managed type: it has the next number and an entry for every
slot, and it is the last in the books, which are otherwise as they were but for new slots. -/
structure Publishes (e : Engine) (t : TypeRef) (stamp : String) (v : LiveVersion)
    (e' : Engine) : Prop where
  number : v.number = (e.typeAt t).versions.length
  stamp : v.stamp = stamp
  books : ∃ keys : List MemberKey, (∀ key ∈ keys, key.isStaticInit = false) ∧
    v.dispatch.entries.map Prod.fst =
      ((e.typeAt t).slots.assignAll keys .added).slots.map Slot.key ∧
    e'.books = e.books.modify t fun type =>
      ManagedType.publish { type with slots := (e.typeAt t).slots.assignAll keys .added } v

/-- Why a reload fails although it has published a version: the static initializer that it
runs again fails, or an observer complains. -/
inductive FailsLate (e : Engine) (fuel : Nat) (t : TypeRef) (native : ClassRef)
    (v : LiveVersion) : Stop ReloadError → Engine → Prop
  | staticInit {e₁ e' : Engine} {stop : Stop RunError} (wanted : v.rerun = true)
      (run : rerunStaticInit fuel t native e₁ = .error stop e') :
      FailsLate e fuel t native v (stop.map .run) e'
  | observer {e' : Engine} {o : Observer} {message : String}
      (mem : o ∈ (e.scopeAt (e.typeAt t).scope).observers)
      (complains : o.after ⟨(e.typeAt t).name, native, v.stamp, v.number⟩ = some message) :
      FailsLate e fuel t native v (.error (.observer (e.typeAt t).name message)) e'

/-- After the publication of a version only its static initializer and the observers can make
the reload fail, and neither writes books. -/
theorem ends_finish (e : Engine) (fuel : Nat) (t : TypeRef) (native : ClassRef) (v : LiveVersion)
    (published : Engine) :
    published.Ends (do
        if v.rerun then mapError .run (rerunStaticInit fuel t native)
        report ⟨(e.typeAt t).name, native, v.stamp, v.number⟩
          (e.scopeAt (e.typeAt t).scope).observers : Exec ReloadError Unit)
      (fun _ e' => e'.books = published.books)
      fun stop e' => e'.books = published.books ∧ FailsLate e fuel t native v stop e' := by
  have reported (e₁ : Engine) (books₁ : e₁.books = published.books) :
      e₁.Ends (report ⟨(e.typeAt t).name, native, v.stamp, v.number⟩
          (e.scopeAt (e.typeAt t).scope).observers)
        (fun _ e' => e'.books = published.books)
        fun stop e' => e'.books = published.books ∧ FailsLate e fuel t native v stop e' := by
    refine (ends_report _ _).weaken (fun _ e' same => same.trans books₁) fun stop e' late => ?_
    obtain ⟨same, o, mem, message, complains, rfl⟩ := late
    exact ⟨same.trans books₁, .observer mem complains⟩
  cases wanted : v.rerun with
  | false => exact reported _ rfl
  | true =>
    have ran := Engine.ends_of_keeps (e := published) (keepsBooks_rerunStaticInit fuel t native)
    refine Engine.ends_bind (Engine.ends_mapError ?_) fun _ e₁ books₁ => reported e₁ books₁
    cases run : rerunStaticInit fuel t native published with
    | ok _ e₁ => exact .of_ok run (ran.ok run)
    | error stop e₁ => exact .of_error run ⟨ran.error run, .staticInit wanted run⟩

/-- How a reload of a safe version comes out. -/
theorem ends_install (grounded : e.Grounded) {native : ClassRef} {data : List UInt8} {u : TypeUnit}
    {shape : TypeShape} (reads : Reads e t native data u shape) (fuel : Nat) (stamp : String) :
    e.Ends (install fuel t native stamp data u shape) (fun _ e' => ∃ v, Publishes e t stamp v e')
      fun stop e' => OnlyTraced e e' ∨ (¬ e.NamesFree t ∧ e'.books = e.books) ∨
        ∃ v, Publishes e t stamp v e' ∧ FailsLate e fuel t native v stop e' := by
  obtain rfl := TypeShape.eq_ofUnit reads.shaped
  unfold install
  refine Engine.ends_ask_bind (Engine.ends_ask_bind ?_)
  refine Engine.ends_bind ((ends_announce _ _).weaken (fun _ _ h => h) fun _ _ h => .inl h.1)
    fun _ e₁ held => ?_
  obtain ⟨trace, rfl⟩ := held
  -- From here on a failure is due to a taken name or comes after the publication.
  let asked : Engine := { e with trace }
  have grounded₁ : asked.Grounded :=
    ⟨grounded.registry, grounded.class_lt, grounded.parent_lt, grounded.hosted⟩
  let type := e.typeAt t
  let difference := ShapeDiff.between type.first.shape (.ofUnit u)
  let cumulative := if difference.isEmpty then none else some difference
  let digest := TypeUnit.storedDigest? data
  have found := ends_artifactsFor (e := asked) grounded₁ reads.type_lt reads.hosted reads.verified
    digest cumulative.isNone
  refine Engine.ends_bind (Engine.ends_mapError (found.weaken (fun _ _ h => h)
    fun _ _ h => .inr (.inl ⟨fun free => h.1 ⟨free.contract, free.executor⟩, h.2⟩)))
    fun artifacts e₂ books₂ => ?_
  let keys := ((TypeShape.ofUnit u).methods.filter fun m => !m.isStaticInit).map MethodShape.key
  have enterable : ∀ key ∈ keys, key.isStaticInit = false := by
    intro key mem
    obtain ⟨m, mem', rfl⟩ := List.mem_map.1 mem
    have plain := (List.mem_filter.1 mem').2
    rw [Bool.not_eq_true'] at plain
    exact plain
  let slots := type.slots.assignAll keys .added
  let slotted := e₂.updateType t fun type => { type with slots }
  have books₃ : slotted.books = e.books.modify t fun type => { type with slots } := by
    have changed : slotted.books = e₂.books.modify t fun type => { type with slots } :=
      e₂.books_updateType t fun _ => rfl
    rw [changed, books₂]
    rfl
  refine Engine.ends_modify_bind (Engine.ends_ask_bind ?_)
  refine Engine.ends_bind_done (ends_askRerun _ _) fun wanted e₄ books₄ => ?_
  -- The books have a place for every managed type, so the type is still there.
  have type_lt : t < e₄.types.size := by
    have size : e₄.types.size = e.types.size := by
      rw [← e₄.size_books, books₄, books₃, Array.size_modify, e.size_books]
    rw [size]
    exact reads.type_lt
  let dispatch := DispatchTable.build type.name slots (.ofUnit u) cumulative
    (artifacts.map fun a => slotted.classAt a.executor)
  let delta := ShapeDiff.between type.live.shape (.ofUnit u)
  let rerun := delta.staticInitChanged || wanted
  let v : LiveVersion := {
    number := type.versions.length, stamp, data, digest, unit := u, shape := .ofUnit u,
    delta := some delta, cumulative, artifacts, dispatch, rerun }
  have entries : dispatch.entries.map Prod.fst = slots.slots.map Slot.key := List.map_map ..
  have publishes (e' : Engine) (same : e'.books = (e₄.publish t v).books) :
      Publishes e t stamp v e' := by
    refine ⟨rfl, rfl, keys, enterable, entries, ?_⟩
    have changed : (e₄.updateType t fun type => type.publish v).books =
        e₄.books.modify t fun type => type.publish v := e₄.books_updateType t fun _ => rfl
    rw [same, show (e₄.publish t v).books = _ from changed, books₄, books₃, Engine.modify_modify]
    rfl
  have entered : e₄.Ends (publishVersion t v) (fun _ e' => e' = e₄.publish t v) fun _ _ => False :=
    .of_ok (publishVersion_eq_ok type_lt v) rfl
  refine Engine.ends_bind_done entered fun _ e₅ held => ?_
  obtain rfl := held
  exact (ends_finish e fuel t native v _).weaken (fun _ e' same => ⟨v, publishes e' same⟩)
    fun stop e' late => .inr (.inr ⟨v, publishes e' late.1, late.2⟩)

/-- How a reload comes out: it is refused and only counted, it publishes a version, it fails
with no effect but on the trace, it fails because a name is taken, or it fails late. -/
theorem ends_load (grounded : e.Grounded) (type_lt : t < e.types.size) (fuel : Nat)
    (stamp : String) (data : List UInt8) :
    e.Ends (load fuel t stamp data)
      (fun accepted e' => if accepted then ∃ v, Publishes e t stamp v e'
        else e' = e.updateType t fun type => { type with rejected := type.rejected + 1 })
      fun stop e' => OnlyTraced e e' ∨ (¬ e.NamesFree t ∧ e'.books = e.books) ∨
        ∃ v native, (e.typeAt t).native = some native ∧ Publishes e t stamp v e' ∧
          FailsLate e fuel t native v stop e' := by
  unfold load
  refine Engine.ends_ask_bind (Engine.ends_ask_bind ?_)
  have untouched : OnlyTraced e e := ⟨e.trace, rfl⟩
  cases isOpen : (e.scopeAt (e.typeAt t).scope).isOpen with
  | false => exact Engine.ends_fail (.inl untouched)
  | true =>
  cases hosted : (e.typeAt t).native with
  | none => exact Engine.ends_fail (.inl untouched)
  | some native =>
  refine Engine.ends_ofResult_bind (fun read readable => ?_) fun error _ => .inl untouched
  obtain ⟨u, shape⟩ := read
  obtain ⟨decoded, shaped, verified, named⟩ := readVersion_eq_ok readable
  refine Engine.ends_ask_bind ?_
  cases unsafe_ : (e.scopeAt (e.typeAt t).scope).options.verifyReloads &&
      !(ShapeDiff.between (e.typeAt t).first.shape shape).isSafe (e.inheritedVtable native) with
  | true => exact Engine.ends_modify_bind (Engine.ends_pure rfl)
  | false =>
    have reads : Reads e t native data u shape := {
      type_lt, hosted, decoded, verified, shaped, named
      safe := fun verifies => by
        have verifies : (e.scopeAt (e.typeAt t).scope).options.verifyReloads = true := verifies
        rw [verifies] at unsafe_
        simpa using unsafe_ }
    refine Engine.ends_bind ((ends_install grounded reads fuel stamp).weaken (fun _ _ h => h)
      fun stop e' h => h.imp_right fun h => h.imp_right ?_) fun _ e' published =>
        Engine.ends_pure published
    rintro ⟨v, publishes, late⟩
    exact ⟨v, native, rfl, publishes, late⟩

end ManagedType

end LiveUpdate
