import LiveUpdate.Proofs.Bookkeeping
import LiveUpdate.Proofs.Evolution
import Mathlib.Order.Defs.Unbundled

/-!
# While nothing runs

Defining a class and publishing a version do not run any code by themselves.  They leave the
heap as it is and the classes as they are, and the classes that they add are untouched.  A
definition runs code only after the class is there, and a reload only after the version is
published.
-/

set_option autoImplicit false

namespace LiveUpdate

namespace Exec

variable {ε δ α β : Type} {R : Engine → Engine → Prop} {x : Exec ε α}

/-- A computation takes every engine to one that stands in a relation to it. -/
def Moves (R : Engine → Engine → Prop) (x : Exec ε α) : Prop := ∀ e, R e (x.final e)

theorem moves_modify {f : Engine → Engine} (h : ∀ e, R e (f e)) :
    Moves R (modify f : Exec ε Unit) := h

theorem moves_modifyGet {f : Engine → α × Engine} (h : ∀ e, R e (f e).2) :
    Moves R (modifyGet f : Exec ε α) := h

theorem moves_mapError {f : ε → δ} (hx : Moves R x) : Moves R (mapError f x) := by
  intro e
  have moved := hx e
  unfold final at moved ⊢
  rw [mapError_apply]
  cases run : x e <;> rw [run] at moved <;> exact moved

theorem Moves.mono {S : Engine → Engine → Prop} (hx : Moves R x) (h : ∀ e e', R e e' → S e e') :
    Moves S x := fun e => h e _ (hx e)

/-- What a computation does to every engine it does to this one, however it comes out. -/
theorem Moves.ends (hx : Moves R x) (e : Engine) :
    e.Ends x (fun _ e' => R e e') fun _ e' => R e e' :=
  Engine.ends_of_final (hx e)

section Preorder

variable [IsPreorder Engine R]

/-- A computation that keeps the engine stands still in every relation. -/
theorem moves_of_keeps (hx : Keeps id x) : Moves R x := by
  intro e
  have same : x.final e = e := hx e
  rw [same]
  exact refl_of R e

theorem moves_pure (a : α) : Moves R (pure a : Exec ε α) := moves_of_keeps (keeps_pure a)

theorem moves_fail (error : ε) : Moves R (fail error : Exec ε α) :=
  moves_of_keeps (keeps_fail error)

theorem moves_ask (f : Engine → α) : Moves R (ask f : Exec ε α) := moves_of_keeps (keeps_ask f)

theorem moves_ofResult (y : Except ε α) : Moves R (ofResult y) :=
  moves_of_keeps (keeps_ofResult y)

theorem moves_bind {f : α → Exec ε β} (hx : Moves R x) (hf : ∀ a, Moves R (f a)) :
    Moves R (x >>= f) := by
  intro e
  have first := hx e
  unfold final at first ⊢
  rw [bind_apply]
  cases run : x e with
  | ok a e' =>
    rw [run] at first
    exact trans_of R first (hf a e')
  | error stop e' =>
    rw [run] at first
    exact first

/-- What comes after a change may rely on how its answer was made. -/
theorem moves_modifyGet_bind {g : Engine → α × Engine} {f : α → Exec ε β}
    (h : ∀ e, R e (g e).2) (hf : ∀ e, Moves R (f (g e).1)) :
    Moves R (modifyGet g >>= f) := fun e =>
  trans_of R (h e) (hf e (g e).2)

theorem moves_tryCatch {handle : Stop ε → Exec ε α} (hx : Moves R x)
    (h : ∀ stop, Moves R (handle stop)) : Moves R (tryCatch x handle) := by
  intro e
  have first := hx e
  unfold final at first ⊢
  rw [tryCatch_apply]
  cases run : x e with
  | ok a e' =>
    rw [run] at first
    exact first
  | error stop e' =>
    rw [run] at first
    exact trans_of R first (h stop e')

end Preorder

end Exec

namespace Class

/-- A class of which no code has run. -/
structure Untouched (c : Class) : Prop where
  pending : c.init = .pending
  zeros : c.statics = c.staticFields.map fun slot => .zeroOf slot.sig

/-- A class that is generated for a version: nothing extends it. -/
structure Generated (c : Class) : Prop extends Untouched c where
  unmanaged : c.managed = none
  unextended : c.unit.modifiers.isInterface = true ∨ c.unit.modifiers.isFinal = true

theorem untouched_fresh (place : ClassRef) (id : Nat) (spec : ClassSpec) (parent : Option Class)
    (interfaces : List Class) : (fresh place id spec parent interfaces).Untouched := ⟨rfl, rfl⟩

end Class

namespace Engine

variable {e e' e'' : Engine}

/-- The heap and the classes are as they were, and the classes that were added are `new`. -/
structure Rests (new : Class → Prop) (e e' : Engine) : Prop where
  objects : e'.objects = e.objects
  arrays : e'.arrays = e.arrays
  depth : e'.depth = e.depth
  classes : e.classes.size ≤ e'.classes.size
  classAt : ∀ c < e.classes.size, e'.classAt c = e.classAt c
  added : ∀ c < e'.classes.size, e.classes.size ≤ c → new (e'.classAt c)
  statics : ∀ t, (e'.typeAt t).statics = (e.typeAt t).statics

/-- A managed type may have another version.  Everything else is as it was, but for generated
classes and for what scopes count and remember. -/
structure Reloads (t : TypeRef) (e e' : Engine) : Prop extends Rests Class.Generated e e' where
  types : e'.types.size = e.types.size
  others : ∀ u, u ≠ t → e'.typeAt u = e.typeAt u
  registered : ∀ s id, e'.typeWithId? s id = e.typeWithId? s id
  scopes : e'.scopes.size = e.scopes.size

section Preorder

variable {new : Class → Prop} {t : TypeRef}

theorem Rests.of_classes_eq (objects : e'.objects = e.objects) (arrays : e'.arrays = e.arrays)
    (depth : e'.depth = e.depth) (classes : e'.classes = e.classes)
    (statics : ∀ t, (e'.typeAt t).statics = (e.typeAt t).statics) : e.Rests new e' where
  objects := objects
  arrays := arrays
  depth := depth
  classes := Nat.le_of_eq (congrArg Array.size classes.symm)
  classAt c _ := by
    unfold Engine.classAt
    rw [classes]
  added c lt fresh := absurd (classes ▸ lt) (Nat.not_lt_of_le fresh)
  statics := statics

theorem Rests.refl (e : Engine) : e.Rests new e := .of_classes_eq rfl rfl rfl rfl fun _ => rfl

theorem Rests.trans (first : e.Rests new e') (second : e'.Rests new e'') : e.Rests new e'' where
  objects := second.objects.trans first.objects
  arrays := second.arrays.trans first.arrays
  depth := second.depth.trans first.depth
  classes := Nat.le_trans first.classes second.classes
  classAt c lt := (second.classAt c (Nat.lt_of_lt_of_le lt first.classes)).trans
    (first.classAt c lt)
  added c lt fresh := by
    by_cases before : c < e'.classes.size
    · rw [second.classAt c before]
      exact first.added c before fresh
    · exact second.added c lt (Nat.le_of_not_lt before)
  statics t := (second.statics t).trans (first.statics t)

theorem Rests.mono {new' : Class → Prop} (rests : e.Rests new e') (h : ∀ c, new c → new' c) :
    e.Rests new' e' :=
  { rests with added := fun c lt fresh => h _ (rests.added c lt fresh) }

instance : IsPreorder Engine (Rests new) where
  refl := Rests.refl
  trans _ _ _ := Rests.trans

theorem Rests.objectAt (rests : e.Rests new e') (o : ObjectRef) : e'.objectAt o = e.objectAt o := by
  unfold Engine.objectAt
  rw [rests.objects]

theorem Rests.classOf (rests : e.Rests new e') {o : ObjectRef}
    (lt : (e.objectAt o).cls < e.classes.size) : e'.classOf o = e.classOf o := by
  unfold Engine.classOf
  rw [rests.objectAt, rests.classAt _ lt]

/-- Values have the types that they had. -/
theorem Rests.conforms (rests : e.Rests new e') {v : Value}
    (lt : ∀ o, v = .object o → (e.objectAt o).cls < e.classes.size) (sig : TypeSig) :
    v.conforms e' sig = v.conforms e sig := by
  cases v with
  | object o =>
    cases sig with
    | ref name => exact congrArg (·.isSubtypeOf name) (rests.classOf (lt o rfl))
    | _ => rfl
  | array a =>
    have cell : e'.arrayAt a = e.arrayAt a := by
      unfold arrayAt
      rw [rests.arrays]
    cases sig with
    | array declared => exact congrArg (·.element.elementConforms declared) cell
    | _ => rfl
  | _ => cases sig <;> rfl

theorem Reloads.refl (e : Engine) : e.Reloads t e :=
  { Rests.refl e with
    types := rfl
    others := fun _ _ => rfl
    registered := fun _ _ => rfl
    scopes := rfl }

theorem Reloads.trans (first : e.Reloads t e') (second : e'.Reloads t e'') : e.Reloads t e'' :=
  { first.toRests.trans second.toRests with
    types := second.types.trans first.types
    others := fun u other => (second.others u other).trans (first.others u other)
    registered := fun s id => (second.registered s id).trans (first.registered s id)
    scopes := second.scopes.trans first.scopes }

instance : IsPreorder Engine (Reloads t) where
  refl := Reloads.refl
  trans _ _ _ := Reloads.trans

end Preorder

section Steps

variable (e) {new : Class → Prop} {t : TypeRef}

/-- A class that is pushed is new if it may be. -/
theorem rests_pushClass {cls : Class} (isNew : new cls) :
    e.Rests new { e with classes := e.classes.push cls } where
  objects := rfl
  arrays := rfl
  depth := rfl
  classes := by simp
  classAt c lt := classAt_push_of_lt cls lt
  added c lt fresh := by
    have lt : c < e.classes.size + 1 := by simpa using lt
    obtain rfl : c = e.classes.size := by omega
    have pushed : ({ e with classes := e.classes.push cls } : Engine).classAt e.classes.size =
        cls := by simp [Engine.classAt]
    rw [pushed]
    exact isNew
  statics _ := rfl

/-- A type that is pushed has no static values. -/
theorem rests_pushType {type : ManagedType} (unset : type.statics = {}) :
    e.Rests new { e with types := e.types.push type } := by
  refine .of_classes_eq rfl rfl rfl rfl fun t => ?_
  rw [typeAt_push]
  split
  next last =>
    have beyond : e.typeAt t = default := getD_of_le _ _ (Nat.le_of_eq last.symm)
    rw [beyond, unset]
    rfl
  next => rfl

theorem rests_updateType (t : TypeRef) {f : ManagedType → ManagedType}
    (statics : ∀ type, (f type).statics = type.statics) : e.Rests new (e.updateType t f) := by
  refine .of_classes_eq rfl rfl rfl rfl fun u => ?_
  have at_ : (e.updateType t f).typeAt u =
      if t = u ∧ u < e.types.size then f (e.typeAt u) else e.typeAt u :=
    getD_modify_or _ _ _ _ _
  rw [at_]
  split
  · exact statics _
  · rfl

theorem rests_updateScope (s : ScopeRef) (f : Scope → Scope) : e.Rests new (e.updateScope s f) :=
  .of_classes_eq rfl rfl rfl rfl fun _ => rfl

theorem reloads_updateType {f : ManagedType → ManagedType}
    (statics : ∀ type, (f type).statics = type.statics) : e.Reloads t (e.updateType t f) :=
  { e.rests_updateType t statics with
    types := by simp [updateType]
    others := fun u other => by
      have at_ : (e.updateType t f).typeAt u =
          if t = u ∧ u < e.types.size then f (e.typeAt u) else e.typeAt u :=
        getD_modify_or _ _ _ _ _
      rw [at_, if_neg fun here => other here.1.symm]
    registered := fun _ _ => rfl
    scopes := rfl }

theorem reloads_updateScope (s : ScopeRef) {f : Scope → Scope}
    (types : ∀ scope, (f scope).types = scope.types) : e.Reloads t (e.updateScope s f) :=
  { e.rests_updateScope s f with
    types := rfl
    others := fun _ _ => rfl
    registered := fun s' id => typeWithId?_updateScope e s f types s' id
    scopes := by simp [updateScope] }

theorem rests_setNames (s : ScopeRef) (names : NameTable) : e.Rests new (e.setNames s names) :=
  .of_classes_eq rfl rfl rfl rfl fun _ => rfl

theorem reloads_setNames (s : ScopeRef) (names : NameTable) : e.Reloads t (e.setNames s names) :=
  { e.rests_setNames s names with
    types := rfl
    others := fun _ _ => rfl
    registered := fun _ _ => rfl
    scopes := rfl }

theorem reloads_trace (trace : List Callback) : e.Reloads t { e with trace } :=
  { Rests.of_classes_eq rfl rfl rfl rfl fun _ => rfl with
    types := rfl
    others := fun _ _ => rfl
    registered := fun _ _ => rfl
    scopes := rfl }

theorem reloads_addClass (s : ScopeRef) {cls : Class} (generated : cls.Generated) :
    e.Reloads t (e.addClass s cls) :=
  { (e.rests_pushClass generated).trans (rests_updateScope _ s _) with
    types := rfl
    others := fun _ _ => rfl
    registered := fun s' id => typeWithId?_addClass e s cls s' id
    scopes := by simp [Engine.addClass, updateScope] }

theorem rests_addClass (s : ScopeRef) {cls : Class} (isNew : new cls) :
    e.Rests new (e.addClass s cls) :=
  (e.rests_pushClass isNew).trans (rests_updateScope _ s _)

end Steps

end Engine

open Engine Exec

namespace Scope

variable {e : Engine} {s : ScopeRef}

/-- A scope that does not know a name defines a class under it or counts an attempt. -/
theorem ends_addClass (spec : ClassSpec) (free : e.class? s spec.unit.name = none) :
    e.Ends (defineClass s spec)
      (fun c e' => c = e.classes.size ∧ ∃ id cls,
        Class.define c id spec (spec.parent.map e.classAt) (spec.interfaces.map e.classAt) =
          .ok cls ∧ e' = (e.countClass s).addClass s cls)
      fun _ e' => e' = e.countClass s := by
  have apply := defineClass_apply free
  cases defined : Class.define e.classes.size (e.scopeAt s).nextClassId spec
      (spec.parent.map e.classAt) (spec.interfaces.map e.classAt) with
  | error fault =>
    rw [defined] at apply
    exact .of_error apply rfl
  | ok cls =>
    rw [defined] at apply
    exact .of_ok apply ⟨rfl, _, cls, defined, rfl⟩

/-- The definition of a class counts it and adds what was specified, or counts only. -/
theorem moves_defineClass {R : Engine → Engine → Prop} [IsPreorder Engine R] {spec : ClassSpec}
    (count : ∀ e : Engine, R e (e.countClass s))
    (add : ∀ (e : Engine) place id parent interfaces,
      R e (e.addClass s (.fresh place id spec parent interfaces))) :
    Moves R (defineClass s spec) := by
  intro e
  by_cases free : e.class? s spec.unit.name = none
  · refine ((ends_addClass spec free).weaken (fun c e' done => ?_) fun _ e' counted => ?_).final
    · obtain ⟨-, id, cls, defined, rfl⟩ := done
      obtain ⟨rfl, -⟩ := Class.define_eq_ok defined
      exact trans_of R (count e) (add (e.countClass s) _ _ _ _)
    · exact counted ▸ count e
  · unfold final
    rw [defineClass_taken free]
    exact refl_of R e

end Scope

namespace ManagedType

variable {e : Engine} {t : TypeRef}

instance : IsPreorder Engine OnlyTraced where
  refl e := ⟨e.trace, rfl⟩
  trans _ _ _ := OnlyTraced.trans

theorem moves_record (observer : Observer) (call : ObserverCall) (event : ReloadEvent) :
    Moves OnlyTraced (record observer call event) := by
  unfold record
  cases observer.name with
  | none => exact moves_pure _
  | some name => exact moves_modify fun e => ⟨_, rfl⟩

theorem moves_announce (event : ReloadEvent) (observers : List Observer) :
    Moves OnlyTraced (announce event observers) := by
  induction observers with
  | nil => exact moves_pure _
  | cons o rest ih =>
    refine moves_bind (moves_record o .before event) fun _ => ?_
    cases o.before event with
    | some message => exact moves_fail _
    | none => exact ih

theorem moves_askRerun (event : ReloadEvent) (observers : List Observer) :
    Moves OnlyTraced (askRerun event observers) := by
  induction observers with
  | nil => exact moves_pure _
  | cons o rest ih =>
    exact moves_bind (moves_record o .rerun event) fun _ => moves_bind ih fun _ => moves_pure _

theorem moves_report (event : ReloadEvent) (observers : List Observer) :
    Moves OnlyTraced (report event observers) := by
  induction observers with
  | nil => exact moves_pure _
  | cons o rest ih =>
    refine moves_bind (moves_record o .after event) fun _ => ?_
    cases o.after event with
    | some message => exact moves_fail _
    | none => exact ih

theorem OnlyTraced.reloads {e' : Engine} (traced : OnlyTraced e e') : e.Reloads t e' := by
  obtain ⟨trace, rfl⟩ := traced
  exact e.reloads_trace trace

theorem isInterface_contract :
    (Modifiers.publicBit ||| .interfaceBit ||| .abstractBit ||| .syntheticBit).isInterface =
      true := by
  decide

theorem isFinal_executor :
    (Modifiers.publicBit ||| .finalBit ||| .syntheticBit).isFinal = true := by
  decide

theorem generated_contract (typeName : String) (number : Nat) (shape : TypeShape) (place : ClassRef)
    (id : Nat) (parent : Option Class) (interfaces : List Class) :
    (Class.fresh place id (.plain (contractUnit typeName number shape) none []) parent
      interfaces).Generated :=
  { Class.untouched_fresh _ _ _ _ _ with
    unmanaged := rfl
    unextended := .inl isInterface_contract }

theorem generated_executor {executor : TypeUnit} (final : executor.modifiers.isFinal = true)
    (contract : ClassRef) (standsFor : Option TypeId) (place : ClassRef) (id : Nat)
    (parent : Option Class) (interfaces : List Class) :
    (Class.fresh place id { ClassSpec.plain executor none [contract] with standsFor } parent
      interfaces).Generated :=
  { Class.untouched_fresh _ _ _ _ _ with
    unmanaged := rfl
    unextended := .inr final }

theorem moves_defineArtifacts (native : ClassRef) (u : TypeUnit) (shape : TypeShape) :
    Moves (Reloads t) (defineArtifacts t native u shape) := by
  have count (s : ScopeRef) (e : Engine) : e.Reloads t (e.countClass s) :=
    e.reloads_updateScope s fun _ => rfl
  refine moves_bind (moves_ask _) fun type =>
    moves_bind (moves_modify fun e => e.reloads_updateType fun _ => rfl) fun _ => ?_
  refine moves_modifyGet_bind (fun e => e.reloads_setNames _ _) fun e =>
    moves_bind (moves_ofResult _) fun _ => ?_
  refine moves_bind (Scope.moves_defineClass (count _) fun e _ _ _ _ =>
    e.reloads_addClass _ (generated_contract _ _ _ _ _ _ _)) fun c => ?_
  exact moves_bind (Scope.moves_defineClass (count _) fun e _ _ _ _ =>
    e.reloads_addClass _ (generated_executor isFinal_executor _ _ _ _ _ _)) fun x => moves_pure _

theorem moves_artifactsFor (native : ClassRef) (u : TypeUnit) (shape : TypeShape)
    (digest : Option (List UInt8)) (isLikeFirst : Bool) :
    Moves (Reloads t) (artifactsFor t native u shape digest isLikeFirst) := by
  refine moves_bind (moves_ask _) fun current => ?_
  split
  · exact moves_pure _
  · split
    · exact moves_pure _
    · exact moves_bind (moves_defineArtifacts native u shape) fun _ => moves_pure _

theorem reloads_publish (e : Engine) (t : TypeRef) (v : LiveVersion) :
    e.Reloads t (e.publish t v) := by
  have entered : e.Reloads t (e.updateType t fun type => type.publish v) :=
    e.reloads_updateType fun _ => rfl
  exact entered.trans (reloads_updateScope _ _ fun _ => rfl)

/-- How a reload leaves the engine: either nothing has run, or the static initializer of the
version that was published has run again. -/
inductive Leaves (fuel : Nat) (t : TypeRef) (e e' : Engine) : Prop
  | quiet (reloads : e.Reloads t e')
  | rerun (published : Engine) (native : ClassRef) (reloads : e.Reloads t published)
      (wanted : (published.typeAt t).live.rerun = true)
      (reported : OnlyTraced ((rerunStaticInit fuel t native).final published) e')

/-- Only an engine that knows a managed type has its host class. -/
theorem type_lt_of_native {native : ClassRef} (hosted : (e.typeAt t).native = some native) :
    t < e.types.size := by
  refine Nat.lt_of_not_le fun beyond => ?_
  have unknown : e.typeAt t = default := getD_of_le _ _ beyond
  rw [unknown] at hosted
  cases hosted

/-- What a reload does from the publication of a version on. -/
theorem leaves_publish {e₁ : Engine} (so_far : e.Reloads t e₁) (type_lt : t < e₁.types.size)
    (fuel : Nat) (native : ClassRef) (v : LiveVersion) (event : ReloadEvent)
    (observers : List Observer) :
    e₁.Ends (do
        publishVersion t v
        if v.rerun then mapError .run (rerunStaticInit fuel t native)
        report event observers : Exec ReloadError Unit)
      (fun _ e' => Leaves fuel t e e') fun _ e' => Leaves fuel t e e' := by
  have published := so_far.trans (reloads_publish e₁ t v)
  have entered : e₁.Ends (publishVersion t v) (fun _ e' => e' = e₁.publish t v) fun _ _ => False :=
    .of_ok (publishVersion_eq_ok type_lt v) rfl
  refine ends_bind_done entered fun _ e₂ same => ?_
  subst same
  have reported := (moves_report event observers).ends
  cases wanted : v.rerun with
  | false =>
    have quiet (e' : Engine) (traced : OnlyTraced (e₁.publish t v) e') : Leaves fuel t e e' :=
      .quiet (published.trans traced.reloads)
    exact (reported _).weaken (fun _ => quiet) fun _ => quiet
  | true =>
    have live : ((e₁.publish t v).typeAt t).live.rerun = true := by
      rw [e₁.live_publish v type_lt]
      exact wanted
    have ran : (e₁.publish t v).Ends (rerunStaticInit fuel t native)
        (fun _ e' => e' = (rerunStaticInit fuel t native).final (e₁.publish t v))
        fun _ e' => e' = (rerunStaticInit fuel t native).final (e₁.publish t v) :=
      ends_of_final rfl
    have again (e' : Engine)
        (traced : OnlyTraced ((rerunStaticInit fuel t native).final (e₁.publish t v)) e') :
        Leaves fuel t e e' := .rerun _ native published live traced
    refine ends_bind (ends_mapError (ran.weaken (fun _ _ h => h) fun _ e' h => again e' ?_))
      fun _ e₃ h => ?_
    · rw [h]
      exact refl_of OnlyTraced _
    · subst h
      exact (reported _).weaken (fun _ => again) fun _ => again

theorem leaves_install (fuel : Nat) (type_lt : t < e.types.size) (native : ClassRef)
    (stamp : String) (data : List UInt8) (u : TypeUnit) (shape : TypeShape) :
    Leaves fuel t e ((install fuel t native stamp data u shape).final e) := by
  have quiet {ε α : Type} {x : Exec ε α} {e₁ : Engine} (so_far : e.Reloads t e₁)
      (moves : Moves (Reloads t) x) :
      e₁.Ends x (fun _ e' => e.Reloads t e') fun _ e' => Leaves fuel t e e' :=
    (moves.ends e₁).weaken (fun _ _ moved => so_far.trans moved)
      fun _ _ moved => .quiet (so_far.trans moved)
  apply Ends.final
  refine ends_ask_bind (ends_ask_bind ?_)
  refine ends_bind (quiet (.refl e) ((moves_announce _ _).mono fun _ _ => OnlyTraced.reloads))
    fun _ e₁ announced => ?_
  refine ends_bind (quiet announced (moves_mapError (moves_artifactsFor _ _ _ _ _)))
    fun artifacts e₂ generated => ends_modify_bind (ends_ask_bind ?_)
  refine ends_bind (quiet (generated.trans (e₂.reloads_updateType fun _ => rfl))
    ((moves_askRerun _ _).mono fun _ _ => OnlyTraced.reloads)) fun wanted e₃ asked => ?_
  exact leaves_publish asked (asked.types ▸ type_lt) fuel native _ _ _

/-- Up to the publication of a version nothing runs, and then only its static initializer. -/
theorem leaves_load (fuel : Nat) (stamp : String) (data : List UInt8) :
    Leaves fuel t e ((load fuel t stamp data).final e) := by
  have untouched : Leaves fuel t e e := .quiet (.refl e)
  apply Ends.final
  refine ends_ask_bind (ends_ask_bind ?_)
  cases (e.scopeAt (e.typeAt t).scope).isOpen with
  | false => exact ends_fail untouched
  | true =>
  cases hosted : (e.typeAt t).native with
  | none => exact ends_fail untouched
  | some native =>
  refine ends_ofResult_bind (fun read _ => ends_ask_bind ?_) fun _ _ => untouched
  split
  · exact ends_modify_bind (ends_pure (.quiet (e.reloads_updateType fun _ => rfl)))
  · have installed := leaves_install (e := e) fuel (type_lt_of_native hosted) native stamp data
      read.1 read.2
    exact ends_bind (ends_of_final installed) fun _ e' h => ends_pure h

end ManagedType

end LiveUpdate
