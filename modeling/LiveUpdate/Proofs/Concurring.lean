import LiveUpdate.Proofs.Faces
import LiveUpdate.Proofs.LawfulCalls

/-!
# Computations that see the face only

A computation concurs under a law if it comes out in the same way from any two engines that
resemble each other and that the law holds of: with one result or one error, and in engines that
resemble each other again.  Computations that are put together from such ones concur.
Initializations, field accesses and calls do, if the calls of the machine do.
-/

set_option autoImplicit false

namespace LiveUpdate

open Exec

namespace Engine

section Faces

variable (e : Engine)

theorem face_updateClass (c : ClassRef) (f : Class → Class) :
    (e.updateClass c f).face = e.face.updateClass c f := rfl

theorem face_updateObject (o : ObjectRef) (f : Object → Object) :
    (e.updateObject o f).face = e.face.updateObject o f := rfl

theorem face_updateType (t : TypeRef) {f : ManagedType → ManagedType}
    (unseen : ∀ type, (f type).face = f type.face) :
    (e.updateType t f).face = e.face.updateType t f := by
  have types : (e.types.modify t f).map ManagedType.face =
      (e.types.map ManagedType.face).modify t f := by
    refine Array.ext (by simp) fun i lt lt' => ?_
    simp only [Array.getElem_map, Array.getElem_modify]
    split
    · exact unseen _
    · rfl
  unfold updateType face
  rw [types]

end Faces

end Engine

/-- A law holds of two engines, and code sees no difference between them. -/
structure Law.Matches (law : Law) (e e' : Engine) : Prop where
  left : law.holds e
  right : law.holds e'
  same : e.Resembles e'

namespace Exec

variable {ε α β : Type} {law : Law} {post mid : α → Prop} {post' : β → Prop}

/-- Two outcomes match: both are the same result, or the same error, in engines that match. -/
inductive Matched (law : Law) (post : α → Prop) :
    EStateM.Result (Stop ε) Engine α → EStateM.Result (Stop ε) Engine α → Prop
  | ok {a : α} {e e' : Engine} (holds : post a) (after : law.Matches e e') :
      Matched law post (.ok a e) (.ok a e')
  | error {stop : Stop ε} {e e' : Engine} (after : law.Matches e e') :
      Matched law post (.error stop e) (.error stop e')

/-- From engines that match a computation has outcomes that match. -/
def Concurs (law : Law) (x : Exec ε α) (post : α → Prop) : Prop :=
  ∀ e e', law.Matches e e' → Matched law post (x e) (x e')

theorem Matched.weaken {made made' : EStateM.Result (Stop ε) Engine α}
    (matched : Matched law mid made made') (h : ∀ a, mid a → post a) :
    Matched law post made made' := by
  cases matched with
  | ok holds after => exact .ok (h _ holds) after
  | error after => exact .error after

theorem Concurs.weaken {x : Exec ε α} (hx : Concurs law x mid) (h : ∀ a, mid a → post a) :
    Concurs law x post := fun e e' matched => (hx e e' matched).weaken h

/-- What is known of the result of a computation that obeys is known of both results. -/
theorem Concurs.and_obeys {x : Exec ε α} (hx : Concurs law x mid) (obeys : Obeys law.holds x post) :
    Concurs law x fun a => mid a ∧ post a := by
  intro e e' matched
  have ends := obeys e matched.left
  have both := hx e e' matched
  unfold Engine.Ends at ends
  generalize x e = made at ends both ⊢
  generalize x e' = made' at both ⊢
  cases both with
  | ok holds after => exact .ok ⟨holds, ends.2⟩ after
  | error after => exact .error after

theorem concurs_pure {a : α} (h : post a) : Concurs law (pure a : Exec ε α) post :=
  fun _ _ matched => .ok h matched

theorem concurs_fail (error : ε) : Concurs law (fail error : Exec ε α) post :=
  fun _ _ matched => .error matched

theorem concurs_throw (stop : Stop ε) : Concurs law (throw stop : Exec ε α) post :=
  fun _ _ matched => .error matched

theorem concurs_bind {x : Exec ε α} {f : α → Exec ε β} (hx : Concurs law x mid)
    (hf : ∀ a, mid a → Concurs law (f a) post') : Concurs law (x >>= f) post' := by
  intro e e' matched
  have first := hx e e' matched
  rw [bind_apply, bind_apply]
  generalize x e = made at first ⊢
  generalize x e' = made' at first ⊢
  cases first with
  | ok holds after => exact hf _ holds _ _ after
  | error after => exact .error after

/-- What is asked, or what becomes of the answer, does not tell the engines apart. -/
theorem concurs_ask_bind {g : Engine → α} {f : α → Exec ε β}
    (seen : ∀ {e e' : Engine}, e.Resembles e' → f (g e') = f (g e))
    (h : ∀ e, law.holds e → Concurs law (f (g e)) post') : Concurs law (ask g >>= f) post' := by
  intro e e' matched
  rw [bind_apply, bind_apply, ask_apply, ask_apply]
  dsimp only
  rw [seen matched.same]
  exact h e matched.left e e' matched

/-- What is asked of a managed type does not tell its versions apart. -/
theorem concurs_type_bind {t : TypeRef} {f : ManagedType → Exec ε β}
    (blind : ∀ type, f type.face = f type)
    (h : ∀ e, law.holds e → Concurs law (f (e.typeAt t)) post') :
    Concurs law ((ask fun e => e.typeAt t) >>= f) post' :=
  concurs_ask_bind (fun same => same.of_type t f blind) h

theorem concurs_get_bind {f : Engine → Exec ε β}
    (seen : ∀ {e e' : Engine}, e.Resembles e' → f e' = f e)
    (h : ∀ e, law.holds e → Concurs law (f e) post') : Concurs law (get >>= f) post' :=
  concurs_ask_bind (g := id) seen h

theorem concurs_ask {g : Engine → α} (seen : ∀ {e e' : Engine}, e.Resembles e' → g e' = g e)
    (h : ∀ e, law.holds e → post (g e)) : Concurs law (ask g : Exec ε α) post := by
  intro e e' matched
  rw [ask_apply, ask_apply, seen matched.same]
  exact .ok (h e matched.left) matched

theorem concurs_ofResult {x : Except ε α} (h : ∀ a, x = .ok a → post a) :
    Concurs law (ofResult x) post := by
  cases x with
  | ok a => exact concurs_pure (h a rfl)
  | error error => exact concurs_fail error

theorem concurs_examined {x : Except ε α} : Concurs law (ofResult x) fun _ => True :=
  concurs_ofResult fun _ _ => True.intro

theorem concurs_check {g : Engine → Except ε α}
    (seen : ∀ {e e' : Engine}, e.Resembles e' → g e' = g e) :
    Concurs law (check g) fun _ => True := by
  intro e e' matched
  have answers : check g e' = (ofResult (g e) : Exec ε α) e' := by
    rw [← seen matched.same]
    rfl
  rw [answers]
  exact concurs_examined e e' matched

theorem concurs_resolve {g : Engine → Except (Stop ε) α}
    (seen : ∀ {e e' : Engine}, e.Resembles e' → g e' = g e)
    (h : ∀ e, law.holds e → ∀ a, g e = .ok a → post a) : Concurs law (resolve g) post := by
  intro e e' matched
  rw [resolve_apply, resolve_apply, seen matched.same]
  cases answer : g e with
  | ok a => exact .ok (h e matched.left a answer) matched
  | error stop => exact .error matched

theorem concurs_require {g : Engine → Option α} {error : ε}
    (seen : ∀ {e e' : Engine}, e.Resembles e' → g e' = g e)
    (h : ∀ e, law.holds e → ∀ a, g e = some a → post a) :
    Concurs law (require g error) post := by
  intro e e' matched
  rw [require_apply, require_apply, seen matched.same]
  cases answer : g e with
  | some a => exact .ok (h e matched.left a answer) matched
  | none => exact .error matched

theorem concurs_modify {g : Engine → Engine} (writes : ∀ e : Engine, e.Writes (g e))
    (face : ∀ e, (g e).face = g e.face) :
    Concurs law (modify g : Exec ε Unit) fun _ => True := by
  intro e e' matched
  refine .ok True.intro ⟨law.writes (writes e) matched.left, law.writes (writes e') matched.right, ?_⟩
  exact (face e').trans ((congrArg g matched.same).trans (face e).symm)

theorem concurs_modifyGet {g : Engine → α × Engine} (writes : ∀ e : Engine, e.Writes (g e).2)
    (face : ∀ e, g e.face = ((g e).1, (g e).2.face)) :
    Concurs law (modifyGet g : Exec ε α) fun _ => True := by
  intro e e' matched
  have pairs : ((g e').1, (g e').2.face) = ((g e).1, (g e).2.face) :=
    (face e').symm.trans ((congrArg g matched.same).trans (face e))
  have after : law.Matches (g e).2 (g e').2 :=
    ⟨law.writes (writes e) matched.left, law.writes (writes e') matched.right,
      (Prod.mk.inj pairs).2⟩
  rw [modifyGet_apply, modifyGet_apply, (Prod.mk.inj pairs).1]
  exact .ok True.intro after

theorem concurs_map {g : α → β} {x : Exec ε α} (hx : Concurs law x fun a => post' (g a)) :
    Concurs law (g <$> x) post' := by
  intro e e' matched
  have first := hx e e' matched
  rw [map_apply, map_apply]
  generalize x e = made at first ⊢
  generalize x e' = made' at first ⊢
  cases first with
  | ok holds after => exact .ok holds after
  | error after => exact .error after

theorem concurs_discard {x : Exec ε α} (hx : Concurs law x post) :
    Concurs law (discard x) fun _ => True := concurs_map (hx.weaken fun _ _ => True.intro)

theorem concurs_finally_modify {x : Exec ε α} {g : Engine → Engine} (hx : Concurs law x post)
    (writes : ∀ e : Engine, e.Writes (g e)) (face : ∀ e, (g e).face = g e.face) :
    Concurs law (tryFinally x (modify g)) post := by
  intro e e' matched
  have first := hx e e' matched
  rw [finally_modify_apply, finally_modify_apply]
  generalize x e = made at first ⊢
  generalize x e' = made' at first ⊢
  have done {e e' : Engine} (after : law.Matches e e') : law.Matches (g e) (g e') :=
    ⟨law.writes (writes e) after.left, law.writes (writes e') after.right,
      (face e').trans ((congrArg g after.same).trans (face e).symm)⟩
  cases first with
  | ok holds after => exact .ok holds (done after)
  | error after => exact .error (done after)

end Exec

/-- The calls of a machine concur under a law. -/
def Machine.Concurs (m : Machine) (law : Law) : Prop :=
  ∀ c method args, law.runs method → Exec.Concurs law (m.call c method args) fun _ => True

namespace Machine

variable {law : Law} {m : Machine}

section Initialization

variable (hm : m.Concurs law)
include hm

theorem concurs_runStaticInit (c : ClassRef) :
    Exec.Concurs law (m.runStaticInit c) fun _ => True := by
  refine concurs_ask_bind (fun same => by rw [same.classAt]) fun e he => ?_
  cases declared : (e.classAt c).method? .staticInit with
  | none => exact concurs_pure True.intro
  | some init => exact concurs_discard (hm c init [] (law.declared he declared))

theorem concurs_initializeAll (classes : List ClassRef) :
    Exec.Concurs law (m.initializeAll classes) fun _ => True := by
  induction classes with
  | nil => exact concurs_pure True.intro
  | cons c above ih =>
    refine concurs_ask_bind (fun same => by rw [same.classAt]) fun e _ => ?_
    split
    · exact concurs_pure True.intro
    · have begins : Exec.Concurs law (modifyGet fun e => e.beginInit c : Run Bool)
          fun _ => True := by
        refine concurs_modifyGet (fun e => e.writes_beginInit c) fun e => ?_
        have asked : e.face.classAt c = e.classAt c := rfl
        unfold Engine.beginInit
        rw [asked]
        split <;> rfl
      refine concurs_bind ih fun _ _ => concurs_bind begins fun begun _ => ?_
      split
      · exact concurs_finally_modify (concurs_runStaticInit hm c)
          (fun e => e.writes_finishInit c) fun e => e.face_updateClass c _
      · exact concurs_pure True.intro

theorem concurs_ensureInitialized (c : ClassRef) :
    Exec.Concurs law (m.ensureInitialized c) fun _ => True :=
  concurs_ask_bind (fun same => by rw [same.classAt]) fun _ _ => concurs_initializeAll hm _

theorem concurs_instantiate (typeName : String) :
    Exec.Concurs law (m.instantiate typeName) fun _ => True := by
  have allocate (c : ClassRef) : Exec.Concurs law (do
      m.ensureInitialized c
      modifyGet fun e => e.newObject c : Run ObjectRef) fun _ => True :=
    concurs_bind (concurs_ensureInitialized hm c) fun _ _ =>
      concurs_modifyGet (fun e => e.writes_newObject c) fun _ => rfl
  refine concurs_bind (concurs_check fun same => same.requireClass _ _) fun c _ =>
    concurs_ask_bind (fun same => by rw [same.classAt]) fun _ _ => ?_
  split
  · exact concurs_bind (concurs_fail _) fun _ (_ : True) => allocate c
  · exact allocate c

end Initialization

section Fields

theorem concurs_writeStatic (c : ClassRef) (index : Nat) (value : Value) :
    Exec.Concurs law (writeStatic c index value) fun _ => True :=
  concurs_bind (concurs_check fun same => same.of_body (·.checkStatic c index) fun _ => rfl)
    fun _ _ => concurs_modify (fun e => e.writes_updateClass c fun _ => rfl)
      fun e => e.face_updateClass c _

theorem concurs_putSlot (o : ObjectRef) (index : Nat) (value : Value) :
    Exec.Concurs law (putSlot o index value) fun _ => True :=
  concurs_bind (concurs_check fun same => same.of_body (·.checkSlot o index) fun _ => rfl)
    fun _ _ => concurs_modify (fun e => e.writes_updateObject o _) fun e => e.face_updateObject o _

theorem concurs_writeSlot (o : ObjectRef) (declaring name : String) (value : Value)
    (missing : RunError) :
    Exec.Concurs law (writeSlot o declaring name value missing) fun _ => True :=
  concurs_bind
    (concurs_check fun same => same.of_body (·.instanceSlot o declaring name missing) fun _ => rfl)
    fun _ _ => concurs_putSlot o _ value

theorem concurs_readStored (hm : m.Concurs law) (f : LiveField) (t : TypeRef)
    (receiver : Option ObjectRef) :
    Exec.Concurs law (m.readStored f t receiver) fun _ => True := by
  refine concurs_ask_bind (fun same => by rw [same.options]) fun e _ => ?_
  have reads {e e' : Engine} (same : e.Resembles e') (store : FieldStore) (policy : FieldPolicy)
      (inherited : Option Value) :
      e'.readStore store policy f inherited = e.readStore store policy f inherited :=
    same.of_body (·.readStore store policy f inherited) fun _ => rfl
  cases receiver with
  | none =>
    refine concurs_bind (concurs_ensureInitialized hm _) fun _ _ =>
      concurs_ask_bind (fun same => ?_) fun _ _ => ?_
    · rw [reads same, same.of_type t ManagedType.statics fun _ => rfl]
    · exact concurs_bind (concurs_modify (fun e => e.writes_updateType t fun _ => rfl)
        fun e => e.face_updateType t fun _ => rfl) fun _ _ => concurs_examined
  | some o =>
    refine concurs_ask_bind (fun same => ?_) fun _ _ => ?_
    · rw [reads same, same.of_body (·.storeOf o) fun _ => rfl, same.inheritedValue?]
    · exact concurs_bind (concurs_modify (fun e => e.writes_updateObject o _)
        fun e => e.face_updateObject o _) fun _ _ => concurs_examined

theorem concurs_staticSlot (c : ClassRef) (name : String) (missing : RunError) :
    Exec.Concurs law (check fun e => e.staticSlot c name missing : Run Nat) fun _ => True :=
  concurs_check fun same => same.of_body (·.staticSlot c name missing) fun _ => rfl

theorem concurs_readStatic (c : ClassRef) (index : Nat) (missing : RunError) :
    Exec.Concurs law (check fun e => e.readStatic c index missing : Run Value) fun _ => True :=
  concurs_check fun same => same.of_body (·.readStatic c index missing) fun _ => rfl

theorem concurs_readField (hm : m.Concurs law) (f : LiveField) (receiver : Option ObjectRef) :
    Exec.Concurs law (m.readField f receiver) fun _ => True := by
  unfold readField
  split
  · exact concurs_readStored hm f _ _
  · exact concurs_bind (concurs_ensureInitialized hm _) fun _ _ =>
      concurs_bind (concurs_staticSlot _ _ _) fun _ _ => concurs_readStatic _ _ _
  next o _ =>
    exact concurs_check fun same =>
      same.of_body (·.readSlot o f.declaring f.name f.missing) fun _ => rfl

theorem concurs_writeField (hm : m.Concurs law) (f : LiveField) (receiver : Option ObjectRef)
    (value : Value) : Exec.Concurs law (m.writeField f receiver value) fun _ => True := by
  refine concurs_bind
    (concurs_check fun same => same.of_body (value.checkConforms · f.sig) fun _ => rfl) fun _ _ => ?_
  split
  next t _ =>
    exact concurs_bind (concurs_ensureInitialized hm _) fun _ _ =>
      concurs_modify (fun e => e.writes_updateType t fun _ => rfl)
        fun e => e.face_updateType t fun _ => rfl
  next o _ =>
    exact concurs_modify (fun e => e.writes_updateObject o _) fun e => e.face_updateObject o _
  · exact concurs_bind (concurs_ensureInitialized hm _) fun _ _ =>
      concurs_bind (concurs_staticSlot _ _ _) fun _ _ => concurs_writeStatic _ _ value
  · exact concurs_writeSlot _ _ _ value _

theorem concurs_liveField (owner : ClassRef) (access : FieldAccess) (f : FieldRef) :
    Exec.Concurs law (m.liveField owner access f) fun _ => True := by
  refine concurs_bind (concurs_resolve (fun same => same.resolveField _ _ _) fun _ _ _ _ => True.intro)
    fun live _ => ?_
  cases live with
  | none => exact concurs_fail _
  | some live => exact concurs_bind concurs_examined fun _ _ => concurs_pure True.intro

theorem concurs_hostField (caller : ClassRef) (access : FieldAccess) (f : FieldRef) :
    Exec.Concurs law (m.hostField caller access f) fun _ => True :=
  concurs_bind (concurs_check fun same => same.requireClass _ _) fun owner _ =>
    concurs_bind (concurs_require
      (fun same => same.of_body (·.hostField? owner f.name) fun _ => rfl) fun _ _ _ _ => True.intro)
    fun _ _ => concurs_bind concurs_examined fun _ _ =>
      concurs_bind (concurs_check fun same => same.checkAccess _ _ _ _ _) fun _ _ =>
        concurs_pure True.intro

theorem concurs_routeField (caller : ClassRef) (access : FieldAccess) (f : FieldRef) :
    Exec.Concurs law (m.routeField caller access f) fun _ => True := by
  refine concurs_ask_bind (fun {e e'} same => ?_) fun e _ => ?_
  · simp only [same.epoch_eq_zero_iff]
    have known := same.class? m.scope f.owner
    unfold Engine.class? at known
    rw [known]
  · split
    · exact concurs_pure True.intro
    · split
      · exact concurs_bind (concurs_liveField _ access f) fun live _ =>
          concurs_bind (concurs_check fun same => same.checkAccess _ _ _ _ _) fun _ _ =>
            concurs_ask_bind (fun same => by rw [same.of_body (reaches · _ live) fun _ => rfl])
              fun _ _ => concurs_pure True.intro
      · exact concurs_pure True.intro

end Fields

section Calls

variable (hm : m.Concurs law)

theorem concurs_checkReceiverClass (receiver : ClassRef) (owner : String) :
    Exec.Concurs law (checkReceiverClass receiver owner) fun _ => True := by
  refine concurs_ask_bind (fun same => by rw [same.classAt]) fun _ _ => ?_
  split
  · exact concurs_pure True.intro
  · exact concurs_fail _

theorem concurs_classOf (o : ObjectRef) :
    Exec.Concurs law (ask fun e => (e.objectAt o).cls : Run ClassRef) fun _ => True :=
  concurs_ask (fun same => same.of_body (fun e => (e.objectAt o).cls) fun _ => rfl)
    fun _ _ => True.intro

theorem concurs_nativeReceiver (method : MethodRef) (args : List Value) :
    Exec.Concurs law (nativeReceiver method args) fun _ => True := by
  unfold nativeReceiver
  split
  · exact concurs_classOf _
  · exact concurs_fail _
  · exact concurs_fail _
  next other _ _ _ =>
    exact concurs_get_bind (fun same => by rw [same.of_body (other.typeName ·) fun _ => rfl])
      fun _ _ => concurs_fail _

theorem concurs_resolveMethod (s : ScopeRef) (c : ClassRef) (key : MemberKey) :
    Exec.Concurs law (resolve fun e => e.resolveMethod s c key : Run (Option LiveMethod))
      fun found => ∀ live, found = some live → live.Hosts law.runs :=
  concurs_resolve (fun same => same.resolveMethod _ _ _) fun _ he _ resolved _ found =>
    Law.hosts_resolved he (found ▸ resolved)

include hm

theorem concurs_callHosted (native : ClassRef) (key : MemberKey) (missing : RunError)
    (args : List Value) :
    Exec.Concurs law (m.callHosted native key missing args) fun _ => True := by
  refine concurs_ask_bind (fun same => by rw [same.classAt]) fun e he => ?_
  cases declared : (e.classAt native).method? key with
  | none => exact concurs_fail _
  | some method => exact hm _ method args (law.declared he declared)

theorem concurs_callLive (t : TypeRef) (key : MemberKey) (args : List Value) :
    Exec.Concurs law (m.callLive t key args) fun _ => True := by
  refine concurs_type_bind (fun _ => rfl) fun e he => ?_
  split
  · split
    next method entry =>
      have runs := Law.runs_lookup he entry
      split
      · split
        · exact concurs_bind (concurs_ensureInitialized hm _) fun _ _ => hm _ method args runs
        · exact hm _ method args runs
      · exact concurs_fail _
    · exact concurs_fail _
    · exact concurs_fail _
    all_goals exact concurs_callHosted hm _ key _ args
  · exact concurs_fail _

theorem concurs_callResolved {live : LiveMethod} (hosts : live.Hosts law.runs) (key : MemberKey)
    (args : List Value) : Exec.Concurs law (m.callResolved live key args) fun _ => True := by
  unfold callResolved
  split
  · exact concurs_fail _
  · split
    · exact concurs_callLive hm _ key args
    next c method _ host => exact hm c method args (hosts c method host)
    · exact concurs_fail _

theorem concurs_dispatchVirtual (start : ClassRef) (key : MemberKey) (args : List Value) :
    Exec.Concurs law (m.dispatchVirtual start key args) fun _ => True := by
  have selects : Exec.Concurs law (resolve fun e => e.selectVirtual m.scope start key)
      fun selection => ∀ c method, selection = some (.host c method) → law.runs method :=
    concurs_resolve (fun same => same.selectVirtual _ _ _) fun e he selection selects c method found =>
      Law.runs_selectVirtual he (found ▸ selects)
  refine concurs_bind selects fun selection runs => ?_
  split
  · exact concurs_map (concurs_callLive hm _ key args)
  · exact concurs_map (hm _ _ args (runs _ _ rfl))
  · exact concurs_get_bind (fun same => by rw [same.nameOf]) fun _ _ => concurs_fail _
  · exact concurs_pure True.intro

theorem concurs_callVirtual (receiver : ClassRef) (key : MemberKey) (args : List Value) :
    Exec.Concurs law (m.callVirtual receiver key args) fun _ => True := by
  refine concurs_bind (concurs_dispatchVirtual hm receiver key args) fun answer _ => ?_
  cases answer with
  | none => exact concurs_get_bind (fun same => by rw [same.nameOf]) fun _ _ => concurs_fail _
  | some value => exact concurs_pure True.intro

theorem concurs_callInherited (t : TypeRef) (key : MemberKey) (args : List Value) :
    Exec.Concurs law (m.callInherited t key args) fun _ => True := by
  refine concurs_type_bind (fun _ => rfl) fun e _ => ?_
  split
  · refine concurs_bind (concurs_check fun same => same.requireClass _ _) fun parent _ =>
      concurs_bind (concurs_resolveMethod _ _ _) fun found hosts => ?_
    cases found with
    | none => exact concurs_fail _
    | some live => exact concurs_callResolved hm (hosts live rfl) key args
  · exact concurs_fail _

theorem concurs_callPrivileged (t : TypeRef) (method : MethodRef) (args : List Value) :
    Exec.Concurs law (m.callPrivileged t method args) fun _ => True := by
  refine concurs_bind (concurs_require (fun same => same.liveMethod? _ _) fun _ _ _ _ => True.intro)
    fun shape _ => ?_
  split
  · exact concurs_callLive hm t _ args
  · exact concurs_bind (concurs_discard concurs_examined) fun _ _ => concurs_callLive hm t _ args

theorem concurs_callSelected (receiver : ClassRef) (key : MemberKey) (args : List Value) :
    Exec.Concurs law (m.callSelected receiver key args) fun _ => True := by
  refine concurs_ask_bind (fun same => by rw [same.classAt]) fun e he => ?_
  split
  next selected entry =>
    split
    · exact concurs_callVirtual hm receiver key args
    · refine concurs_bind (concurs_check fun {e e'} same => ?_) fun c _ =>
        hm c _ args (law.selected he entry)
      rw [same.of_body (·.ancestor? receiver selected.declaring) fun _ => rfl, same.requireClass]
  · exact concurs_callVirtual hm receiver key args

theorem concurs_callNative (caller : ClassRef) (kind : InvokeKind) (method : MethodRef)
    (args : List Value) :
    Exec.Concurs law (m.callNative caller kind method args) fun _ => True := by
  have finds (owner : ClassRef) :
      Exec.Concurs law (require (fun e => e.hostMethod? owner method.key)
        (RunError.methodMissing method)) fun found => law.runs found.2 :=
    concurs_require (fun same => same.of_body (·.hostMethod? owner method.key) fun _ => rfl)
      fun e he found answer => Law.runs_hostMethod he answer
  refine concurs_bind (concurs_check fun same => same.requireClass _ _) fun owner _ =>
    concurs_bind (finds owner) fun found runs => concurs_bind concurs_examined fun _ _ =>
      concurs_bind (concurs_check fun same => same.checkAccess _ _ _ _ _) fun _ _ => ?_
  have selecting : Exec.Concurs law (do
      let receiver ← nativeReceiver method args
      checkReceiverClass receiver method.owner
      if found.2.modifiers.isPrivate then m.call found.1 found.2 args
      else m.callSelected receiver method.key args) fun _ => True := by
    refine concurs_bind (concurs_nativeReceiver method args) fun receiver _ =>
      concurs_bind (concurs_checkReceiverClass receiver _) fun _ _ => ?_
    split
    · exact hm _ _ args runs
    · exact concurs_callSelected hm receiver _ args
  cases kind with
  | static => exact hm _ _ args runs
  | special =>
    refine concurs_bind (concurs_check fun same => same.checkNonVirtual _ _ _) fun _ _ => ?_
    split
    · exact concurs_bind (concurs_fail _) fun _ (_ : True) => hm _ _ args runs
    · exact hm _ _ args runs
  | virtual => exact selecting
  | interface => exact selecting

theorem concurs_callDynamic (caller : ClassRef) (kind : InvokeKind) (method : MethodRef)
    {live : LiveMethod} (hosts : live.Hosts law.runs) (args : List Value) :
    Exec.Concurs law (m.callDynamic caller kind method live args) fun _ => True := by
  have selecting : Exec.Concurs law (do
      let o ← ofResult (receiverOf args method.text)
      let receiver ← ask fun e => (e.objectAt o).cls
      checkReceiverClass receiver method.owner
      if live.modifiers.isPrivate then m.callResolved live method.key args
      else m.callVirtual receiver method.key args) fun _ => True := by
    refine concurs_bind concurs_examined fun o _ => concurs_bind (concurs_classOf o) fun _ _ =>
      concurs_bind (concurs_checkReceiverClass _ _) fun _ _ => ?_
    split
    · exact concurs_callResolved hm hosts _ args
    · exact concurs_callVirtual hm _ _ args
  cases kind with
  | static => exact concurs_callResolved hm hosts _ args
  | special =>
    exact concurs_bind (concurs_check fun same => same.checkNonVirtual _ _ _) fun _ _ =>
      concurs_bind (concurs_discard concurs_examined) fun _ _ => concurs_callResolved hm hosts _ args
  | virtual => exact selecting
  | interface => exact selecting

end Calls

end Machine

end LiveUpdate
