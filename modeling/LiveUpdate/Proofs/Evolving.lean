import LiveUpdate.Machine.Invoke
import LiveUpdate.Proofs.HeapTypes
import LiveUpdate.Proofs.Running

/-!
# Calls and field accesses let the heap evolve

Running code lets the heap evolve from any engine.  If the heap is typed and everything that
a computation is given exists, the heap stays typed and what the computation answers exists.
Both are said of one judgement, `Tame`, in which the second part stands behind a condition:
where the condition is false, only the evolution is left.
-/

set_option autoImplicit false

namespace LiveUpdate

open Exec

/-- From an engine, a computation lets the heap evolve, and if `p` holds, the heap is sound
afterwards and a result satisfies `post`. -/
def Engine.Tame {ε α : Type} (e : Engine) (p : Prop) (x : Exec ε α)
    (post : α → Engine → Prop) : Prop :=
  e.Ends x (fun a e' => e.Evolves e' ∧ (p → e'.Sound ∧ post a e'))
    fun _ e' => e.Evolves e' ∧ (p → e'.Sound)

namespace Engine

section Rules

variable {ε δ α β : Type} {e : Engine} {p : Prop} {post mid : α → Engine → Prop}
  {post' : β → Engine → Prop}

theorem Tame.evolves {x : Exec ε α} (h : e.Tame p x post) : e.Evolves (x.final e) :=
  Ends.final (h.weaken (fun _ _ h => h.1) fun _ _ h => h.1)

theorem Tame.sound {x : Exec ε α} (h : e.Tame p x post) (hp : p) : (x.final e).Sound :=
  Ends.final (h.weaken (fun _ _ done => (done.2 hp).1) fun _ _ stopped => stopped.2 hp)

theorem Tame.weaken {x : Exec ε α} (h : e.Tame p x mid)
    (onDone : ∀ a e', mid a e' → post a e') : e.Tame p x post :=
  Ends.weaken h (fun a e' ok => ⟨ok.1, fun hp => ⟨(ok.2 hp).1, onDone a e' (ok.2 hp).2⟩⟩)
    fun _ _ stopped => stopped

theorem tame_pure {a : α} (h : p → e.Sound ∧ post a e) : e.Tame p (pure a : Exec ε α) post :=
  ⟨Evolves.refl e, h⟩

theorem tame_fail {error : ε} (sound : p → e.Sound) : e.Tame p (fail error : Exec ε α) post :=
  ⟨Evolves.refl e, sound⟩

theorem tame_throw {stop : Stop ε} (sound : p → e.Sound) :
    e.Tame p (throw stop : Exec ε α) post :=
  ⟨Evolves.refl e, sound⟩

/-- The second computation starts where the first ends. -/
theorem tame_bind {x : Exec ε α} {f : α → Exec ε β} (hx : e.Tame p x mid)
    (hf : ∀ a e', e.Evolves e' → (p → e'.Sound ∧ mid a e') → e'.Tame p (f a) post') :
    e.Tame p (x >>= f) post' := by
  refine ends_bind hx fun a e' ok => ?_
  exact Ends.weaken (hf a e' ok.1 ok.2) (fun b e'' done => ⟨ok.1.trans done.1, done.2⟩)
    fun _ e'' stopped => ⟨ok.1.trans stopped.1, stopped.2⟩

theorem tame_ask {g : Engine → α} (h : p → e.Sound ∧ post (g e) e) :
    e.Tame p (ask g : Exec ε α) post :=
  ⟨Evolves.refl e, h⟩

theorem tame_ask_bind {g : Engine → α} {f : α → Exec ε β} (h : e.Tame p (f (g e)) post') :
    e.Tame p (ask g >>= f) post' :=
  ends_ask_bind h

theorem tame_get_bind {f : Engine → Exec ε β} (h : e.Tame p (f e) post') :
    e.Tame p (get >>= f) post' :=
  ends_ask_bind h

theorem tame_ofResult {x : Except ε α} (sound : p → e.Sound)
    (h : p → ∀ a, x = .ok a → post a e) : e.Tame p (ofResult x) post := by
  cases x with
  | ok a => exact tame_pure fun hp => ⟨sound hp, h hp a rfl⟩
  | error error => exact tame_fail sound

theorem tame_ofResult_bind {x : Except ε α} {f : α → Exec ε β} (sound : p → e.Sound)
    (h : ∀ a, x = .ok a → e.Tame p (f a) post') : e.Tame p (ofResult x >>= f) post' := by
  cases x with
  | ok a => exact h a rfl
  | error error => exact tame_fail sound

theorem tame_check {g : Engine → Except ε α} (sound : p → e.Sound)
    (h : p → ∀ a, g e = .ok a → post a e) : e.Tame p (check g) post :=
  tame_ofResult sound h

theorem tame_check_bind {g : Engine → Except ε α} {f : α → Exec ε β} (sound : p → e.Sound)
    (h : ∀ a, g e = .ok a → e.Tame p (f a) post') : e.Tame p (check g >>= f) post' := by
  unfold Tame Ends
  rw [bind_apply, check_apply]
  cases answer : g e with
  | ok a => exact h a answer
  | error error => exact ⟨Evolves.refl e, sound⟩

theorem tame_resolve_bind {g : Engine → Except (Stop ε) α} {f : α → Exec ε β}
    (sound : p → e.Sound) (h : ∀ a, g e = .ok a → e.Tame p (f a) post') :
    e.Tame p (resolve g >>= f) post' := by
  unfold Tame Ends
  rw [bind_apply, resolve_apply]
  cases answer : g e with
  | ok a => exact h a answer
  | error stop => exact ⟨Evolves.refl e, sound⟩

theorem tame_require_bind {g : Engine → Option α} {error : ε} {f : α → Exec ε β}
    (sound : p → e.Sound) (h : ∀ a, g e = some a → e.Tame p (f a) post') :
    e.Tame p (require g error >>= f) post' := by
  unfold Tame Ends
  rw [bind_apply, require_apply]
  cases answer : g e with
  | some a => exact h a answer
  | none => exact ⟨Evolves.refl e, sound⟩

theorem tame_modify {g : Engine → Engine} {post : Unit → Engine → Prop}
    (evolves : e.Evolves (g e)) (h : p → (g e).Sound ∧ post () (g e)) :
    e.Tame p (modify g : Exec ε Unit) post :=
  ⟨evolves, h⟩

theorem tame_modify_bind {g : Engine → Engine} {f : Unit → Exec ε β} (evolves : e.Evolves (g e))
    (h : (g e).Tame p (f ()) post') : e.Tame p (modify g >>= f) post' :=
  ends_modify_bind (Ends.weaken h (fun _ _ done => ⟨evolves.trans done.1, done.2⟩)
    fun _ _ stopped => ⟨evolves.trans stopped.1, stopped.2⟩)

theorem tame_modifyGet {g : Engine → α × Engine} (evolves : e.Evolves (g e).2)
    (h : p → (g e).2.Sound ∧ post (g e).1 (g e).2) : e.Tame p (modifyGet g : Exec ε α) post :=
  ⟨evolves, h⟩

theorem tame_map {g : α → β} {x : Exec ε α} (hx : e.Tame p x fun a => post' (g a)) :
    e.Tame p (g <$> x) post' := by
  unfold Tame Ends at *
  rw [map_apply]
  cases run : x e <;> rw [run] at hx <;> exact hx

theorem tame_discard {x : Exec ε α} (hx : e.Tame p x post) :
    e.Tame p (discard x) fun _ _ => True :=
  tame_map (Tame.weaken hx fun _ _ _ => trivial)

theorem tame_mapError {g : ε → δ} {x : Exec ε α} (hx : e.Tame p x post) :
    e.Tame p (mapError g x) post := by
  unfold Tame Ends at *
  rw [mapError_apply]
  cases run : x e <;> rw [run] at hx <;> exact hx

/-- A check of which only the failure matters. -/
theorem tame_examine {x : Except ε α} (sound : p → e.Sound) :
    e.Tame p (discard (ofResult x)) fun _ _ => True := by
  have examined : e.Tame p (ofResult x) fun _ _ => True :=
    tame_ofResult sound fun _ _ _ => trivial
  exact tame_discard examined

/-- What happens finally happens to a heap that has evolved. -/
theorem tame_finally_modify {x : Exec ε α} {g : Engine → Engine} (hx : e.Tame p x post)
    (evolves : ∀ e' : Engine, e'.Evolves (g e')) (sound : ∀ e' : Engine, e'.Sound → (g e').Sound) :
    e.Tame p (tryFinally x (modify g)) fun _ _ => True := by
  unfold Tame Ends at *
  rw [finally_modify_apply]
  cases run : x e with
  | ok a e' =>
    rw [run] at hx
    exact ⟨hx.1.trans (evolves e'), fun hp => ⟨sound e' (hx.2 hp).1, trivial⟩⟩
  | error stop e' =>
    rw [run] at hx
    exact ⟨hx.1.trans (evolves e'), fun hp => sound e' (hx.2 hp)⟩

end Rules

/-- A class that a scope knows exists. -/
theorem Known.requireClass {e : Engine} (known : e.Known) {s : ScopeRef} {name : String}
    {c : ClassRef} (answer : e.requireClass s name = .ok c) : c < e.classes.size := by
  unfold Engine.requireClass at answer
  split at answer
  next found =>
    cases answer
    exact known s name c found
  next => cases answer

end Engine

open Engine

/-- The answer of a computation exists. -/
def Value.Answered : Value → Engine → Prop := fun v e => v.Exists e

/-- The calls of a machine are tame. -/
def Machine.Tame (m : Machine) (p : Prop) : Prop :=
  ∀ (e : Engine) c method args, (p → e.Sound) → (p → ∀ v ∈ args, v.Exists e) →
    e.Tame p (m.call c method args) Value.Answered

namespace Machine

variable {m : Machine} {p : Prop} {e : Engine}

section Initialization

theorem tame_runStaticInit (hm : m.Tame p) (c : ClassRef) (sound : p → e.Sound) :
    e.Tame p (m.runStaticInit c) fun _ _ => True := by
  refine tame_ask_bind ?_
  cases (e.classAt c).method? .staticInit with
  | none => exact tame_pure fun hp => ⟨sound hp, trivial⟩
  | some init => exact tame_discard (hm e c init [] sound fun _ _ mem => by cases mem)

theorem tame_initializeAll (hm : m.Tame p) (classes : List ClassRef) (sound : p → e.Sound) :
    e.Tame p (m.initializeAll classes) fun _ _ => True := by
  induction classes generalizing e with
  | nil => exact tame_pure fun hp => ⟨sound hp, trivial⟩
  | cons c above ih =>
    refine tame_ask_bind ?_
    split
    · exact tame_pure fun hp => ⟨sound hp, trivial⟩
    · refine tame_bind (ih sound) fun _ e₁ _ ok => ?_
      have begin_ : e₁.Tame p (modifyGet fun e => e.beginInit c : Run Bool) fun _ _ => True :=
        tame_modifyGet (e₁.evolves_beginInit c) fun hp => ⟨(ok hp).1.beginInit c, trivial⟩
      refine tame_bind begin_ fun begun e₂ _ ok => ?_
      split
      · exact tame_finally_modify (tame_runStaticInit hm c fun hp => (ok hp).1)
          (fun e' => e'.evolves_finishInit c) fun e' sound => sound.finishInit c
      · exact tame_pure fun hp => ⟨(ok hp).1, trivial⟩

theorem tame_ensureInitialized (hm : m.Tame p) (c : ClassRef) (sound : p → e.Sound) :
    e.Tame p (m.ensureInitialized c) fun _ _ => True :=
  tame_ask_bind (tame_initializeAll hm _ sound)

theorem tame_instantiate (hm : m.Tame p) (typeName : String) (sound : p → e.Sound) :
    e.Tame p (m.instantiate typeName) fun o e' => (Value.object o).Exists e' := by
  refine tame_check_bind sound fun c known => tame_ask_bind ?_
  have allocate : e.Tame p (do
      m.ensureInitialized c
      modifyGet fun e => e.newObject c) fun o e' => (Value.object o).Exists e' := by
    refine tame_bind (tame_ensureInitialized hm c sound) fun _ e' evolves ok => ?_
    have found : e'.requireClass m.scope typeName = .ok c := by
      unfold Engine.requireClass at known ⊢
      rw [evolves.during.class?]
      exact known
    refine tame_modifyGet (e'.evolves_newObject fun known => known.requireClass found) fun hp => ?_
    refine ⟨(ok hp).1.newObject ((ok hp).1.coherent.known.requireClass found), ?_⟩
    show e'.objects.size < (e'.objects.push _).size
    rw [Array.size_push]
    exact Nat.lt_succ_self _
  split
  · exact tame_fail sound
  · exact allocate

end Initialization

section Fields

theorem tame_writeStatic (c : ClassRef) {index : Nat} {value : Value} (sound : p → e.Sound)
    (fits : p → ∀ slot, (e.classAt c).staticFields[index]? = some slot →
      value.Fits e slot.sig) :
    e.Tame p (writeStatic c index value) fun _ _ => True :=
  tame_check_bind sound fun _ _ => tame_modify (e.evolves_setStatic c index value) fun hp =>
    ⟨(sound hp).setStatic c (fits hp), trivial⟩

theorem tame_putSlot (o : ObjectRef) {index : Nat} {value : Value} (sound : p → e.Sound)
    (fits : p → ∀ slot, (e.classOf o).instanceFields[index]? = some slot →
      value.Fits e slot.sig) :
    e.Tame p (putSlot o index value) fun _ _ => True :=
  tame_check_bind sound fun _ _ =>
    tame_modify (e.evolves_updateObject o (fun _ => rfl) fun _ => List.length_set) fun hp =>
      ⟨(sound hp).setSlot o (fits hp), trivial⟩

/-- The slot at the place of a field is declared as the field. -/
theorem declared_of_fieldSlot? {c : Class} {declaring name : String} {index : Nat}
    (place : c.fieldSlot? declaring name = some index) {slot : FieldSlot}
    (there : c.instanceFields[index]? = some slot) :
    slot ∈ c.instanceFields ∧ slot.declaring = declaring ∧ slot.name = name := by
  obtain ⟨lt, named, -⟩ := List.findIdx?_eq_some_iff_getElem.1 place
  obtain ⟨-, rfl⟩ := List.getElem?_eq_some_iff.1 there
  exact ⟨List.getElem_mem lt, of_decide_eq_true named⟩

theorem tame_writeSlot (o : ObjectRef) {declaring name : String} {sig : TypeSig} {value : Value}
    (missing : RunError) (sound : p → e.Sound) (slots : p → e.SlotsHave declaring name sig)
    (fits : p → value.Fits e sig) :
    e.Tame p (writeSlot o declaring name value missing) fun _ _ => True := by
  refine tame_check_bind sound fun index place => tame_putSlot o sound fun hp slot there => ?_
  have found : (e.classOf o).fieldSlot? declaring name = some index := by
    unfold Engine.instanceSlot at place
    split at place
    next found =>
      cases place
      exact found
    next => cases place
  obtain ⟨mem, declaring_eq, name_eq⟩ := declared_of_fieldSlot? found there
  rw [slots hp _ slot mem declaring_eq name_eq]
  exact fits hp

/-- The value in a slot of a name fits the type that slots of that name have. -/
theorem fits_readSlot {o : ObjectRef} {declaring name : String} {sig : TypeSig} {value : Value}
    {missing : RunError} (sound : e.Sound) (there : o < e.objects.size)
    (slots : e.SlotsHave declaring name sig)
    (answer : e.readSlot o declaring name missing = .ok value) : value.Fits e sig := by
  unfold Engine.readSlot Engine.slotValue? at answer
  split at answer
  next found =>
    cases answer
    obtain ⟨index, place, held⟩ := Option.bind_eq_some_iff.1 found
    have typed := sound.typed.objects o there
    have lt : index < (e.classOf o).instanceFields.length := by
      rw [show (e.classOf o).instanceFields.length = (e.objectAt o).slots.length from
        typed.slots.length.symm]
      exact (List.getElem?_eq_some_iff.1 held).1
    have slot := List.getElem?_eq_getElem lt
    obtain ⟨mem, declaring_eq, name_eq⟩ := declared_of_fieldSlot? place slot
    rw [← slots _ _ mem declaring_eq name_eq]
    exact typed.slots.fits index value _ held slot
  next => cases answer

/-- The value in a static slot fits its type. -/
theorem fits_readStatic {c : ClassRef} {index : Nat} {sig : TypeSig} {value : Value}
    {missing : RunError} (sound : e.Sound)
    (declared : ∀ slot, (e.classAt c).staticFields[index]? = some slot → slot.sig = sig)
    (answer : e.readStatic c index missing = .ok value) : value.Fits e sig := by
  unfold Engine.readStatic at answer
  split at answer
  next found =>
    cases answer
    have fills := sound.typed.statics c
    have lt : index < (e.classAt c).staticFields.length := by
      rw [← fills.length]
      exact (List.getElem?_eq_some_iff.1 found).1
    have slot := List.getElem?_eq_getElem lt
    rw [← declared _ slot]
    exact fills.fits index value _ found slot
  next => cases answer

/-- What a type used to inherit exists. -/
theorem exists_inheritedValue? {o : ObjectRef} (sound : e.Sound) (there : o < e.objects.size)
    (s : ScopeRef) (name : String) (sig : TypeSig) :
    ∀ v ∈ e.inheritedValue? s o name sig, v.Exists e := by
  intro v mem
  obtain ⟨c, -, found⟩ := List.exists_of_findSome?_eq_some mem
  split at found
  · split at found
    · obtain ⟨index, place, held⟩ := Option.bind_eq_some_iff.1 found
      have typed := sound.typed.objects o there
      have lt : index < (e.classAt (e.objectAt o).cls).instanceFields.length := by
        rw [← typed.slots.length]
        exact (List.getElem?_eq_some_iff.1 held).1
      exact (typed.slots.fits index v _ held (List.getElem?_eq_getElem lt)).there
    · cases found
  · cases found

/-- What an object keeps in its store exists. -/
theorem stocks_storeOf {o : ObjectRef} (sound : e.Sound) (there : o < e.objects.size) :
    e.Stocks (e.storeOf o) := by
  unfold Engine.storeOf
  cases held : (e.objectAt o).store with
  | none => exact stocks_empty e
  | some store => exact (sound.typed.objects o there).store store held

theorem tame_readStored (hm : m.Tame p) (f : LiveField) (t : TypeRef)
    (receiver : Option ObjectRef) (sound : p → e.Sound)
    (there : p → ∀ o ∈ receiver, o < e.objects.size) :
    e.Tame p (m.readStored f t receiver) fun v e' => v.Fits e' f.sig := by
  refine tame_ask_bind ?_
  cases receiver with
  | none =>
    refine tame_bind (tame_ensureInitialized hm f.cls sound) fun _ e' _ ok => ?_
    let policy := (e.scopeAt m.scope).options.fieldPolicy
    let read := e'.readStore (e'.typeAt t).statics policy f none
    have holds (hp : p) := ((ok hp).1.typed.stores t).readStore policy f none
      fun _ held => by cases held
    have evolves : e'.Evolves (e'.updateType t fun type => { type with statics := read.2 }) :=
      e'.evolves_updateType t fun _ => rfl
    refine tame_ask_bind (tame_modify_bind evolves ?_)
    exact tame_ofResult (fun hp => (ok hp).1.updateType t (fun _ => rfl) (holds hp).1)
      fun hp v answer => ((holds hp).2 v answer).mono evolves
  | some o =>
    have there (hp : p) := there hp o rfl
    let policy := (e.scopeAt m.scope).options.fieldPolicy
    let read := e.readStore (e.storeOf o) policy f (e.inheritedValue? m.scope o f.name f.sig)
    have holds (hp : p) := (stocks_storeOf (sound hp) (there hp)).readStore policy f _
      (exists_inheritedValue? (sound hp) (there hp) m.scope f.name f.sig)
    have evolves : e.Evolves (e.updateObject o fun object =>
        { object with store := some read.2 }) :=
      e.evolves_updateObject o (fun _ => rfl) fun _ => rfl
    refine tame_ask_bind (tame_modify_bind evolves ?_)
    exact tame_ofResult
      (fun hp => (sound hp).setStore o (f := fun _ => read.2) (holds hp).1)
      fun hp v answer => ((holds hp).2 v answer).mono evolves

/-- The slots of a static field are declared with its type. -/
theorem backs_staticSlot {f : LiveField} {index : Nat} {missing : RunError} (backs : e.Backs f)
    (place : e.staticSlot f.cls f.name missing = .ok index) :
    ∀ slot, (e.classAt f.cls).staticFields[index]? = some slot → slot.sig = f.sig := by
  unfold Engine.staticSlot at place
  split at place
  next found =>
    cases place
    exact fun slot there => backs.static index slot found there
  next => cases place

theorem tame_readField (hm : m.Tame p) (f : LiveField) (receiver : Option ObjectRef)
    (sound : p → e.Sound) (backs : p → f.storedBy? = none → e.Backs f)
    (there : p → ∀ o ∈ receiver, o < e.objects.size) :
    e.Tame p (m.readField f receiver) fun v e' => v.Fits e' f.sig := by
  unfold readField
  split
  · exact tame_readStored hm f _ _ sound there
  next kept =>
    refine tame_bind (tame_ensureInitialized hm f.cls sound) fun _ e' evolves ok => ?_
    refine tame_check_bind (fun hp => (ok hp).1) fun index place => ?_
    refine tame_check (fun hp => (ok hp).1) fun hp v answer => ?_
    exact fits_readStatic (ok hp).1
      (backs_staticSlot ((backs hp kept).mono evolves.during) place) answer
  next o kept =>
    exact tame_check sound fun hp v answer =>
      fits_readSlot (sound hp) (there hp o rfl) (backs hp kept).slots answer

theorem tame_writeField (hm : m.Tame p) (f : LiveField) (receiver : Option ObjectRef)
    {value : Value} (sound : p → e.Sound) (backs : p → f.storedBy? = none → e.Backs f)
    (there : p → ∀ o ∈ receiver, o < e.objects.size) (given : p → value.Exists e) :
    e.Tame p (m.writeField f receiver value) fun _ _ => True := by
  unfold writeField
  refine tame_check_bind sound fun _ checked => ?_
  have fits (hp : p) : value.Fits e f.sig := by
    unfold Value.checkConforms at checked
    split at checked
    next conforms => exact ⟨given hp, fun _ => conforms⟩
    next => cases checked
  split
  next t kept =>
    refine tame_bind (tame_ensureInitialized hm f.cls sound) fun _ e' evolves ok => ?_
    refine tame_modify (e'.evolves_updateType t fun _ => rfl) fun hp => ⟨?_, trivial⟩
    exact (ok hp).1.updateType t (fun _ => rfl)
      (((ok hp).1.typed.stores t).set ((given hp).mono evolves) _ _)
  next o kept =>
    refine tame_modify (e.evolves_updateObject o (fun _ => rfl) fun _ => rfl) fun hp =>
      ⟨?_, trivial⟩
    exact (sound hp).setStore o (f := fun store =>
        (store.getD {}).set f.declaring f.name value)
      ((stocks_storeOf (sound hp) (there hp o rfl)).set (given hp) _ _)
  next kept =>
    refine tame_bind (tame_ensureInitialized hm f.cls sound) fun _ e' evolves ok => ?_
    refine tame_check_bind (fun hp => (ok hp).1) fun index place => ?_
    refine tame_writeStatic f.cls (fun hp => (ok hp).1) fun hp slot declared => ?_
    rw [backs_staticSlot ((backs hp kept).mono evolves.during) place slot declared]
    exact (fits hp).mono evolves
  next o kept =>
    exact tame_writeSlot o _ sound (fun hp => (backs hp kept).slots) fits

/-- What is known of a field that a live access means. -/
structure LiveMeans (access : FieldAccess) (f : FieldRef) (live : LiveField) (e : Engine) :
    Prop where
  backs : live.storedBy? = none → e.Backs live
  sig : live.sig = f.sig
  static : live.isStatic = access.isStatic

theorem checkFieldUse_eq_ok {access : FieldAccess} {f : FieldRef} {isStatic : Bool}
    {sig : TypeSig} (ok : checkFieldUse access f isStatic sig = .ok ()) :
    isStatic = access.isStatic ∧ sig = f.sig := by
  unfold checkFieldUse at ok
  split at ok
  · cases ok
  next kind =>
    split at ok
    · cases ok
    next same => exact ⟨not_not.1 kind, not_not.1 same⟩

theorem tame_liveField (owner : ClassRef) (access : FieldAccess) (f : FieldRef)
    (sound : p → e.Sound) : e.Tame p (m.liveField owner access f) (LiveMeans access f) := by
  refine tame_resolve_bind sound fun found answer => ?_
  cases found with
  | none => exact tame_fail sound
  | some live =>
    refine tame_ofResult_bind sound fun _ checked => ?_
    obtain ⟨kind, type⟩ := checkFieldUse_eq_ok checked
    exact tame_pure fun hp =>
      ⟨sound hp, (sound hp).coherent.backed m.scope owner f.name live answer, type, kind⟩

/-- What is known of a field that the host links an access to. -/
structure HostMeans (access : FieldAccess) (f : FieldRef) (h : HostField) (e : Engine) : Prop where
  holds : e.Holds h
  sig : h.slot.sig = f.sig
  static : h.slot.isStatic = access.isStatic

theorem tame_hostField (caller : ClassRef) (access : FieldAccess) (f : FieldRef)
    (sound : p → e.Sound) : e.Tame p (m.hostField caller access f) (HostMeans access f) := by
  refine tame_check_bind sound fun owner _ => tame_require_bind sound fun h found => ?_
  refine tame_ofResult_bind sound fun _ checked => tame_check_bind sound fun _ _ => ?_
  obtain ⟨kind, type⟩ := checkFieldUse_eq_ok checked
  exact tame_pure fun hp =>
    ⟨sound hp, (sound hp).coherent.hosted owner f.name h found, type, kind⟩

theorem tame_routeField (caller : ClassRef) (access : FieldAccess) (f : FieldRef)
    (sound : p → e.Sound) :
    e.Tame p (m.routeField caller access f) fun route e' =>
      ∀ live, route = .managed live → LiveMeans access f live e' := by
  have native : e.Tame p (pure .native : Run FieldRoute) fun route e' =>
      ∀ live, route = .managed live → LiveMeans access f live e' :=
    tame_pure fun hp => ⟨sound hp, fun live same => by cases same⟩
  refine tame_ask_bind ?_
  split
  · exact native
  · split
    · refine tame_bind (tame_liveField _ access f sound) fun live e' _ ok => ?_
      refine tame_check_bind (fun hp => (ok hp).1) fun _ _ => tame_ask_bind ?_
      refine tame_pure fun hp => ⟨(ok hp).1, fun live' same => ?_⟩
      split at same
      · cases same
      · cases same
        exact (ok hp).2
    · exact native

end Fields

section Calls

variable (hm : m.Tame p) (sound : p → e.Sound) {args : List Value}
  (given : p → ∀ v ∈ args, v.Exists e)
include hm sound given

theorem tame_callHosted (native : ClassRef) (key : MemberKey) (missing : RunError) :
    e.Tame p (m.callHosted native key missing args) Value.Answered := by
  refine tame_ask_bind ?_
  cases (e.classAt native).method? key with
  | none => exact tame_fail sound
  | some method => exact hm e native method args sound given

theorem tame_callLive (t : TypeRef) (key : MemberKey) :
    e.Tame p (m.callLive t key args) Value.Answered := by
  refine tame_ask_bind ?_
  split
  next native _ =>
    split
    · split
      · split
        · refine tame_bind (tame_ensureInitialized hm native sound) fun _ e' evolves ok => ?_
          exact hm e' _ _ args (fun hp => (ok hp).1) fun hp v mem =>
            (given hp v mem).mono evolves
        · exact hm e _ _ args sound given
      · exact tame_fail sound
    · exact tame_fail sound
    · exact tame_fail sound
    all_goals exact tame_callHosted hm sound given native key _
  next => exact tame_fail sound

theorem tame_callResolved (live : LiveMethod) (key : MemberKey) :
    e.Tame p (m.callResolved live key args) Value.Answered := by
  unfold callResolved
  split
  · exact tame_fail sound
  · split
    · exact tame_callLive hm sound given _ key
    · exact hm e _ _ args sound given
    · exact tame_fail sound

theorem tame_dispatchVirtual (start : ClassRef) (key : MemberKey) :
    e.Tame p (m.dispatchVirtual start key args) fun answer e' =>
      ∀ v ∈ answer, v.Exists e' := by
  have answered {x : Run Value} (h : e.Tame p x Value.Answered) :
      e.Tame p (some <$> x) fun answer e' => ∀ v ∈ answer, v.Exists e' := by
    refine tame_map (h.weaken fun v e' there w same => ?_)
    cases same
    exact there
  refine tame_resolve_bind sound fun selection _ => ?_
  split
  · exact answered (tame_callLive hm sound given _ key)
  · exact answered (hm e _ _ args sound given)
  · exact tame_get_bind (tame_fail sound)
  · exact tame_pure fun hp => ⟨sound hp, fun _ held => by cases held⟩

theorem tame_callVirtual (receiver : ClassRef) (key : MemberKey) :
    e.Tame p (m.callVirtual receiver key args) Value.Answered := by
  refine tame_bind (tame_dispatchVirtual hm sound given receiver key) fun answer e' _ ok => ?_
  cases answer with
  | none => exact tame_get_bind (tame_fail fun hp => (ok hp).1)
  | some value => exact tame_pure fun hp => ⟨(ok hp).1, (ok hp).2 value rfl⟩

theorem tame_callInherited (t : TypeRef) (key : MemberKey) :
    e.Tame p (m.callInherited t key args) Value.Answered := by
  refine tame_ask_bind ?_
  split
  · refine tame_check_bind sound fun parent _ => tame_resolve_bind sound fun live _ => ?_
    cases live with
    | none => exact tame_fail sound
    | some live => exact tame_callResolved hm sound given live key
  · exact tame_fail sound

theorem tame_callPrivileged (t : TypeRef) (method : MethodRef) :
    e.Tame p (m.callPrivileged t method args) Value.Answered := by
  refine tame_require_bind sound fun shape _ => ?_
  split
  · exact tame_callLive hm sound given t _
  · refine tame_bind (tame_examine sound) fun _ e' evolves ok => ?_
    exact tame_callLive hm (fun hp => (ok hp).1) (fun hp v mem => (given hp v mem).mono evolves) t _

omit hm given in
theorem tame_nativeReceiver (method : MethodRef) (args : List Value) :
    e.Tame p (nativeReceiver method args) fun _ _ => True := by
  unfold nativeReceiver
  split
  · exact tame_ask fun hp => ⟨sound hp, trivial⟩
  · exact tame_fail sound
  · exact tame_fail sound
  · exact tame_get_bind (tame_fail sound)

omit hm given in
theorem tame_checkReceiverClass (receiver : ClassRef) (owner : String) :
    e.Tame p (checkReceiverClass receiver owner) fun _ _ => True := by
  refine tame_ask_bind ?_
  split
  · exact tame_pure fun hp => ⟨sound hp, trivial⟩
  · exact tame_fail sound

theorem tame_callSelected (receiver : ClassRef) (key : MemberKey) :
    e.Tame p (m.callSelected receiver key args) Value.Answered := by
  refine tame_ask_bind ?_
  split
  · split
    · exact tame_callVirtual hm sound given receiver key
    · exact tame_check_bind sound fun c _ => hm e c _ args sound given
  · exact tame_callVirtual hm sound given receiver key

theorem tame_callNative (caller : ClassRef) (kind : InvokeKind) (method : MethodRef) :
    e.Tame p (m.callNative caller kind method args) Value.Answered := by
  refine tame_check_bind sound fun owner _ => tame_require_bind sound fun found _ =>
    tame_ofResult_bind sound fun _ _ => tame_check_bind sound fun _ _ => ?_
  have selecting : e.Tame p (do
      let receiver ← nativeReceiver method args
      checkReceiverClass receiver method.owner
      if found.2.modifiers.isPrivate then m.call found.1 found.2 args
      else m.callSelected receiver method.key args) Value.Answered := by
    refine tame_bind (tame_nativeReceiver sound method args) fun receiver e₁ evolves₁ ok => ?_
    refine tame_bind (tame_checkReceiverClass (fun hp => (ok hp).1) receiver _)
      fun _ e₂ evolves₂ ok => ?_
    have given (hp : p) : ∀ v ∈ args, v.Exists e₂ := fun v mem =>
      (given hp v mem).mono (evolves₁.trans evolves₂)
    split
    · exact hm e₂ _ _ args (fun hp => (ok hp).1) given
    · exact tame_callSelected hm (fun hp => (ok hp).1) given receiver _
  cases kind with
  | static => exact hm e _ _ args sound given
  | special =>
    refine tame_check_bind sound fun _ _ => ?_
    split
    · exact tame_fail sound
    · exact hm e _ _ args sound given
  | virtual => exact selecting
  | interface => exact selecting

theorem tame_callDynamic (caller : ClassRef) (kind : InvokeKind) (method : MethodRef)
    (live : LiveMethod) :
    e.Tame p (m.callDynamic caller kind method live args) Value.Answered := by
  have selecting : e.Tame p (do
      let o ← ofResult (receiverOf args method.text)
      let receiver ← ask fun e => (e.objectAt o).cls
      checkReceiverClass receiver method.owner
      if live.modifiers.isPrivate then m.callResolved live method.key args
      else m.callVirtual receiver method.key args) Value.Answered := by
    refine tame_ofResult_bind sound fun o _ => tame_ask_bind ?_
    refine tame_bind (tame_checkReceiverClass sound _ _) fun _ e' evolves ok => ?_
    have given (hp : p) : ∀ v ∈ args, v.Exists e' := fun v mem => (given hp v mem).mono evolves
    split
    · exact tame_callResolved hm (fun hp => (ok hp).1) given live _
    · exact tame_callVirtual hm (fun hp => (ok hp).1) given _ _
  cases kind with
  | static => exact tame_callResolved hm sound given live _
  | special =>
    refine tame_check_bind sound fun _ _ => ?_
    refine tame_bind (tame_examine sound) fun _ e' evolves ok => ?_
    exact tame_callResolved hm (fun hp => (ok hp).1)
      (fun hp v mem => (given hp v mem).mono evolves) live _
  | virtual => exact selecting
  | interface => exact selecting

omit hm given in
theorem tame_liveTarget? (id : TypeId) (kind : InvokeKind) (method : MethodRef) :
    e.Tame p (m.liveTarget? id kind method) fun _ _ => True := by
  refine tame_ask_bind ?_
  dsimp only
  split
  · exact tame_pure fun hp => ⟨sound hp, trivial⟩
  · split
    · refine tame_resolve_bind sound fun live _ => ?_
      split
      · refine tame_ask_bind (tame_modify_bind
          (e.evolves_updateScope m.scope fun _ => rfl) ?_)
        exact tame_pure fun hp => ⟨(sound hp).updateScope m.scope fun _ => rfl, trivial⟩
      · exact tame_fail sound
    · exact tame_pure fun hp => ⟨sound hp, trivial⟩

omit hm given in
theorem tame_routeInvoke (caller : ClassRef) (id : TypeId) (kind : InvokeKind)
    (method : MethodRef) : e.Tame p (m.routeInvoke caller id kind method) fun _ _ => True := by
  refine tame_ask_bind ?_
  split
  · exact tame_pure fun hp => ⟨sound hp, trivial⟩
  · refine tame_bind (tame_liveTarget? sound id kind method) fun route e' _ ok => ?_
    have sound (hp : p) := (ok hp).1
    cases route with
    | none => exact tame_pure fun hp => ⟨sound hp, trivial⟩
    | some route =>
      refine tame_ofResult_bind sound fun _ _ => tame_check_bind sound fun _ _ => ?_
      split <;> exact tame_pure fun hp => ⟨sound hp, trivial⟩

end Calls

end Machine

end LiveUpdate
