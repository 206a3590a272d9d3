import LiveUpdate.Proofs.Evolving
import LiveUpdate.Proofs.Frames

/-!
# Runs let the heap evolve

The instructions of a body let the heap evolve, and so does a run of them, with any amount of
fuel.  What a frame holds exists if its arguments did, and what a read of a field puts onto
the stack may stand where the type is declared that the read names.
-/

set_option autoImplicit false

namespace LiveUpdate

open Exec
open Engine (Evolves tame_modify tame_modifyGet)

/-- What a frame holds exists. -/
structure Frame.Exists (f : Frame) (e : Engine) : Prop where
  locals : ∀ v ∈ f.locals, v.Exists e
  stack : ∀ v ∈ f.stack, v.Exists e

namespace Frame

variable {e e' : Engine} {f f' : Frame} {v : Value}

theorem Exists.mono (there : f.Exists e) (evolves : e.Evolves e') : f.Exists e' :=
  ⟨fun v mem => (there.locals v mem).mono evolves, fun v mem => (there.stack v mem).mono evolves⟩

theorem Exists.push (there : f.Exists e) (given : v.Exists e) : (f.push v).Exists e := by
  refine ⟨there.locals, fun w mem => ?_⟩
  rcases List.mem_cons.1 mem with rfl | mem
  · exact given
  · exact there.stack w mem

theorem Exists.pop (there : f.Exists e) (popped : f.pop = .ok (v, f')) :
    v.Exists e ∧ f'.Exists e := by
  unfold Frame.pop at popped
  split at popped
  next top rest stack =>
    cases popped
    have all := there.stack
    rw [stack] at all
    exact ⟨all _ List.mem_cons_self, there.locals, fun w mem => all w (List.mem_cons_of_mem _ mem)⟩
  next => cases popped

theorem Exists.popMany (there : f.Exists e) {count : Nat} {vs : List Value}
    (popped : f.popMany count = .ok (vs, f')) : (∀ v ∈ vs, v.Exists e) ∧ f'.Exists e := by
  unfold Frame.popMany at popped
  split at popped
  · cases popped
  · cases popped
    refine ⟨fun v mem => ?_, there.locals, fun v mem => ?_⟩
    · exact there.stack v (List.mem_of_mem_take (List.mem_reverse.1 mem))
    · exact there.stack v (List.mem_of_mem_drop mem)

theorem Exists.peek (there : f.Exists e) {depth : Nat} (found : f.peek depth = .ok v) :
    v.Exists e := by
  unfold Frame.peek at found
  split at found
  next held =>
    cases found
    exact there.stack _ (List.mem_of_getElem? held)
  next => cases found

theorem Exists.load (there : f.Exists e) {slot : Nat} (found : f.load slot = .ok v) :
    v.Exists e := by
  unfold Frame.load at found
  split at found
  next held =>
    cases found
    exact there.locals _ (List.mem_of_getElem? held)
  next => cases found

theorem Exists.store (there : f.Exists e) {slot : Nat} (given : v.Exists e)
    (stored : f.store slot v = .ok f') : f'.Exists e := by
  unfold Frame.store at stored
  split at stored
  · cases stored
    refine ⟨fun w mem => ?_, there.stack⟩
    rcases List.mem_or_eq_of_mem_set mem with held | rfl
    · exact there.locals w held
    · exact given
  · cases stored

theorem exists_enter {c : ClassRef} {method : Method} {args : List Value}
    (given : ∀ v ∈ args, v.Exists e) : (Frame.enter c method args).Exists e := by
  refine ⟨fun v mem => ?_, fun v mem => by cases mem⟩
  rcases List.mem_append.1 mem with held | padding
  · exact given v held
  · obtain rfl := List.eq_of_mem_replicate padding
    trivial

theorem Exists.arguments (there : f.Exists e) : ∀ v ∈ f.arguments, v.Exists e :=
  fun v mem => there.locals v (List.mem_of_mem_take mem)

theorem Exists.goTo (there : f.Exists e) (pc : Nat) : (f.goTo pc).Exists e :=
  ⟨there.locals, there.stack⟩

end Frame

namespace Step

variable {α β : Type} {e : Engine} {p : Prop} {f : Frame} {post : β × Frame → Engine → Prop}

/-- A frame in a heap that is sound: what it holds exists. -/
def Ready (p : Prop) (e : Engine) (f : Frame) : Prop := p → e.Sound ∧ f.Exists e

theorem Ready.sound (ready : Ready p e f) : p → e.Sound := fun hp => (ready hp).1

theorem Ready.mono {e' : Engine} {q : Prop} (ready : Ready p e f)
    (evolves : e.Evolves e') (ok : p → e'.Sound ∧ q) : Ready p e' f :=
  fun hp => ⟨(ok hp).1, (ready hp).2.mono evolves⟩

theorem tame_pure {b : β} (h : p → e.Sound ∧ post (b, f) e) :
    e.Tame p ((pure b : Step β) f) post :=
  Engine.tame_pure h

theorem tame_bind {mid : α × Frame → Engine → Prop} {x : Step α} {k : α → Step β}
    (hx : e.Tame p (x f) mid)
    (hk : ∀ a f' e', e.Evolves e' → (p → e'.Sound ∧ mid (a, f') e') →
      e'.Tame p (k a f') post) : e.Tame p ((x >>= k) f) post :=
  Engine.tame_bind hx fun r e' evolves ok => hk r.1 r.2 e' evolves ok

theorem tame_fail {error : RunError} (sound : p → e.Sound) :
    e.Tame p ((fail error : Step β) f) post :=
  (Engine.tame_fail sound : e.Tame p (Exec.fail error : Run (β × Frame)) post)

theorem tame_fail_bind {error : RunError} {k : α → Step β} (sound : p → e.Sound) :
    e.Tame p ((fail error >>= k) f) post :=
  (Engine.tame_fail sound : e.Tame p (Exec.fail error : Run (β × Frame)) post)

/-- The computations of a frame may be put together in either order. -/
theorem bind_bind {γ : Type} (x : Step α) (g : α → Step β) (k : β → Step γ) :
    (x >>= g) >>= k = x >>= fun a => g a >>= k := by
  funext f e
  rw [bind_apply, bind_apply, bind_apply]
  cases x f e with
  | ok next e' => exact (bind_apply (g next.1) k next.2 e').symm
  | error stop e' => rfl

/-- A computation that does not look at the frame goes on with the frame. -/
theorem lift_bind_eq (x : Run α) (k : α → Step β) (f : Frame) :
    ((liftM x : Step α) >>= k) f = (x >>= fun a => k a f) := by
  funext e
  rw [lift_bind]
  refine Eq.trans ?_ (Exec.bind_apply x (fun a => k a f) e).symm
  cases x e <;> rfl

theorem tame_lift_bind {mid : α → Engine → Prop} {x : Run α} {k : α → Step β}
    (hx : e.Tame p x mid)
    (hk : ∀ a e', e.Evolves e' → (p → e'.Sound ∧ mid a e') → e'.Tame p (k a f) post) :
    e.Tame p ((liftM x >>= k) f) post := by
  rw [lift_bind_eq]
  exact Engine.tame_bind hx hk

theorem tame_lift {mid : β → Engine → Prop} {x : Run β} (hx : e.Tame p x mid)
    (h : p → ∀ b e', e.Evolves e' → mid b e' → post (b, f) e') :
    e.Tame p ((liftM x : Step β) f) post :=
  Engine.tame_bind hx fun b e' evolves ok =>
    Engine.tame_pure fun hp => ⟨(ok hp).1, h hp b e' evolves (ok hp).2⟩

theorem tame_ask_bind {g : Engine → α} {k : α → Step β} (h : e.Tame p (k (g e) f) post) :
    e.Tame p ((ask g >>= k) f) post := by
  unfold ask
  rw [lift_bind_eq]
  exact Engine.tame_ask_bind h

theorem tame_check {g : Engine → Except RunError Unit} {post : Unit × Frame → Engine → Prop}
    (sound : p → e.Sound) (h : p → post ((), f) e) :
    e.Tame p (check g f) post := by
  have checked : e.Tame p (Exec.check g : Run Unit) fun _ e' => e' = e :=
    Engine.tame_check sound fun _ _ _ => rfl
  exact tame_lift checked fun hp _ e' _ same => same ▸ h hp

theorem tame_check_bind {g : Engine → Except RunError α} {k : α → Step β} (sound : p → e.Sound)
    (h : ∀ a, g e = .ok a → e.Tame p (k a f) post) : e.Tame p ((check g >>= k) f) post := by
  unfold check
  rw [lift_bind_eq]
  exact Engine.tame_check_bind sound h

theorem tame_get_bind {k : Frame → Step β} (h : e.Tame p (k f f) post) :
    e.Tame p ((get >>= k) f) post := h

theorem tame_onFrame_bind {g : Frame → Except RunError (α × Frame)} {k : α → Step β}
    (sound : p → e.Sound) (h : ∀ a f', g f = .ok (a, f') → e.Tame p (k a f') post) :
    e.Tame p ((onFrame g >>= k) f) post := by
  have step := fun e => onFrame_bind (f := f) (e := e) g k
  unfold Engine.Tame Engine.Ends
  rw [step]
  cases answer : g f with
  | ok r => exact h r.1 r.2 answer
  | error error => exact ⟨Evolves.refl e, sound⟩

theorem tame_push_bind {v : Value} {k : Unit → Step β} (h : e.Tame p (k () (f.push v)) post) :
    e.Tame p ((push v >>= k) f) post := h

section Stack

variable {k : α → Step β} (ready : Ready p e f)
include ready

theorem tame_pop_bind {k : Value → Step β}
    (h : ∀ v f', Ready p e f' → (p → v.Exists e) → e.Tame p (k v f') post) :
    e.Tame p ((pop >>= k) f) post :=
  tame_onFrame_bind ready.sound fun v f' popped =>
    h v f' (fun hp => ⟨(ready hp).1, ((ready hp).2.pop popped).2⟩)
      fun hp => ((ready hp).2.pop popped).1

theorem tame_popMany_bind (count : Nat) {k : List Value → Step β}
    (h : ∀ vs f', Ready p e f' → (p → ∀ v ∈ vs, v.Exists e) → e.Tame p (k vs f') post) :
    e.Tame p ((popMany count >>= k) f) post :=
  tame_onFrame_bind ready.sound fun vs f' popped =>
    h vs f' (fun hp => ⟨(ready hp).1, ((ready hp).2.popMany popped).2⟩)
      fun hp => ((ready hp).2.popMany popped).1

theorem tame_peek_bind {k : Value → Step β}
    (h : ∀ v, (p → v.Exists e) → e.Tame p (k v f) post) : e.Tame p ((peek >>= k) f) post := by
  refine tame_onFrame_bind ready.sound fun v f' found => ?_
  obtain ⟨v', held, same⟩ := bind_eq_ok.1 found
  cases same
  exact h v fun hp => (ready hp).2.peek held

theorem tame_popInt_bind {k : Int64 → Step β}
    (h : ∀ n f', Ready p e f' → e.Tame p (k n f') post) : e.Tame p ((popInt >>= k) f) post := by
  unfold popInt
  rw [bind_bind]
  exact tame_pop_bind ready fun v f' ready _ =>
    tame_check_bind ready.sound fun n _ => h n f' ready

theorem tame_popBool_bind {k : Bool → Step β}
    (h : ∀ b f', Ready p e f' → e.Tame p (k b f') post) : e.Tame p ((popBool >>= k) f) post := by
  unfold popBool
  rw [bind_bind]
  exact tame_pop_bind ready fun v f' ready _ =>
    tame_check_bind ready.sound fun b _ => h b f' ready

theorem tame_popArray_bind (use : NullUse) {k : ArrayRef → Step β}
    (h : ∀ a f', Ready p e f' → (p → a < e.arrays.size) → e.Tame p (k a f') post) :
    e.Tame p ((popArray use >>= k) f) post := by
  unfold popArray
  rw [bind_bind]
  refine tame_pop_bind ready fun v f' ready there => ?_
  cases v with
  | array a => exact h a f' ready there
  | _ => exact tame_fail_bind ready.sound

theorem tame_guarded_bind {k : Instr → Step β}
    (h : ∀ instr, f.method.code[f.pc + 1]? = some instr → e.Tame p (k instr f) post) :
    e.Tame p ((guarded >>= k) f) post := by
  unfold guarded
  rw [bind_bind]
  refine tame_get_bind ?_
  cases next : f.method.code[f.pc + 1]? with
  | none => exact tame_fail_bind ready.sound
  | some instr => exact h instr next

/-- A value that exists is put onto the stack. -/
theorem tame_push {v : Value} {post : Unit × Frame → Engine → Prop} (given : p → v.Exists e)
    (h : p → (f.push v).Exists e → post ((), f.push v) e) : e.Tame p (push v f) post :=
  Engine.tame_pure fun hp => ⟨(ready hp).1, h hp ((ready hp).2.push (given hp))⟩

/-- So is one that is not a reference. -/
theorem tame_push_plain {v : Value} (plain : ∀ e, v.Exists e) :
    e.Tame p (push v f) fun r e' => r.2.Exists e' :=
  tame_push ready (fun _ => plain e) fun _ there => there

theorem tame_pushResult {v : Value} (sig : MethodSig) (given : p → v.Exists e) :
    e.Tame p (pushResult sig v f) fun r e' => r.2.Exists e' := by
  unfold pushResult
  split
  · exact tame_push ready given fun _ there => there
  · exact tame_pure fun hp => ready hp

end Stack

end Step

namespace Machine

open Step

variable {m : Machine} {p : Prop} {e : Engine} {f : Frame}

/-- What a frame holds after a step exists. -/
def Held {α : Type} : α × Frame → Engine → Prop := fun r e => r.2.Exists e

/-- After an access of a field a frame holds what exists, and what a read has put onto the
stack may stand where the type is declared that the access names. -/
structure Accessed {α : Type} (access : FieldAccess) (sig : TypeSig) (r : α × Frame) (e : Engine) :
    Prop where
  held : r.2.Exists e
  read : access.isWrite = false → ∃ v rest, r.2.stack = v :: rest ∧ v.Fits e sig

/-- A value of a type was put onto the stack. -/
theorem tame_pushRead {access : FieldAccess} {sig : TypeSig} {v : Value} (ready : Ready p e f)
    (fits : p → v.Fits e sig) : e.Tame p (Step.push v f) (Accessed access sig) :=
  tame_push ready (fun hp => (fits hp).there) fun hp there =>
    ⟨there, fun _ => ⟨v, f.stack, rfl, fits hp⟩⟩

/-- Something was written. -/
theorem tame_written {access : FieldAccess} {sig : TypeSig} (write : access.isWrite = true)
    {x : Run Unit} (ready : Ready p e f) (hx : e.Tame p x fun _ _ => True) :
    e.Tame p ((liftM x : Step Unit) f) (Accessed access sig) :=
  tame_lift hx fun hp _ e' evolves _ =>
    ⟨(ready hp).2.mono evolves, fun read => by rw [write] at read; cases read⟩

theorem fieldReceiver_eq_ok {receiver : Value} {field : FieldRef} {o : ObjectRef}
    (ok : fieldReceiver receiver field = .ok o) : receiver = .object o := by
  unfold fieldReceiver at ok
  split at ok
  · cases ok
    rfl
  · cases ok

theorem checkConforms_eq_ok {value : Value} {sig : TypeSig}
    (ok : value.checkConforms e sig = .ok ()) : value.conforms e sig = true := by
  unfold Value.checkConforms at ok
  split at ok
  next conforms => exact conforms
  next => cases ok

theorem tame_arrayStore (ready : Ready p e f) : e.Tame p (arrayStore f) Held := by
  refine tame_pop_bind ready fun value f₁ ready given => ?_
  refine tame_popInt_bind ready fun index f₂ ready => ?_
  refine tame_popArray_bind ready _ fun a f₃ ready _ => ?_
  refine tame_check_bind ready.sound fun _ checked => ?_
  refine tame_check_bind ready.sound fun place _ => ?_
  have evolves : e.Evolves (e.updateArray a fun cell => cell.set place value) :=
    e.evolves_updateArray a fun _ => rfl
  have write : e.Tame p (modify fun e => e.updateArray a fun cell => cell.set place value :
      Run Unit) fun _ _ => True :=
    tame_modify evolves fun hp => ⟨(ready hp).1.setElement a
      ⟨given hp, fun _ => checkConforms_eq_ok checked⟩, trivial⟩
  exact tame_lift write fun hp _ e' evolves _ => (ready hp).2.mono evolves

theorem tame_newArray (element : TypeSig) (ready : Ready p e f) :
    e.Tame p (newArray element f) Held := by
  unfold newArray
  refine tame_popInt_bind ready fun length f' ready => ?_
  have allocate : e.Tame p (modifyGet fun e =>
      e.newArray ⟨element, Array.replicate length.toInt.toNat (.zeroOf element)⟩ : Run ArrayRef)
      fun a e' => (Value.array a).Exists e' := by
    refine tame_modifyGet (e.evolves_newArray _) fun hp => ⟨(ready hp).1.newArray _ _, ?_⟩
    show e.arrays.size < (e.arrays.push _).size
    rw [Array.size_push]
    exact Nat.lt_succ_self _
  dsimp only
  split
  · exact tame_fail_bind ready.sound
  · exact tame_lift_bind allocate fun a e' evolves ok =>
      tame_push (ready.mono evolves ok) (fun hp => (ok hp).2) fun _ there => there

theorem tame_accessHost (hm : m.Tame p) (access : FieldAccess) (field : FieldRef)
    (ready : Ready p e f) : e.Tame p (m.accessHost access field f) (Accessed access field.sig) := by
  refine tame_get_bind (tame_lift_bind (tame_hostField _ access field ready.sound)
    fun host e₁ evolves ok => ?_)
  have ready := ready.mono evolves ok
  have means (hp : p) : HostMeans access field host e₁ := (ok hp).2
  cases access with
  | get =>
    refine tame_pop_bind ready fun receiver f₁ ready there => ?_
    refine tame_check_bind ready.sound fun o same => tame_check_bind ready.sound fun v answer => ?_
    obtain rfl := fieldReceiver_eq_ok same
    refine tame_pushRead ready fun hp => ?_
    rw [← (means hp).sig]
    exact fits_readSlot (ready hp).1 (there hp) ((means hp).holds.slots (means hp).static) answer
  | put =>
    refine tame_pop_bind ready fun value f₁ ready given => ?_
    refine tame_pop_bind ready fun receiver f₂ ready _ => ?_
    refine tame_check_bind ready.sound fun o _ => tame_check_bind ready.sound fun _ checked => ?_
    exact tame_written rfl ready (tame_writeSlot o _ ready.sound
      (fun hp => (means hp).holds.slots (means hp).static)
      fun hp => ⟨given hp, fun _ => checkConforms_eq_ok checked⟩)
  | getStatic =>
    refine tame_lift_bind (tame_ensureInitialized hm host.cls ready.sound)
      fun _ e₂ evolves ok => ?_
    have ready := ready.mono evolves ok
    refine tame_check_bind ready.sound fun v answer => tame_pushRead ready fun hp => ?_
    rw [← (means hp).sig]
    refine fits_readStatic (ready hp).1 (fun slot declared => ?_) answer
    rw [evolves.during.staticFields, (means hp).holds.static (means hp).static] at declared
    cases declared
    rfl
  | putStatic =>
    refine tame_pop_bind ready fun value f₁ ready given => ?_
    refine tame_check_bind ready.sound fun _ checked => ?_
    refine tame_lift_bind (tame_ensureInitialized hm host.cls ready.sound)
      fun _ e₂ evolves ok => ?_
    refine tame_written rfl (ready.mono evolves ok)
      (tame_writeStatic host.cls (fun hp => (ok hp).1) fun hp slot declared => ?_)
    rw [evolves.during.staticFields, (means hp).holds.static (means hp).static] at declared
    cases declared
    have fits : value.Fits e₁ host.slot.sig :=
      ⟨given hp, fun _ => checkConforms_eq_ok checked⟩
    exact fits.mono evolves

theorem tame_accessLive (hm : m.Tame p) (access : FieldAccess) (field : FieldRef)
    {live : LiveField} (ready : Ready p e f) (means : p → LiveMeans access field live e) :
    e.Tame p (m.accessLive access field live f) (Accessed access field.sig) := by
  have backs (hp : p) := (means hp).backs
  have sound := ready.sound
  cases access with
  | get =>
    refine tame_pop_bind ready fun receiver f₁ ready there => ?_
    refine tame_check_bind sound fun o same => ?_
    obtain rfl := fieldReceiver_eq_ok same
    refine tame_lift_bind (tame_readField hm live (some o) sound backs fun hp o' same => ?_)
      fun v e' evolves ok => tame_pushRead (ready.mono evolves ok) fun hp => ?_
    · cases same
      exact there hp
    · rw [← (means hp).sig]
      exact (ok hp).2
  | put =>
    refine tame_pop_bind ready fun value f₁ ready given => ?_
    refine tame_pop_bind ready fun receiver f₂ ready there => ?_
    refine tame_check_bind sound fun o same => ?_
    obtain rfl := fieldReceiver_eq_ok same
    refine tame_written rfl ready
      (tame_writeField hm live (some o) sound backs (fun hp o' same => ?_) given)
    cases same
    exact there hp
  | getStatic =>
    refine tame_lift_bind (tame_readField hm live none sound backs fun _ _ held => by cases held)
      fun v e' evolves ok => tame_pushRead (ready.mono evolves ok) fun hp => ?_
    rw [← (means hp).sig]
    exact (ok hp).2
  | putStatic =>
    refine tame_pop_bind ready fun value f₁ ready given => ?_
    exact tame_written rfl ready
      (tame_writeField hm live none sound backs (fun _ _ held => by cases held) given)

theorem tame_accessPrivileged (hm : m.Tame p) (access : FieldAccess) (id : TypeId)
    (field : FieldRef) (ready : Ready p e f) :
    e.Tame p (m.accessPrivileged access id field f) (Accessed access field.sig) := by
  refine tame_check_bind ready.sound fun type _ => ?_
  cases type.native with
  | none => exact Step.tame_fail ready.sound
  | some owner =>
    exact tame_lift_bind (tame_liveField owner access field ready.sound)
      fun live e' evolves ok =>
        tame_accessLive hm access field (ready.mono evolves ok) fun hp => (ok hp).2

/-- After an instruction a frame holds what exists, and so does what it returns. -/
structure Stepped (r : Flow × Frame) (e : Engine) : Prop where
  held : r.2.Exists e
  returned : ∀ v, r.1 = .ret v → v.Exists e

/-- After a check in front of a field access that made the access the frame is as after the
access. -/
structure FieldChecked (f : Frame) (r : Flow × Frame) (e : Engine) : Prop extends
    Stepped r e where
  accessed : ∀ access field, f.method.code[f.pc + 1]? = some (.access access field) →
    r.1 = .skip → Accessed access field.sig r e

theorem tame_checkField (hm : m.Tame p) (ready : Ready p e f) :
    e.Tame p (m.checkField f) (FieldChecked f) := by
  refine tame_guarded_bind ready fun instr next => ?_
  cases instr with
  | access access field =>
    refine tame_get_bind ?_
    refine tame_lift_bind (tame_routeField f.cls access field ready.sound)
      fun route e' evolves ok => ?_
    have ready := ready.mono evolves ok
    cases route with
    | native =>
      exact Step.tame_pure fun hp => ⟨(ready hp).1, ⟨(ready hp).2, fun v same => by cases same⟩,
        fun _ _ _ same => by cases same⟩
    | managed live =>
      refine Step.tame_bind (tame_accessLive hm access field ready fun hp => (ok hp).2 live rfl)
        fun _ f' e' _ ok => Step.tame_pure fun hp => ⟨(ok hp).1, ?_⟩
      have accessed := (ok hp).2
      refine ⟨⟨accessed.held, fun v same => by cases same⟩, fun access' field' same _ => ?_⟩
      cases next.symm.trans same
      exact ⟨accessed.held, accessed.read⟩
  | _ => exact Step.tame_fail ready.sound

theorem tame_checkInvoke (hm : m.Tame p) (id : TypeId) (ready : Ready p e f) :
    e.Tame p (m.checkInvoke id f) Stepped := by
  refine tame_guarded_bind ready fun instr _ => ?_
  cases instr with
  | invoke kind method =>
    refine tame_get_bind ?_
    refine tame_lift_bind (tame_routeInvoke ready.sound f.cls id kind method)
      fun route e' evolves ok => ?_
    have ready := ready.mono evolves ok
    cases route with
    | native =>
      exact Step.tame_pure fun hp => ⟨(ready hp).1, (ready hp).2, fun v same => by cases same⟩
    | dynamic live =>
      refine tame_popMany_bind ready _ fun args f' ready given => ?_
      refine tame_lift_bind (tame_callDynamic hm ready.sound given f.cls kind method live)
        fun v e' evolves ok => ?_
      refine Step.tame_bind (tame_pushResult (ready.mono evolves ok) method.sig fun hp => (ok hp).2)
        fun _ f' e' _ ok => ?_
      exact Step.tame_pure fun hp => ⟨(ok hp).1, (ok hp).2, fun v same => by cases same⟩
  | _ => exact Step.tame_fail ready.sound

/-- The depth plays no part in what exists. -/
theorem tame_setDepth {x y : Run Value} {down : Nat} {back : Engine → Nat}
    (runs : y e = match x { e with depth := down } with
      | .ok v e' => .ok v { e' with depth := back e' }
      | .error stop e' => .error stop { e' with depth := back e' })
    (hx : ({ e with depth := down } : Engine).Tame p x Value.Answered) :
    e.Tame p y Value.Answered := by
  have there := e.evolves_setDepth down
  unfold Engine.Tame Engine.Ends at *
  rw [runs]
  cases run : x { e with depth := down } with
  | ok v e' =>
    rw [run] at hx
    have again := e'.evolves_setDepth (back e')
    exact ⟨there.trans (hx.1.trans again), fun hp =>
      ⟨(hx.2 hp).1.setDepth _, Value.Exists.mono (hx.2 hp).2 again⟩⟩
  | error stop e' =>
    rw [run] at hx
    exact ⟨there.trans (hx.1.trans (e'.evolves_setDepth (back e'))),
      fun hp => (hx.2 hp).setDepth _⟩

/-- What runs in the place of a body is a call with the same arguments, or fails. -/
theorem tame_replacement (hm : m.Tame p) {e' : Engine} {id : TypeId} {slot : Nat} {host : Method}
    {args : List Value} {x : Run Value} (replaced : m.replacement? e id slot host args = some x)
    (sound : p → e'.Sound) (given : p → ∀ v ∈ args, v.Exists e') :
    e'.Tame p x Value.Answered := by
  unfold replacement? at replaced
  obtain ⟨t, -, replaced⟩ := Option.bind_eq_some_iff.1 replaced
  obtain ⟨version, -, replaced⟩ := Option.bind_eq_some_iff.1 replaced
  obtain ⟨entry, -, replaced⟩ := Option.bind_eq_some_iff.1 replaced
  cases entry with
  | host => cases replaced
  | executor method =>
    dsimp only at replaced
    split at replaced
    · cases replaced
      exact Engine.tame_fail sound
    · split at replaced
      · cases replaced
        exact Engine.tame_fail sound
      · cases replaced
        exact hm e' _ method args sound given
  | deleted =>
    dsimp only at replaced
    split at replaced
    · cases replaced
      exact Engine.tame_fail sound
    · cases replaced
      exact tame_callInherited hm sound given t _
  | abstract =>
    cases replaced
    exact Engine.tame_fail sound

theorem tame_checkEntry (hm : m.Tame p) (id : TypeId) (slot : Nat) (ready : Ready p e f) :
    e.Tame p (m.checkEntry id slot f) Stepped := by
  have apply := m.checkEntry_apply (e := e) id slot f
  cases replaced : m.replacement? e id slot f.method f.arguments with
  | none =>
    rw [replaced] at apply
    unfold Engine.Tame Engine.Ends
    rw [apply]
    exact ⟨Evolves.refl e, fun hp => ⟨(ready hp).1, (ready hp).2, fun v same => by cases same⟩⟩
  | some x =>
    rw [replaced] at apply
    have down := e.evolves_setDepth (e.depth - 1)
    have call : e.Tame p (forwarding x) Value.Answered :=
      tame_setDepth (atDepth_apply _ _ _) (tame_replacement hm replaced
        (fun hp => (ready hp).1.setDepth _)
        fun hp v mem => ((ready hp).2.arguments v mem).mono down)
    unfold Engine.Tame Engine.Ends at *
    rw [apply]
    dsimp only
    cases run : forwarding x e with
    | ok v e' =>
      rw [run] at call
      refine ⟨call.1, fun hp => ⟨(call.2 hp).1, (ready hp).2.mono call.1, fun w same => ?_⟩⟩
      cases same
      exact (call.2 hp).2
    | error stop e' =>
      rw [run] at call
      exact call

theorem tame_callSpecialLive (hm : m.Tame p) (id : TypeId) (method : MethodRef)
    (ready : Ready p e f) : e.Tame p (m.callSpecialLive id method f) Held := by
  refine tame_check_bind ready.sound fun t _ => tame_ask_bind ?_
  cases (e.typeAt t).live.shape.method? method.key with
  | none => exact Step.tame_fail ready.sound
  | some shape =>
    refine tame_popMany_bind ready _ fun args f' ready given => ?_
    exact tame_lift_bind (tame_callPrivileged hm ready.sound given t method)
      fun v e' evolves ok => tame_pushResult (ready.mono evolves ok) _ fun hp => (ok hp).2

theorem tame_callSuperLive (hm : m.Tame p) (id : TypeId) (method : MethodRef)
    (ready : Ready p e f) : e.Tame p (m.callSuperLive id method f) Held := by
  refine tame_check_bind ready.sound fun t _ => ?_
  refine tame_popMany_bind ready _ fun args f' ready given => ?_
  exact tame_lift_bind (tame_callInherited hm ready.sound given t _)
    fun v e' evolves ok => tame_pushResult (ready.mono evolves ok) _ fun hp => (ok hp).2

theorem tame_invokeHost (hm : m.Tame p) (kind : InvokeKind) (method : MethodRef)
    (ready : Ready p e f) : e.Tame p (m.invokeHost kind method f) Held := by
  refine tame_popMany_bind ready _ fun args f' ready given => tame_get_bind ?_
  exact tame_lift_bind (tame_callNative hm ready.sound given f'.cls kind method)
    fun v e' evolves ok => tame_pushResult (ready.mono evolves ok) _ fun hp => (ok hp).2

/-- Arithmetic gives numbers. -/
theorem exists_of_arith {op : ArithOp} {a b v : Value} (ok : a.arith e op b = .ok v)
    (e' : Engine) : v.Exists e' := by
  obtain ⟨operands, -, ok⟩ := bind_eq_ok.1 ok
  cases operands with
  | ints a b =>
    obtain ⟨n, -, same⟩ := bind_eq_ok.1 ok
    cases same
    trivial
  | floats a b =>
    cases ok
    trivial

theorem exists_of_negate {a v : Value} (ok : a.negate e = .ok v) (e' : Engine) : v.Exists e' := by
  cases a <;> cases ok <;> trivial

/-- What stands in an array exists. -/
theorem exists_arrayGet {a : ArrayRef} {place : Nat} (sound : e.Sound) (there : a < e.arrays.size) :
    ((e.arrayAt a).get place).Exists e := by
  have typed := sound.typed.arrays a there
  unfold ArrayCell.get
  rw [Array.getD_eq_getD_getElem?]
  cases held : (e.arrayAt a).items[place]? with
  | none => trivial
  | some v => exact (typed v (Array.mem_of_getElem? held)).there

theorem Accessed.toHeld {access : FieldAccess} {sig : TypeSig} :
    ∀ (r : Unit × Frame) (e' : Engine), Accessed access sig r e' → Held r e' :=
  fun _ _ accessed => accessed.held

theorem tame_executePlain (hm : m.Tame p) (instr : Instr) (ready : Ready p e f) :
    e.Tame p (m.executePlain instr f) Held := by
  cases instr with
  | pop =>
    show e.Tame p ((Step.pop >>= fun _ => pure ()) f) Held
    exact tame_pop_bind ready fun v f' ready _ => Step.tame_pure fun hp => ready hp
  | dup =>
    exact tame_peek_bind ready fun v there => tame_push ready there fun _ held => held
  | swap =>
    refine tame_pop_bind ready fun a f₁ ready there => ?_
    refine tame_pop_bind ready fun b f₂ ready there' => tame_push_bind ?_
    have pushed : Ready p e (f₂.push a) := fun hp => ⟨(ready hp).1, (ready hp).2.push (there hp)⟩
    exact tame_push pushed there' fun _ held => held
  | constNull | constBool _ | constInt _ | constFloat _ | constStr _ =>
    exact tame_push_plain ready fun _ => trivial
  | load slot =>
    refine tame_onFrame_bind ready.sound fun v f' found => ?_
    obtain ⟨v', held, same⟩ := bind_eq_ok.1 found
    cases same
    exact tame_push ready (fun hp => (ready hp).2.load held) fun _ held => held
  | store slot =>
    refine tame_pop_bind ready fun v f₁ ready there => ?_
    unfold Engine.Tame Engine.Ends
    rw [onFrame_apply]
    cases stored : f₁.store slot.toNat v with
    | error error => exact ⟨Evolves.refl e, ready.sound⟩
    | ok f' =>
      exact ⟨Evolves.refl e, fun hp => ⟨(ready hp).1, (ready hp).2.store (there hp) stored⟩⟩
  | arith op =>
    refine tame_pop_bind ready fun b f₁ ready _ => tame_pop_bind ready fun a f₂ ready _ => ?_
    exact tame_check_bind ready.sound fun v ok => tame_push_plain ready (exists_of_arith ok)
  | neg =>
    refine tame_pop_bind ready fun a f₁ ready _ => ?_
    exact tame_check_bind ready.sound fun v ok => tame_push_plain ready (exists_of_negate ok)
  | concat =>
    refine tame_pop_bind ready fun b f₁ ready _ => tame_pop_bind ready fun a f₂ ready _ => ?_
    exact tame_ask_bind (tame_push_plain ready fun _ => trivial)
  | compare op =>
    refine tame_pop_bind ready fun b f₁ ready _ => tame_pop_bind ready fun a f₂ ready _ => ?_
    exact tame_check_bind ready.sound fun v _ => tame_push_plain ready fun _ => trivial
  | not =>
    exact tame_popBool_bind ready fun b f' ready => tame_push_plain ready fun _ => trivial
  | new typeName =>
    exact tame_lift_bind (tame_instantiate hm typeName ready.sound) fun o e' evolves ok =>
      tame_push (ready.mono evolves ok) (fun hp => (ok hp).2) fun _ held => held
  | newArray element => exact tame_newArray element ready
  | arrayLoad =>
    refine tame_popInt_bind ready fun index f₁ ready => ?_
    refine tame_popArray_bind ready _ fun a f₂ ready there => ?_
    refine tame_check_bind ready.sound fun place _ => tame_ask_bind ?_
    exact tame_push ready (fun hp => exists_arrayGet (ready hp).1 (there hp)) fun _ held => held
  | arrayStore => exact tame_arrayStore ready
  | arrayLength =>
    exact tame_popArray_bind ready _ fun a f' ready _ =>
      tame_ask_bind (tame_push_plain ready fun _ => trivial)
  | instanceOf typeName =>
    exact tame_pop_bind ready fun v f' ready _ =>
      tame_ask_bind (tame_push_plain ready fun _ => trivial)
  | checkCast typeName =>
    refine tame_peek_bind ready fun v _ => ?_
    exact tame_check ready.sound fun hp => (ready hp).2
  | invoke kind method => exact tame_invokeHost hm kind method ready
  | access access field => exact (tame_accessHost hm access field ready).weaken Accessed.toHeld
  | liveAccess access id field =>
    exact (tame_accessPrivileged hm access id field ready).weaken Accessed.toHeld
  | liveSpecial id method => exact tame_callSpecialLive hm id method ready
  | liveSuper id method | liveInit id method => exact tame_callSuperLive hm id method ready
  | nop | jump _ | jumpIf _ _ | ret | retValue | entryCheck _ _ | invokeCheck _ | fieldCheck _ =>
    exact Step.tame_pure fun hp => ready hp

theorem tame_execute (hm : m.Tame p) (instr : Instr) (ready : Ready p e f) :
    e.Tame p (m.execute instr f) Stepped := by
  have onward {f' : Frame} {e' : Engine} {flow : Flow} (ready : Ready p e' f')
      (stays : ∀ v, flow ≠ .ret v) : e'.Tame p ((pure flow : Step Flow) f') Stepped :=
    Step.tame_pure fun hp => ⟨(ready hp).1, (ready hp).2, fun v same => absurd same (stays v)⟩
  cases instr with
  | jump target => exact onward ready fun v same => by cases same
  | jumpIf cond target =>
    refine tame_popBool_bind ready fun b f' ready => onward ready fun v same => ?_
    split at same <;> cases same
  | ret =>
    refine Step.tame_pure fun hp => ⟨(ready hp).1, (ready hp).2, fun v same => ?_⟩
    cases same
    trivial
  | retValue =>
    refine tame_pop_bind ready fun v f' ready there => ?_
    refine Step.tame_pure fun hp => ⟨(ready hp).1, (ready hp).2, fun w same => ?_⟩
    cases same
    exact there hp
  | entryCheck id slot => exact tame_checkEntry hm id _ ready
  | invokeCheck id => exact tame_checkInvoke hm id ready
  | fieldCheck id => exact (tame_checkField hm ready).weaken fun _ _ checked => checked.toStepped
  | _ =>
    exact Step.tame_bind (tame_executePlain hm _ ready) fun _ f' e' _ ok =>
      onward ok fun v same => by cases same

theorem tame_run (hm : m.Tame p) (fuel : Nat) (ready : Ready p e f) :
    e.Tame p (m.run fuel f) Value.Answered := by
  -- Every instruction leaves a frame that is ready for the next one in the heap that it leaves.
  induction fuel generalizing e f with
  | zero => exact Engine.tame_throw ready.sound
  | succ fuel ih =>
    unfold run
    split
    · split
      · exact Engine.tame_fail ready.sound
      · exact Engine.tame_pure fun hp => ⟨(ready hp).1, trivial⟩
    · refine Engine.tame_bind (tame_execute hm _ ready) fun next e' _ ok => ?_
      obtain ⟨flow, f'⟩ := next
      have on (pc : Nat) : Ready p e' (f'.goTo pc) :=
        fun hp => ⟨(ok hp).1, (ok hp).2.held.goTo pc⟩
      cases flow with
      | next | skip | jump _ => exact ih (on _)
      | ret value => exact Engine.tame_pure fun hp => ⟨(ok hp).1, (ok hp).2.returned value rfl⟩

theorem tame_enter (hm : m.Tame p) (fuel : Nat) (c : ClassRef) (method : Method)
    {args : List Value} (sound : p → e.Sound) (given : p → ∀ v ∈ args, v.Exists e) :
    e.Tame p (m.enter fuel c method args) Value.Answered := by
  have deeper {e' : Engine} (sound : p → e'.Sound) (given : p → ∀ v ∈ args, v.Exists e') :
      e'.Tame p (m.runDeeper fuel (.enter c method args)) Value.Answered := by
    have inner := tame_setDepth (counted_apply _ e') (tame_run hm fuel (e := { e' with
        depth := e'.depth + 1 }) (f := .enter c method args) fun hp =>
      ⟨(sound hp).setDepth _, (Frame.exists_enter (given hp)).mono (e'.evolves_setDepth _)⟩)
    unfold Engine.Tame Engine.Ends runDeeper at *
    by_cases full : (e'.scopeAt m.scope).options.maxCallDepth ≤ e'.depth
    · rw [if_pos full]
      exact ⟨Evolves.refl e', sound⟩
    · rw [if_neg full]
      exact inner
  by_cases abstract : method.isAbstract = true
  · rw [enter_abstract fuel c args abstract]
    exact Engine.tame_fail sound
  · have concrete : method.isAbstract = false := by simpa using abstract
    by_cases fits : args.length = method.argCount
    · rw [enter_eq fuel c concrete fits]
      unfold enterBody
      split
      · exact Engine.tame_bind (tame_ensureInitialized hm c sound) fun _ e' evolves ok =>
          deeper (fun hp => (ok hp).1) fun hp v mem => (given hp v mem).mono evolves
      · exact deeper sound given
    · rw [enter_misfit fuel c concrete fits]
      exact Engine.tame_fail sound

end Machine

/-- Calls are tame, with any amount of fuel. -/
theorem tame_of (p : Prop) (s : ScopeRef) (fuel : Nat) : (Machine.of s fuel).Tame p := by
  -- A machine calls with the fuel of the machine below it.
  induction fuel with
  | zero => exact fun _ _ _ _ sound _ => Engine.tame_throw sound
  | succ fuel ih =>
    exact fun _ c method _ sound given => Machine.tame_enter ih fuel c method sound given

end LiveUpdate
