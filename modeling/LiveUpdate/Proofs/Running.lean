import LiveUpdate.Proofs.LawfulCalls

/-!
# Running code obeys

Whatever instructions run, they obey every law: a guard is executed where the law knows it, and
everything else only writes and calls.  The proof goes through the instructions one by one, and
calls are then dealt with by induction on the fuel.  The first law is that the skeleton stays:
the classes keep their methods, the managed types their versions and the scopes their names.
-/

set_option autoImplicit false

namespace LiveUpdate

open Exec

namespace Step

variable {α β : Type} {holds : Engine → Prop} {mid : α → Prop} {post : β → Prop}

/-- A computation inside a frame obeys, whatever the frame is, and leaves its method. -/
def Obeys (holds : Engine → Prop) (x : Step α) (post : α → Prop) : Prop :=
  ∀ f, Exec.Obeys holds (x f) fun r => r.2.method = f.method ∧ post r.1

theorem obeys_pure {b : β} (h : post b) : Obeys holds (pure b : Step β) post :=
  fun _ => Exec.obeys_pure ⟨rfl, h⟩

theorem obeys_bind {x : Step α} {k : α → Step β} (hx : Obeys holds x mid)
    (hk : ∀ a, mid a → Obeys holds (k a) post) : Obeys holds (x >>= k) post := fun f =>
  Exec.obeys_bind (hx f) fun r h =>
    (hk r.1 h.2 r.2).weaken fun _ done => ⟨done.1.trans h.1, done.2⟩

/-- A computation that does not look at the frame. -/
theorem obeys_lift {x : Run β} (hx : Exec.Obeys holds x post) :
    Obeys holds (liftM x : Step β) post :=
  fun _ => Exec.obeys_bind hx fun _ h => Exec.obeys_pure ⟨rfl, h⟩

theorem obeys_get_bind {k : Frame → Step β} (hk : ∀ f, Obeys holds (k f) post) :
    Obeys holds (get >>= k) post := fun f => hk f f

/-- A question about the frame that leaves its method. -/
theorem obeys_onFrame {g : Frame → Except RunError (β × Frame)}
    (same : ∀ f b f', g f = .ok (b, f') → f'.method = f.method) :
    Obeys holds (onFrame g) fun _ => True := by
  intro f
  have answers : Exec.Obeys holds (ofResult (g f) : Run (β × Frame))
      fun r => r.2.method = f.method :=
    Exec.obeys_ofResult fun r answer => same f r.1 r.2 answer
  exact Exec.obeys_bind (obeys_lift answers f) fun r h => Exec.obeys_pure ⟨h.2, True.intro⟩

theorem obeys_ask {g : Engine → β} : Obeys holds (ask g) fun _ => True :=
  obeys_lift (Exec.obeys_ask fun _ _ => True.intro)

/-- What is asked is asked of an engine of which the condition holds. -/
theorem obeys_ask_bind {g : Engine → α} {k : α → Step β}
    (hk : ∀ e, holds e → Obeys holds (k (g e)) post) : Obeys holds (ask g >>= k) post :=
  fun f e he => hk e he f e he

theorem obeys_check {g : Engine → Except RunError β} : Obeys holds (check g) fun _ => True :=
  obeys_lift Exec.obeys_checked

theorem obeys_fail (error : RunError) : Obeys holds (fail error : Step β) fun _ => True :=
  obeys_lift (Exec.obeys_fail error)

theorem obeys_push (value : Value) : Obeys holds (push value) fun _ => True :=
  fun _ => Exec.obeys_pure ⟨rfl, True.intro⟩

theorem obeys_pop : Obeys holds pop fun _ => True := by
  refine obeys_onFrame fun f v f' popped => ?_
  unfold Frame.pop at popped
  split at popped <;> cases popped
  rfl

theorem obeys_popMany (count : Nat) : Obeys holds (popMany count) fun _ => True := by
  refine obeys_onFrame fun f vs f' popped => ?_
  unfold Frame.popMany at popped
  split at popped <;> cases popped
  rfl

/-- A look at a frame leaves it as it is. -/
theorem obeys_look (g : Frame → Except RunError β) :
    Obeys holds (onFrame fun f => return (← g f, f)) fun _ => True := by
  refine obeys_onFrame fun f v f' looked => ?_
  obtain ⟨b, -, same⟩ := bind_eq_ok.1 looked
  cases same
  rfl

theorem obeys_store (slot : Nat) (value : Value) :
    Obeys holds (onFrame fun f => return ((), ← f.store slot value)) fun _ => True := by
  refine obeys_onFrame fun f u f' stored => ?_
  obtain ⟨g, stored, same⟩ := bind_eq_ok.1 stored
  cases same
  unfold Frame.store at stored
  split at stored <;> cases stored
  rfl

theorem obeys_popInt : Obeys holds popInt fun _ => True :=
  obeys_bind obeys_pop fun _ _ => obeys_check

theorem obeys_popBool : Obeys holds popBool fun _ => True :=
  obeys_bind obeys_pop fun _ _ => obeys_check

theorem obeys_popArray (use : NullUse) : Obeys holds (popArray use) fun _ => True := by
  refine obeys_bind obeys_pop fun value _ => ?_
  split
  · exact obeys_pure True.intro
  · exact obeys_fail _

theorem obeys_pushResult (sig : MethodSig) (value : Value) :
    Obeys holds (pushResult sig value) fun _ => True := by
  unfold pushResult
  split
  · exact obeys_push value
  · exact obeys_pure True.intro

/-- In a frame, only that its method stays. -/
theorem Obeys.within {x : Step β} (hx : Obeys holds x post) (f : Frame) :
    Exec.Obeys holds (x f) fun r => r.2.method = f.method :=
  (hx f).weaken fun _ done => done.1

/-- What looks at the frame that it runs in. -/
theorem obeys_get_within {k : Frame → Step β} {f : Frame} {done : β × Frame → Prop}
    (h : Exec.Obeys holds (k f f) done) : Exec.Obeys holds ((get >>= k) f) done := h

/-- A guard finds the instruction behind it. -/
theorem obeys_guarded_bind {k : Instr → Step β} {f : Frame}
    (hk : ∀ instr, f.method.code[f.pc + 1]? = some instr →
      Exec.Obeys holds (k instr f) fun r => r.2.method = f.method) :
    Exec.Obeys holds ((guarded >>= k) f) fun r => r.2.method = f.method := by
  have finds : Exec.Obeys holds (guarded f) fun r =>
      r.2 = f ∧ f.method.code[f.pc + 1]? = some r.1 := by
    unfold guarded
    refine obeys_get_within ?_
    cases next : f.method.code[f.pc + 1]? with
    | none => exact Exec.obeys_fail _
    | some instr => exact Exec.obeys_pure ⟨rfl, rfl⟩
  refine Exec.obeys_bind finds fun r found => ?_
  obtain ⟨instr, f'⟩ := r
  obtain ⟨rfl, next⟩ := found
  exact hk instr next

end Step

namespace Machine

open Step (obeys_pop obeys_popMany obeys_popInt obeys_popBool obeys_popArray obeys_push
  obeys_pushResult obeys_lift)

/-- Run a computation as if another number of calls were running, and set the number back
afterwards. -/
def atDepth (g : Nat → Nat) (x : Run Value) : Run Value := do
  let depth ← ask Engine.depth
  modify fun e => { e with depth := g depth }
  try x
  finally modify fun e => { e with depth }

theorem atDepth_apply (g : Nat → Nat) (x : Run Value) (e : Engine) :
    atDepth g x e = match x { e with depth := g e.depth } with
      | .ok value e' => .ok value { e' with depth := e.depth }
      | .error stop e' => .error stop { e' with depth := e.depth } := by
  unfold atDepth
  rw [bind_apply, ask_apply]
  dsimp only
  rw [bind_apply, modify_apply]
  dsimp only
  rw [finally_modify_apply]
  cases x { e with depth := g e.depth } <;> rfl

/-- The forwarding frame does not count. -/
theorem forwarding_eq (call : Run Value) : forwarding call = atDepth (· - 1) call := rfl

variable {law : Law} {m : Machine}

/-- A computation at another depth obeys, because the depth is set back. -/
theorem obeys_atDepth {x : Run Value} {post : Value → Prop} (hx : Exec.Obeys law.holds x post)
    (g : Nat → Nat) : Exec.Obeys law.holds (atDepth g x) post := by
  intro e he
  have ends := hx { e with depth := g e.depth } (law.writes (e.writes_setDepth _) he)
  unfold Engine.Ends at ends ⊢
  rw [atDepth_apply]
  cases run : x { e with depth := g e.depth } with
  | ok value e' =>
    rw [run] at ends
    exact ⟨⟨law.writes (e'.writes_setDepth _) ends.1.1, rfl⟩, ends.2⟩
  | error stop e' =>
    rw [run] at ends
    exact ⟨law.writes (e'.writes_setDepth _) ends.1, rfl⟩

theorem counted_apply (x : Run Value) (e : Engine) :
    counted x e = match x { e with depth := e.depth + 1 } with
      | .ok value e' => .ok value { e' with depth := e'.depth - 1 }
      | .error stop e' => .error stop { e' with depth := e'.depth - 1 } := by
  unfold counted
  rw [bind_apply, modify_apply]
  dsimp only
  rw [finally_modify_apply]
  cases x { e with depth := e.depth + 1 } <;> rfl

/-- A running call obeys, because what it leaves is at the depth to which it was counted. -/
theorem obeys_counted {x : Run Value} {post : Value → Prop}
    (hx : Exec.Obeys law.holds x post) : Exec.Obeys law.holds (counted x) post := by
  intro e he
  have ends := hx { e with depth := e.depth + 1 } (law.writes (e.writes_setDepth _) he)
  unfold Engine.Ends at ends ⊢
  rw [counted_apply]
  cases run : x { e with depth := e.depth + 1 } with
  | ok value e' =>
    rw [run] at ends
    exact ⟨⟨law.writes (e'.writes_setDepth _) ends.1.1, congrArg (· - 1) ends.1.2⟩, ends.2⟩
  | error stop e' =>
    rw [run] at ends
    exact ⟨law.writes (e'.writes_setDepth _) ends.1, congrArg (· - 1) ends.2⟩

theorem obeys_arrayStore : Step.Obeys law.holds arrayStore fun _ => True :=
  Step.obeys_bind obeys_pop fun _ _ => Step.obeys_bind obeys_popInt fun _ _ =>
    Step.obeys_bind (obeys_popArray _) fun _ _ => Step.obeys_bind Step.obeys_check fun _ _ =>
      Step.obeys_bind Step.obeys_check fun _ _ =>
        obeys_lift (Law.obeys_writes (fun e => e.writes_updateArray _ _) fun _ => rfl)

theorem obeys_newArray (element : TypeSig) :
    Step.Obeys law.holds (newArray element) fun _ => True := by
  refine Step.obeys_bind obeys_popInt fun length _ => ?_
  have allocate : Step.Obeys law.holds (do
      let a ← modifyGetThe Engine fun e =>
        e.newArray ⟨element, Array.replicate length.toInt.toNat (.zeroOf element)⟩
      Step.push (.array a) : Step Unit) fun _ => True :=
    Step.obeys_bind (obeys_lift (Law.obeys_writesGet (fun e => e.writes_newArray _) fun _ => rfl))
      fun _ _ => obeys_push _
  dsimp only
  split
  · exact Step.obeys_bind (Step.obeys_fail _) fun _ (_ : True) => allocate
  · exact allocate

section Instructions

variable (hm : m.Obeys law)
include hm

theorem obeys_accessHost (access : FieldAccess) (f : FieldRef) :
    Step.Obeys law.holds (m.accessHost access f) fun _ => True := by
  refine Step.obeys_get_bind fun frame =>
    Step.obeys_bind (obeys_lift (obeys_hostField _ access f)) fun host _ => ?_
  cases access with
  | get =>
    exact Step.obeys_bind obeys_pop fun _ _ => Step.obeys_bind Step.obeys_check fun _ _ =>
      Step.obeys_bind Step.obeys_check fun _ _ => obeys_push _
  | put =>
    exact Step.obeys_bind obeys_pop fun _ _ => Step.obeys_bind obeys_pop fun _ _ =>
      Step.obeys_bind Step.obeys_check fun _ _ => Step.obeys_bind Step.obeys_check fun _ _ =>
        obeys_lift (obeys_writeSlot _ _ _ _ _)
  | getStatic =>
    exact Step.obeys_bind (obeys_lift (obeys_ensureInitialized hm _)) fun _ _ =>
      Step.obeys_bind Step.obeys_check fun _ _ => obeys_push _
  | putStatic =>
    exact Step.obeys_bind obeys_pop fun _ _ => Step.obeys_bind Step.obeys_check fun _ _ =>
      Step.obeys_bind (obeys_lift (obeys_ensureInitialized hm _)) fun _ _ =>
        obeys_lift (obeys_writeStatic _ _ _)

theorem obeys_accessLive (access : FieldAccess) (f : FieldRef) (live : LiveField) :
    Step.Obeys law.holds (m.accessLive access f live) fun _ => True := by
  cases access with
  | get =>
    exact Step.obeys_bind obeys_pop fun _ _ => Step.obeys_bind Step.obeys_check fun _ _ =>
      Step.obeys_bind (obeys_lift (obeys_readField hm live _)) fun _ _ => obeys_push _
  | put =>
    exact Step.obeys_bind obeys_pop fun _ _ => Step.obeys_bind obeys_pop fun _ _ =>
      Step.obeys_bind Step.obeys_check fun _ _ => obeys_lift (obeys_writeField hm live _ _)
  | getStatic =>
    exact Step.obeys_bind (obeys_lift (obeys_readField hm live _)) fun _ _ => obeys_push _
  | putStatic =>
    exact Step.obeys_bind obeys_pop fun _ _ => obeys_lift (obeys_writeField hm live _ _)

theorem obeys_accessPrivileged (access : FieldAccess) (id : TypeId) (f : FieldRef) :
    Step.Obeys law.holds (m.accessPrivileged access id f) fun _ => True := by
  refine Step.obeys_bind Step.obeys_check fun type _ => ?_
  split
  · exact Step.obeys_bind (obeys_lift (obeys_liveField _ access f)) fun live _ =>
      obeys_accessLive hm access f live
  · exact Step.obeys_fail _

/-- A guard of an invocation in a method that may run obeys. -/
theorem obeys_checkInvoke {id : TypeId} {f : Frame} (runs : law.runs f.method)
    (here : f.instr? = some (.invokeCheck id)) :
    Exec.Obeys law.holds (m.checkInvoke id f) fun r => r.2.method = f.method := by
  unfold checkInvoke
  refine Step.obeys_guarded_bind fun instr next => ?_
  split
  next kind method =>
    have routes := law.routed (m := m) runs here next f.cls
    have settled : Exec.Obeys law.holds (do
        let route ← m.routeInvoke f.cls id kind method
        return (route, f) : Run (InvokeRoute × Frame)) fun r =>
          r.2 = f ∧ ∀ live, r.1 = .dynamic live → live.Hosts law.runs :=
      Exec.obeys_bind routes fun route hosts => Exec.obeys_pure ⟨rfl, hosts⟩
    refine Exec.obeys_bind settled fun r found => ?_
    obtain ⟨route, f'⟩ := r
    obtain ⟨rfl, hosts⟩ := found
    cases route with
    | native => exact Exec.obeys_pure rfl
    | dynamic live =>
      have goesOn : Step.Obeys law.holds (do
          let args ← Step.popMany (kind.argCount method)
          Step.pushResult method.sig (← m.callDynamic f'.cls kind method live args)
          return .skip : Step Flow) fun _ => True :=
        Step.obeys_bind (obeys_popMany _) fun _ _ =>
          Step.obeys_bind (obeys_lift (obeys_callDynamic hm _ _ _ (hosts live rfl) _)) fun _ _ =>
            Step.obeys_bind (obeys_pushResult _ _) fun _ _ => Step.obeys_pure True.intro
      exact goesOn.within f'
  · exact (Step.obeys_fail _).within f

theorem obeys_checkField (f : Frame) :
    Exec.Obeys law.holds (m.checkField f) fun r => r.2.method = f.method := by
  unfold checkField
  refine Step.obeys_guarded_bind fun instr _ => ?_
  cases instr with
  | access access field =>
    refine Step.Obeys.within (?_ : Step.Obeys law.holds _ fun _ => True) f
    refine Step.obeys_get_bind fun frame =>
      Step.obeys_bind (obeys_lift (obeys_routeField _ _ _)) fun route _ => ?_
    cases route with
    | native => exact Step.obeys_pure True.intro
    | managed live =>
      exact Step.obeys_bind (obeys_accessLive hm _ _ _) fun _ _ => Step.obeys_pure True.intro
  | _ => exact (Step.obeys_fail _).within f

theorem obeys_checkEntry (id : TypeId) (slot : Nat) :
    Step.Obeys law.holds (m.checkEntry id slot) fun _ => True := by
  refine Step.obeys_get_bind fun f => Step.obeys_bind Step.obeys_ask fun known _ => ?_
  cases known with
  | none => exact Step.obeys_pure True.intro
  | some t =>
    refine Step.obeys_ask_bind fun e he => ?_
    split
    next version published =>
      split
      · exact Step.obeys_pure True.intro
      · exact Step.obeys_pure True.intro
      next method entry =>
        have runs := Law.runs_entry he published entry
        split
        · have enter : ∀ executor, Step.Obeys law.holds (do
              return .ret (← forwarding (m.call executor method f.arguments)) : Step Flow)
              fun _ => True :=
            fun executor => Step.obeys_bind
              (obeys_lift (obeys_atDepth (hm executor method _ runs) _)) fun _ _ =>
                Step.obeys_pure True.intro
          dsimp only
          split
          · exact Step.obeys_bind (Step.obeys_fail _) fun _ (_ : True) => enter _
          · exact enter _
        · exact Step.obeys_fail _
      · have enter : Step.Obeys law.holds (do
            return .ret (← forwarding (m.callInherited t f.method.key f.arguments)) : Step Flow)
            fun _ => True :=
          Step.obeys_bind (obeys_lift (obeys_atDepth (obeys_callInherited hm t _ _) _))
            fun _ _ => Step.obeys_pure True.intro
        dsimp only
        split
        · exact Step.obeys_bind (Step.obeys_fail _) fun _ (_ : True) => enter
        · exact enter
      · exact Step.obeys_fail _
    · exact Step.obeys_pure True.intro

theorem obeys_callSpecialLive (id : TypeId) (method : MethodRef) :
    Step.Obeys law.holds (m.callSpecialLive id method) fun _ => True := by
  refine Step.obeys_bind Step.obeys_check fun t _ =>
    Step.obeys_bind Step.obeys_ask fun shape _ => ?_
  cases shape with
  | none => exact Step.obeys_fail _
  | some shape =>
    exact Step.obeys_bind (obeys_popMany _) fun _ _ =>
      Step.obeys_bind (obeys_lift (obeys_callPrivileged hm t method _)) fun _ _ =>
        obeys_pushResult _ _

theorem obeys_callSuperLive (id : TypeId) (method : MethodRef) :
    Step.Obeys law.holds (m.callSuperLive id method) fun _ => True :=
  Step.obeys_bind Step.obeys_check fun t _ => Step.obeys_bind (obeys_popMany _) fun _ _ =>
    Step.obeys_bind (obeys_lift (obeys_callInherited hm t _ _)) fun _ _ => obeys_pushResult _ _

theorem obeys_invokeHost (kind : InvokeKind) (method : MethodRef) :
    Step.Obeys law.holds (m.invokeHost kind method) fun _ => True :=
  Step.obeys_bind (obeys_popMany _) fun _ _ => Step.obeys_get_bind fun _ =>
    Step.obeys_bind (obeys_lift (obeys_callNative hm _ kind method _)) fun _ _ =>
      obeys_pushResult _ _

theorem obeys_executePlain (instr : Instr) :
    Step.Obeys law.holds (m.executePlain instr) fun _ => True := by
  cases instr with
  | pop => exact Step.obeys_bind obeys_pop fun _ _ => Step.obeys_pure True.intro
  | dup => exact Step.obeys_bind (Step.obeys_look _) fun _ _ => obeys_push _
  | swap =>
    exact Step.obeys_bind obeys_pop fun _ _ => Step.obeys_bind obeys_pop fun _ _ =>
      Step.obeys_bind (obeys_push _) fun _ _ => obeys_push _
  | load slot => exact Step.obeys_bind (Step.obeys_look _) fun _ _ => obeys_push _
  | store slot => exact Step.obeys_bind obeys_pop fun _ _ => Step.obeys_store _ _
  | arith op | compare op =>
    exact Step.obeys_bind obeys_pop fun _ _ => Step.obeys_bind obeys_pop fun _ _ =>
      Step.obeys_bind Step.obeys_check fun _ _ => obeys_push _
  | neg =>
    exact Step.obeys_bind obeys_pop fun _ _ => Step.obeys_bind Step.obeys_check fun _ _ =>
      obeys_push _
  | concat =>
    exact Step.obeys_bind obeys_pop fun _ _ => Step.obeys_bind obeys_pop fun _ _ =>
      Step.obeys_bind Step.obeys_ask fun _ _ => obeys_push _
  | not => exact Step.obeys_bind obeys_popBool fun _ _ => obeys_push _
  | new typeName =>
    exact Step.obeys_bind (obeys_lift (obeys_instantiate hm typeName)) fun _ _ => obeys_push _
  | newArray element => exact obeys_newArray element
  | arrayLoad =>
    exact Step.obeys_bind obeys_popInt fun _ _ => Step.obeys_bind (obeys_popArray _) fun _ _ =>
      Step.obeys_bind Step.obeys_check fun _ _ => Step.obeys_bind Step.obeys_ask fun _ _ =>
        obeys_push _
  | arrayStore => exact obeys_arrayStore
  | arrayLength =>
    exact Step.obeys_bind (obeys_popArray _) fun _ _ => Step.obeys_bind Step.obeys_ask fun _ _ =>
      obeys_push _
  | instanceOf typeName =>
    exact Step.obeys_bind obeys_pop fun _ _ => Step.obeys_bind Step.obeys_ask fun _ _ =>
      obeys_push _
  | checkCast typeName =>
    exact Step.obeys_bind (Step.obeys_look _) fun _ _ => Step.obeys_check
  | invoke kind method => exact obeys_invokeHost hm kind method
  | access access f => exact obeys_accessHost hm access f
  | liveAccess access id f => exact obeys_accessPrivileged hm access id f
  | liveSpecial id method => exact obeys_callSpecialLive hm id method
  | liveSuper id method | liveInit id method => exact obeys_callSuperLive hm id method
  | constNull | constBool _ | constInt _ | constFloat _ | constStr _ => exact obeys_push _
  | nop | jump _ | jumpIf _ _ | ret | retValue | entryCheck _ _ | invokeCheck _ | fieldCheck _ =>
    exact Step.obeys_pure True.intro

/-- The next instruction of a method that may run obeys. -/
theorem obeys_execute {instr : Instr} {f : Frame} (runs : law.runs f.method)
    (here : f.instr? = some instr) :
    Exec.Obeys law.holds (m.execute instr f) fun r => r.2.method = f.method := by
  have goesOn {α : Type} {x : Step α} (hx : Step.Obeys law.holds x fun _ => True)
      (flow : α → Flow) : Exec.Obeys law.holds ((x >>= fun a => pure (flow a) : Step Flow) f)
        fun r => r.2.method = f.method := by
    have moved : Step.Obeys law.holds (x >>= fun a => pure (flow a) : Step Flow) fun _ => True :=
      Step.obeys_bind hx fun _ _ => Step.obeys_pure True.intro
    exact moved.within f
  cases instr with
  | jump target => exact Exec.obeys_pure rfl
  | jumpIf cond target => exact goesOn obeys_popBool _
  | ret => exact Exec.obeys_pure rfl
  | retValue => exact goesOn obeys_pop _
  | entryCheck id slot => exact (obeys_checkEntry hm _ _).within f
  | invokeCheck id => exact obeys_checkInvoke hm runs here
  | fieldCheck id => exact obeys_checkField hm f
  | _ => exact goesOn (obeys_executePlain hm _) _

theorem obeys_run (fuel : Nat) {f : Frame} (runs : law.runs f.method) :
    Exec.Obeys law.holds (m.run fuel f) fun _ => True := by
  -- No instruction changes the method of its frame, so what runs next may run, too.
  induction fuel generalizing f with
  | zero => exact obeys_throw _
  | succ fuel ih =>
    unfold run
    split
    · split
      · exact Exec.obeys_fail _
      · exact Exec.obeys_pure True.intro
    next instr here =>
      refine Exec.obeys_bind (obeys_execute hm runs here) fun next same => ?_
      obtain ⟨flow, f'⟩ := next
      have on (pc : Nat) : law.runs (f'.goTo pc).method := same ▸ runs
      cases flow with
      | next | skip | jump _ => exact ih (on _)
      | ret value => exact Exec.obeys_pure True.intro

end Instructions

/-- Run a frame as one more call, unless too many calls are running. -/
def runDeeper (m : Machine) (fuel : Nat) (frame : Frame) : Run Value := fun e =>
  if (e.scopeAt m.scope).options.maxCallDepth ≤ e.depth then
    .error (.error (.stackOverflow e.depth)) e
  else counted (m.run fuel frame) e

/-- What a call does once it is clear that it fits its method: it initializes the class of
a static method and runs the body. -/
def enterBody (m : Machine) (fuel : Nat) (c : ClassRef) (method : Method) (args : List Value) :
    Run Value := do
  if method.isStatic && !method.key.isStaticInit then
    m.ensureInitialized c
  m.runDeeper fuel (.enter c method args)

/-- The bound on the depth is looked up before the frame is entered. -/
theorem runDeeper_eq (fuel : Nat) (frame : Frame) :
    m.runDeeper fuel frame = (do
      let depth ← ask Engine.depth
      if (← ask fun e => (e.scopeAt m.scope).options.maxCallDepth) ≤ depth then
        fail (.stackOverflow depth)
      counted (m.run fuel frame)) := by
  funext e
  unfold runDeeper
  rw [bind_apply, ask_apply]
  dsimp only
  rw [bind_apply, ask_apply]
  dsimp only
  split <;> rfl

/-- A call that fits its method is that. -/
theorem enter_eq (fuel : Nat) (c : ClassRef) {method : Method} {args : List Value}
    (concrete : method.isAbstract = false) (fits : args.length = method.argCount) :
    m.enter fuel c method args = m.enterBody fuel c method args := by
  unfold enter enterBody
  rw [runDeeper_eq]
  simp only [concrete, fits, Bool.false_eq_true, if_false, ne_eq, not_true_eq_false]

/-- A call of an abstract method fails. -/
theorem enter_abstract (fuel : Nat) (c : ClassRef) {method : Method} (args : List Value)
    (abstract : method.isAbstract = true) :
    m.enter fuel c method args = fail (.abstractMethod method.text) := by
  unfold enter
  simp only [abstract, if_true, fail_bind]

/-- A call with another number of arguments fails. -/
theorem enter_misfit (fuel : Nat) (c : ClassRef) {method : Method} {args : List Value}
    (concrete : method.isAbstract = false) (misfit : args.length ≠ method.argCount) :
    m.enter fuel c method args =
      fail (.malformed (.argumentCount method.text method.argCount args.length)) := by
  unfold enter
  simp only [concrete, misfit, Bool.false_eq_true, if_false, ne_eq, not_false_eq_true, if_true,
    fail_bind]

theorem obeys_enter (hm : m.Obeys law) (fuel : Nat) (c : ClassRef) {method : Method}
    (args : List Value) (runs : law.runs method) :
    Exec.Obeys law.holds (m.enter fuel c method args) fun _ => True := by
  have deeper : Exec.Obeys law.holds (m.runDeeper fuel (.enter c method args)) fun _ => True := by
    intro e he
    have inner := obeys_counted (obeys_run hm fuel (f := .enter c method args) runs) e he
    unfold Engine.Ends runDeeper at *
    by_cases full : (e.scopeAt m.scope).options.maxCallDepth ≤ e.depth
    · rw [if_pos full]
      exact ⟨he, rfl⟩
    · rw [if_neg full]
      exact inner
  by_cases abstract : method.isAbstract = true
  · rw [enter_abstract fuel c args abstract]
    exact Exec.obeys_fail _
  · have concrete : method.isAbstract = false := by simpa using abstract
    by_cases fits : args.length = method.argCount
    · rw [enter_eq fuel c concrete fits]
      unfold enterBody
      split
      · exact Exec.obeys_bind (obeys_ensureInitialized hm c) fun _ _ => deeper
      · exact deeper
    · rw [enter_misfit fuel c concrete fits]
      exact Exec.obeys_fail _

end Machine

/-- Calls obey every law, with any amount of fuel. -/
theorem obeys_of (law : Law) (s : ScopeRef) (fuel : Nat) : (Machine.of s fuel).Obeys law := by
  induction fuel with
  | zero => exact fun _ _ _ _ => obeys_throw _
  | succ fuel ih => exact fun c _ args runs => Machine.obeys_enter ih fuel c args runs

/-- An engine has this skeleton, whatever its depth. -/
def Engine.HasSkeleton (bones e : Engine) : Prop := { e.skeleton with depth := 0 } = bones

namespace Exec

variable {ε α γ : Type} {x : Exec ε α} {π : Engine → γ} {holds : Engine → Prop}

/-- What keeps a view of the engine leaves an engine of which all holds that the view tells. -/
theorem obeys_of_view (keeps : Keeps π x)
    (kept : ∀ e e', π e' = π e → holds e → holds e' ∧ e'.depth = e.depth) :
    Obeys holds x fun _ => True := fun _ he => (Engine.ends_of_keeps keeps).weaken
  (fun _ _ same => ⟨kept _ _ same he, True.intro⟩) fun _ _ same => kept _ _ same he

/-- What keeps the skeleton leaves an engine with the skeleton that it has. -/
theorem obeys_of_keeps (keeps : Keeps Engine.skeleton x) (bones : Engine) :
    Obeys bones.HasSkeleton x fun _ => True := by
  refine obeys_of_view keeps fun e e' same he => ?_
  refine ⟨?_, Engine.depth_of_skeleton_eq same⟩
  unfold Engine.HasSkeleton
  rw [same]
  exact he

/-- What leaves every engine with its skeleton, and at its depth, keeps the skeleton. -/
theorem keeps_of_obeys {post : α → Prop} (obeys : ∀ bones : Engine, Obeys bones.HasSkeleton x post) :
    Keeps Engine.skeleton x := by
  intro e
  obtain ⟨same, depth⟩ := (obeys _).final (e := e) rfl
  have restored := congrArg (fun bones : Engine => { bones with depth := e.depth }) same
  have own : ({ (x.final e).skeleton with depth := e.depth } : Engine) = (x.final e).skeleton := by
    rw [← depth]
    rfl
  exact own.symm.trans restored

end Exec

namespace Machine

variable {m : Machine}

section Routing

variable {γ : Type} {π : Engine → γ} (routes : ∀ (e : Engine) (s : ScopeRef) (key : RouteKey)
  (route : CachedRoute),
  π (e.updateScope s fun scope => { scope with routes := scope.routes.put key route }) = π e)
include routes

theorem keeps_liveTarget? (id : TypeId) (kind : InvokeKind) (method : MethodRef) :
    Keeps π (m.liveTarget? id kind method) := by
  refine keeps_bind (keeps_ask _) fun scope => ?_
  dsimp only
  cases (scope.routes.get? (id, kind, method.key)).filter fun r => r.epoch = scope.epoch with
  | some route => exact keeps_pure _
  | none =>
    dsimp only
    split
    · refine keeps_bind (keeps_resolve _) fun live => ?_
      split
      · exact keeps_bind (keeps_ask _) fun _ =>
          keeps_bind (keeps_modify fun e => routes e _ _ _) fun _ => keeps_pure _
      · exact keeps_fail _
    · exact keeps_pure _

/-- A guard that routes an invocation remembers the route and changes nothing else. -/
theorem keeps_routeInvoke (caller : ClassRef) (id : TypeId) (kind : InvokeKind)
    (method : MethodRef) : Keeps π (m.routeInvoke caller id kind method) := by
  refine keeps_bind (keeps_ask _) fun epoch => ?_
  split
  · exact keeps_pure _
  · refine keeps_bind (keeps_liveTarget? routes id kind method) fun route => ?_
    cases route with
    | none => exact keeps_pure _
    | some route =>
      exact keeps_bind (keeps_ofResult _) fun _ => keeps_bind (keeps_check _) fun _ =>
        by split <;> exact keeps_pure _

end Routing

/-- What a guard remembers is not in the skeleton. -/
theorem keepsSkeleton_liveTarget? (id : TypeId) (kind : InvokeKind) (method : MethodRef) :
    Keeps Engine.skeleton (m.liveTarget? id kind method) :=
  keeps_liveTarget? (fun e _ _ _ => e.skeleton_updateScope _ _ fun _ => rfl) id kind method

end Machine

/-- The law that the skeleton stays.  Any method may run. -/
def Law.skeleton (bones : Engine) : Law where
  holds := bones.HasSkeleton
  runs _ := True
  writes written he := by
    obtain ⟨depth, same⟩ := written.during
    unfold Engine.HasSkeleton at he ⊢
    rw [same]
    exact he
  declared _ _ := True.intro
  selected _ _ := True.intro
  entered _ _ := True.intro
  routed _ _ _ _ := (obeys_of_keeps (Machine.keeps_routeInvoke
    (fun e _ _ _ => e.skeleton_updateScope _ _ fun _ => rfl) _ _ _ _) bones).weaken
    fun _ _ _ _ _ _ _ => True.intro
  reflects reflected he := by
    unfold Engine.HasSkeleton at he ⊢
    rw [reflected.skeleton_eq]
    exact he

/-- The calls of a machine keep the skeleton. -/
def Machine.KeepsSkeleton (m : Machine) : Prop :=
  ∀ c method args, Keeps Engine.skeleton (m.call c method args)

/-- Calls keep the skeleton, with any amount of fuel. -/
theorem keepsSkeleton_of (s : ScopeRef) (fuel : Nat) : (Machine.of s fuel).KeepsSkeleton :=
  fun c method args => keeps_of_obeys fun bones =>
    obeys_of (.skeleton bones) s fuel c method args True.intro

namespace Machine

variable {m : Machine} (hm : m.KeepsSkeleton)
include hm

theorem KeepsSkeleton.obeys (bones : Engine) : m.Obeys (.skeleton bones) :=
  fun c method args _ => obeys_of_keeps (hm c method args) bones

theorem keeps_ensureInitialized (c : ClassRef) : Keeps Engine.skeleton (m.ensureInitialized c) :=
  keeps_of_obeys fun bones => obeys_ensureInitialized (hm.obeys bones) c

theorem keeps_callInherited (t : TypeRef) (key : MemberKey) (args : List Value) :
    Keeps Engine.skeleton (m.callInherited t key args) :=
  keeps_of_obeys fun bones => obeys_callInherited (hm.obeys bones) t key args

theorem keeps_execute {instr : Instr} {f : Frame} (here : f.instr? = some instr) :
    Keeps Engine.skeleton (m.execute instr f) :=
  keeps_of_obeys fun bones => obeys_execute (hm.obeys bones) True.intro here

theorem keeps_run (fuel : Nat) (f : Frame) : Keeps Engine.skeleton (m.run fuel f) :=
  keeps_of_obeys fun bones => obeys_run (hm.obeys bones) fuel True.intro

/-- Counting a call no more when it is over sets the number of running calls back. -/
theorem runDeeper_apply (fuel : Nat) (frame : Frame) (e : Engine) :
    m.runDeeper fuel frame e =
      if (e.scopeAt m.scope).options.maxCallDepth ≤ e.depth then
        .error (.error (.stackOverflow e.depth)) e
      else atDepth (· + 1) (m.run fuel frame) e := by
  have kept := keeps_run hm fuel frame { e with depth := e.depth + 1 }
  have balanced := Engine.depth_of_skeleton_eq kept
  unfold final at balanced
  have counts : counted (m.run fuel frame) e = atDepth (· + 1) (m.run fuel frame) e := by
    rw [counted_apply, atDepth_apply]
    cases run : m.run fuel frame { e with depth := e.depth + 1 } with
    | ok value e' =>
      rw [run] at balanced
      simp only [balanced, Nat.add_sub_cancel]
    | error stop e' =>
      rw [run] at balanced
      simp only [balanced, Nat.add_sub_cancel]
  unfold runDeeper
  rw [counts]

end Machine

end LiveUpdate
