import LiveUpdate.Proofs.Fuel

/-!
# Instructions in other places

What an ordinary instruction does depends on its frame for the class, the local slots and the
stack, not for the place of the instruction or the code around it.  So it does the same in a
frame that was moved into other code, also when a machine runs it there whose calls are
completed.
-/

set_option autoImplicit false

namespace LiveUpdate

open Exec

/-- The method with another body. -/
def Method.withCode (m : Method) (code : List Instr) : Method := { m with code }

namespace Frame

/-- The frame at a place in other code. -/
def moved (f : Frame) (code : List Instr) (pc : Nat) : Frame :=
  { f with method := f.method.withCode code, pc }

theorem moved_self (f : Frame) : f.moved f.method.code f.pc = f := rfl

theorem pop_moved (f : Frame) (code : List Instr) (pc : Nat) :
    (f.moved code pc).pop = f.pop.map fun r => (r.1, r.2.moved code pc) := by
  unfold pop moved
  dsimp only
  cases f.stack <;> rfl

theorem popMany_moved (f : Frame) (count : Nat) (code : List Instr) (pc : Nat) :
    (f.moved code pc).popMany count = (f.popMany count).map fun r => (r.1, r.2.moved code pc) := by
  unfold popMany
  show (if f.stack.length < count then _ else _) = _
  split <;> rfl

theorem peek_moved (f : Frame) (depth : Nat) (code : List Instr) (pc : Nat) :
    (f.moved code pc).peek depth = f.peek depth := rfl

theorem load_moved (f : Frame) (slot : Nat) (code : List Instr) (pc : Nat) :
    (f.moved code pc).load slot = f.load slot := rfl

theorem store_moved (f : Frame) (slot : Nat) (value : Value) (code : List Instr) (pc : Nat) :
    (f.moved code pc).store slot value =
      (f.store slot value).map fun f' => f'.moved code pc := by
  unfold store
  show (if slot < f.locals.length then _ else _) = _
  split <;> rfl

end Frame

namespace Step

variable {α β : Type}

/-- The first computation completes the second in every frame. -/
def Completes (y x : Step α) : Prop := ∀ f, Exec.Completes (y f) (x f)

/-- An outcome with its frame moved. -/
def movedOutcome (code : List Instr) (pc : Nat)
    (outcome : EStateM.Result (Stop RunError) Engine (α × Frame)) :
    EStateM.Result (Stop RunError) Engine (α × Frame) :=
  match outcome with
  | .ok (a, f) e => .ok (a, f.moved code pc) e
  | .error stop e => .error stop e

/-- The first computation does in any place what the second one does, unless that runs out of
fuel. -/
def Transfers (y x : Step α) : Prop :=
  ∀ f code pc e, Settled (x f e) → y (f.moved code pc) e = movedOutcome code pc (x f e)

theorem completes_refl (x : Step α) : Completes x x := fun _ => Exec.completes_refl _

theorem completes_bind {x y : Step α} {f g : α → Step β} (hx : Completes y x)
    (hf : ∀ a, Completes (g a) (f a)) : Completes (y >>= g) (x >>= f) :=
  fun frame => Exec.completes_bind (hx frame) fun r => hf r.1 r.2

theorem completes_lift {x y : Run α} (h : Exec.Completes y x) :
    Completes (liftM y : Step α) (liftM x) :=
  fun _ => Exec.completes_bind h fun _ => Exec.completes_refl _

/-- A computation that does the same in any place does it where it is. -/
theorem Transfers.completes {x y : Step α} (h : Transfers y x) (self : Transfers x x) :
    Completes y x := by
  intro f e settled
  have here := h f f.method.code f.pc e settled
  rw [← self f f.method.code f.pc e settled, Frame.moved_self] at here
  exact here

section Transfers

variable {x : Step α} {f : Frame} {e : Engine} {code : List Instr} {pc : Nat}

theorem settled_movedOutcome {outcome : EStateM.Result (Stop RunError) Engine (α × Frame)} :
    Settled (movedOutcome code pc outcome) ↔ Settled outcome := by
  cases outcome <;> rfl

/-- A computation that does the same in any place has the same outcome in two of them, if it
comes to an end in one. -/
theorem Transfers.apply (self : Transfers x x)
    (either : Settled (x f e) ∨ Settled (x (f.moved code pc) e)) :
    x (f.moved code pc) e = movedOutcome code pc (x f e) := by
  rcases either with here | there
  · exact self f code pc e here
  · have back := self (f.moved code pc) f.method.code f.pc e there
    have here : Settled (x ((f.moved code pc).moved f.method.code f.pc) e) := by
      rw [back]
      exact settled_movedOutcome.2 there
    exact self f code pc e here

/-- A computation that does the same in any place leaves the frame where it is. -/
theorem Transfers.keeps_place (self : Transfers x x) {a : α} {f' : Frame} {e' : Engine}
    (run : x f e = .ok (a, f') e') : f'.method.code = f.method.code ∧ f'.pc = f.pc := by
  have settled : Settled (x f e) := by
    rw [run]
    trivial
  have here := self f f.method.code f.pc e settled
  rw [Frame.moved_self, run] at here
  have same : f' = f'.moved f.method.code f.pc := by
    simpa only [movedOutcome, EStateM.Result.ok.injEq, Prod.mk.injEq, true_and, and_true] using here
  have place := congrArg (fun f : Frame => (f.method.code, f.pc)) same
  exact Prod.mk.inj place

theorem transfers_pure (a : α) : Transfers (pure a : Step α) (pure a) := fun _ _ _ _ _ => rfl

theorem transfers_bind {x y : Step α} {f g : α → Step β} (hx : Transfers y x)
    (hf : ∀ a, Transfers (g a) (f a)) : Transfers (y >>= g) (x >>= f) := by
  intro frame code pc e settled
  have first := hx frame code pc e
  rw [bind_apply] at settled ⊢
  rw [bind_apply]
  cases run : x frame e with
  | ok next e' =>
    rw [run] at settled first
    rw [first (settled_ok next e')]
    exact hf next.1 next.2 code pc e' settled
  | error stop e' =>
    rw [run] at settled first
    cases stop with
    | error error =>
      rw [first trivial]
      rfl
    | outOfFuel => exact settled.elim

theorem transfers_lift {x y : Run α} (h : Exec.Completes y x) :
    Transfers (liftM y : Step α) (liftM x) := by
  intro f code pc e settled
  have first := h e
  rw [lift_apply] at settled ⊢
  rw [lift_apply]
  cases run : x e with
  | ok a e' =>
    rw [run] at first
    rw [first (settled_ok a e')]
    rfl
  | error stop e' =>
    rw [run] at settled first
    cases stop with
    | error error =>
      rw [first trivial]
      rfl
    | outOfFuel => exact settled.elim

/-- A computation that looks at the frame, but not at where it is. -/
theorem transfers_get_bind {f g : Frame → Step β} (h : ∀ frame, Transfers (g frame) (f frame))
    (blind : ∀ frame code pc, g (frame.moved code pc) = g frame) :
    Transfers (get >>= g : Step β) (get >>= f) := by
  intro frame code pc e settled
  rw [get_bind] at settled ⊢
  rw [get_bind, blind]
  exact h frame frame code pc e settled

theorem transfers_onFrame {g : Frame → Except RunError (α × Frame)}
    (blind : ∀ f code pc, g (f.moved code pc) = (g f).map fun r => (r.1, r.2.moved code pc)) :
    Transfers (onFrame g) (onFrame g) := by
  intro f code pc e _
  rw [onFrame_apply, onFrame_apply, blind]
  cases g f <;> rfl

theorem transfers_ask (g : Engine → α) : Transfers (ask g) (ask g) :=
  transfers_lift (Exec.completes_refl _)

theorem transfers_check (g : Engine → Except RunError α) : Transfers (check g) (check g) :=
  transfers_lift (Exec.completes_refl _)

theorem transfers_fail (error : RunError) : Transfers (fail error : Step α) (fail error) :=
  transfers_lift (Exec.completes_refl _)

theorem transfers_push (value : Value) : Transfers (push value) (push value) :=
  fun _ _ _ _ _ => rfl

theorem transfers_pop : Transfers pop pop :=
  transfers_onFrame Frame.pop_moved

theorem transfers_popMany (count : Nat) : Transfers (popMany count) (popMany count) :=
  transfers_onFrame fun f => f.popMany_moved count

theorem transfers_peek : Transfers peek peek := by
  refine transfers_onFrame fun f code pc => ?_
  rw [Frame.peek_moved]
  cases f.peek 0 <;> rfl

theorem transfers_popInt : Transfers popInt popInt :=
  transfers_bind transfers_pop fun _ => transfers_check _

theorem transfers_popBool : Transfers popBool popBool :=
  transfers_bind transfers_pop fun _ => transfers_check _

theorem transfers_popArray (use : NullUse) : Transfers (popArray use) (popArray use) := by
  refine transfers_bind transfers_pop fun value => ?_
  split
  · exact transfers_pure _
  · exact transfers_fail _

theorem transfers_pushResult (sig : MethodSig) (value : Value) :
    Transfers (pushResult sig value) (pushResult sig value) := by
  unfold pushResult
  split
  · exact transfers_push value
  · exact transfers_pure _

end Transfers

end Step

namespace Machine

variable {m : Machine} {call : ClassRef → Method → List Value → Run Value}

open Step (Transfers transfers_pure transfers_bind transfers_lift transfers_get_bind
  transfers_onFrame transfers_ask transfers_check transfers_fail transfers_push transfers_pop
  transfers_popMany transfers_peek transfers_popInt transfers_popBool transfers_popArray
  transfers_pushResult)

theorem transfers_arrayStore : Transfers arrayStore arrayStore :=
  transfers_bind transfers_pop fun _ => transfers_bind transfers_popInt fun _ =>
    transfers_bind (transfers_popArray _) fun _ => transfers_bind (transfers_check _) fun _ =>
      transfers_bind (transfers_check _) fun _ => transfers_lift (completes_refl _)

theorem transfers_newArray (element : TypeSig) :
    Transfers (newArray element) (newArray element) := by
  refine transfers_bind transfers_popInt fun length => ?_
  have allocate : Transfers (do
      let a ← modifyGetThe Engine fun e =>
        e.newArray ⟨element, Array.replicate length.toInt.toNat (.zeroOf element)⟩
      Step.push (.array a) : Step Unit) (do
      let a ← modifyGetThe Engine fun e =>
        e.newArray ⟨element, Array.replicate length.toInt.toNat (.zeroOf element)⟩
      Step.push (.array a)) :=
    transfers_bind (transfers_lift (completes_refl _)) fun _ => transfers_push _
  dsimp only
  split
  · exact transfers_bind (transfers_fail _) fun _ => allocate
  · exact allocate

theorem transfers_accessHost (h : m.CompletedBy call) (access : FieldAccess) (f : FieldRef) :
    Transfers ((m.withCall call).accessHost access f) (m.accessHost access f) := by
  refine transfers_get_bind (fun frame => ?_) fun _ _ _ => rfl
  refine transfers_bind (transfers_lift (completes_refl _)) fun host => ?_
  cases access with
  | get =>
    exact transfers_bind transfers_pop fun _ => transfers_bind (transfers_check _) fun _ =>
      transfers_bind (transfers_check _) fun _ => transfers_push _
  | put =>
    exact transfers_bind transfers_pop fun _ => transfers_bind transfers_pop fun _ =>
      transfers_bind (transfers_check _) fun _ => transfers_bind (transfers_check _) fun _ =>
        transfers_lift (completes_refl _)
  | getStatic =>
    exact transfers_bind (transfers_lift (completes_ensureInitialized h _)) fun _ =>
      transfers_bind (transfers_check _) fun _ => transfers_push _
  | putStatic =>
    exact transfers_bind transfers_pop fun _ => transfers_bind (transfers_check _) fun _ =>
      transfers_bind (transfers_lift (completes_ensureInitialized h _)) fun _ =>
        transfers_lift (completes_refl _)

theorem transfers_accessLive (h : m.CompletedBy call) (access : FieldAccess) (f : FieldRef)
    (live : LiveField) :
    Transfers ((m.withCall call).accessLive access f live) (m.accessLive access f live) := by
  cases access with
  | get =>
    exact transfers_bind transfers_pop fun _ => transfers_bind (transfers_check _) fun _ =>
      transfers_bind (transfers_lift (completes_readField h live _)) fun _ => transfers_push _
  | put =>
    exact transfers_bind transfers_pop fun _ => transfers_bind transfers_pop fun _ =>
      transfers_bind (transfers_check _) fun _ =>
        transfers_lift (completes_writeField h live _ _)
  | getStatic =>
    exact transfers_bind (transfers_lift (completes_readField h live _)) fun _ =>
      transfers_push _
  | putStatic =>
    exact transfers_bind transfers_pop fun _ =>
      transfers_lift (completes_writeField h live _ _)

theorem transfers_accessPrivileged (h : m.CompletedBy call) (access : FieldAccess) (id : TypeId)
    (f : FieldRef) :
    Transfers ((m.withCall call).accessPrivileged access id f)
      (m.accessPrivileged access id f) := by
  refine transfers_bind (transfers_check _) fun type => ?_
  cases type.native with
  | none => exact transfers_fail _
  | some owner =>
    exact transfers_bind (transfers_lift (completes_refl _)) fun live =>
      transfers_accessLive h access f live

theorem transfers_callSpecialLive (h : m.CompletedBy call) (id : TypeId) (method : MethodRef) :
    Transfers ((m.withCall call).callSpecialLive id method) (m.callSpecialLive id method) := by
  refine transfers_bind (transfers_check _) fun t =>
    transfers_bind (transfers_ask _) fun shape => ?_
  cases shape with
  | none => exact transfers_fail _
  | some shape =>
    exact transfers_bind (transfers_popMany _) fun _ =>
      transfers_bind (transfers_lift (completes_callPrivileged h t method _)) fun _ =>
        transfers_pushResult _ _

theorem transfers_callSuperLive (h : m.CompletedBy call) (id : TypeId) (method : MethodRef) :
    Transfers ((m.withCall call).callSuperLive id method) (m.callSuperLive id method) :=
  transfers_bind (transfers_check _) fun t => transfers_bind (transfers_popMany _) fun _ =>
    transfers_bind (transfers_lift (completes_callInherited h t _ _)) fun _ =>
      transfers_pushResult _ _

theorem transfers_invokeHost (h : m.CompletedBy call) (kind : InvokeKind) (method : MethodRef) :
    Transfers ((m.withCall call).invokeHost kind method) (m.invokeHost kind method) :=
  transfers_bind (transfers_popMany _) fun _ =>
    transfers_get_bind (fun _ => transfers_bind
      (transfers_lift (completes_callNative h _ kind method _)) fun _ => transfers_pushResult _ _)
      fun _ _ _ => rfl

/-- An instruction that control goes on behind does the same in other code. -/
theorem transfers_executePlain (h : m.CompletedBy call) (instr : Instr) :
    Transfers ((m.withCall call).executePlain instr) (m.executePlain instr) := by
  cases instr with
  | pop => exact transfers_bind transfers_pop fun _ => transfers_pure _
  | dup => exact transfers_bind transfers_peek fun _ => transfers_push _
  | swap =>
    exact transfers_bind transfers_pop fun _ => transfers_bind transfers_pop fun _ =>
      transfers_bind (transfers_push _) fun _ => transfers_push _
  | load slot =>
    refine transfers_bind (transfers_onFrame fun f code pc => ?_) fun _ => transfers_push _
    rw [Frame.load_moved]
    cases f.load slot.toNat <;> rfl
  | store slot =>
    refine transfers_bind transfers_pop fun value => transfers_onFrame fun f code pc => ?_
    rw [Frame.store_moved]
    cases f.store slot.toNat value <;> rfl
  | arith op | compare op =>
    exact transfers_bind transfers_pop fun _ => transfers_bind transfers_pop fun _ =>
      transfers_bind (transfers_check _) fun _ => transfers_push _
  | neg =>
    exact transfers_bind transfers_pop fun _ => transfers_bind (transfers_check _) fun _ =>
      transfers_push _
  | concat =>
    exact transfers_bind transfers_pop fun _ => transfers_bind transfers_pop fun _ =>
      transfers_bind (transfers_ask _) fun _ => transfers_push _
  | not => exact transfers_bind transfers_popBool fun _ => transfers_push _
  | new typeName =>
    exact transfers_bind (transfers_lift (completes_instantiate h typeName)) fun _ =>
      transfers_push _
  | newArray element => exact transfers_newArray element
  | arrayLoad =>
    exact transfers_bind transfers_popInt fun _ => transfers_bind (transfers_popArray _) fun _ =>
      transfers_bind (transfers_check _) fun _ => transfers_bind (transfers_ask _) fun _ =>
        transfers_push _
  | arrayStore => exact transfers_arrayStore
  | arrayLength =>
    exact transfers_bind (transfers_popArray _) fun _ => transfers_bind (transfers_ask _) fun _ =>
      transfers_push _
  | instanceOf typeName =>
    exact transfers_bind transfers_pop fun _ => transfers_bind (transfers_ask _) fun _ =>
      transfers_push _
  | checkCast typeName => exact transfers_bind transfers_peek fun _ => transfers_check _
  | invoke kind method => exact transfers_invokeHost h kind method
  | access access f => exact transfers_accessHost h access f
  | liveAccess access id f => exact transfers_accessPrivileged h access id f
  | liveSpecial id method => exact transfers_callSpecialLive h id method
  | liveSuper id method | liveInit id method => exact transfers_callSuperLive h id method
  | constNull | constBool _ | constInt _ | constFloat _ | constStr _ => exact transfers_push _
  | nop | jump _ | jumpIf _ _ | ret | retValue | entryCheck _ _ | invokeCheck _ | fieldCheck _ =>
    exact transfers_pure _

end Machine

end LiveUpdate
