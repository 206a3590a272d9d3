import LiveUpdate.Proofs.Stepping

/-!
# What an instruction leaves of its frame

An instruction works on the stack of its frame, and a store on the value of one local slot.
The method, the place and the number of local slots stay: where control goes on is the
instruction's answer, not part of what it does to the frame.
-/

set_option autoImplicit false

namespace LiveUpdate

/-- Two frames of one method at one place with equally many local slots. -/
structure Frame.Alike (f f' : Frame) : Prop where
  method : f'.method = f.method
  pc : f'.pc = f.pc
  locals : f'.locals.length = f.locals.length

namespace Frame.Alike

theorem refl (f : Frame) : f.Alike f := ⟨rfl, rfl, rfl⟩

theorem trans {f g h : Frame} (first : f.Alike g) (second : g.Alike h) : f.Alike h :=
  ⟨second.method.trans first.method, second.pc.trans first.pc, second.locals.trans first.locals⟩

end Frame.Alike

namespace Step

variable {α β : Type}

/-- A computation inside a frame that leaves its method, its place and its number of local
slots. -/
def Stays (x : Step α) : Prop :=
  ∀ (f : Frame) (e : Engine) (a : α) (f' : Frame) (e' : Engine), x f e = .ok (a, f') e' → f.Alike f'

theorem stays_pure (a : α) : Stays (pure a : Step α) := by
  intro f e b f' e' run
  cases run
  exact .refl f

theorem stays_lift (x : Run α) : Stays (liftM x : Step α) := by
  intro f e a f' e' run
  rw [lift_apply] at run
  cases result : x e with
  | ok b e₁ =>
    rw [result] at run
    cases run
    exact .refl f
  | error stop e₁ =>
    rw [result] at run
    cases run

theorem stays_bind {x : Step α} {g : α → Step β} (hx : Stays x) (hg : ∀ a, Stays (g a)) :
    Stays (x >>= g) := by
  intro f e b f' e' run
  rw [bind_apply] at run
  cases result : x f e with
  | ok next e₁ =>
    obtain ⟨a, f₁⟩ := next
    rw [result] at run
    exact (hx f e a f₁ e₁ result).trans (hg a f₁ e₁ b f' e' run)
  | error stop e₁ =>
    rw [result] at run
    cases run

theorem stays_get_bind {g : Frame → Step β} (hg : ∀ f, Stays (g f)) :
    Stays (get >>= g : Step β) :=
  fun f e b f' e' run => hg f f e b f' e' run

theorem stays_onFrame {g : Frame → Except RunError (α × Frame)}
    (alike : ∀ f a f', g f = .ok (a, f') → f.Alike f') : Stays (onFrame g) := by
  intro f e a f' e' run
  rw [onFrame_apply] at run
  cases answer : g f with
  | ok next =>
    rw [answer] at run
    cases run
    exact alike f _ _ answer
  | error error =>
    rw [answer] at run
    cases run

theorem stays_ask (g : Engine → α) : Stays (ask g) := stays_lift _

theorem stays_check (g : Engine → Except RunError α) : Stays (check g) := stays_lift _

theorem stays_fail (error : RunError) : Stays (fail error : Step α) := stays_lift _

theorem stays_push (value : Value) : Stays (push value) := by
  intro f e a f' e' run
  cases run
  exact ⟨rfl, rfl, rfl⟩

theorem stays_pop : Stays pop := by
  refine stays_onFrame fun f a f' popped => ?_
  unfold Frame.pop at popped
  split at popped <;> cases popped
  exact ⟨rfl, rfl, rfl⟩

theorem stays_popMany (count : Nat) : Stays (popMany count) := by
  refine stays_onFrame fun f a f' popped => ?_
  unfold Frame.popMany at popped
  split at popped <;> cases popped
  exact ⟨rfl, rfl, rfl⟩

/-- A look at a frame that leaves it as it is. -/
theorem stays_look (g : Frame → Except RunError α) :
    Stays (onFrame fun f => return (← g f, f)) := by
  refine stays_onFrame fun f a f' looked => ?_
  obtain ⟨b, -, same⟩ := Exec.bind_eq_ok.1 looked
  cases same
  exact .refl f

theorem stays_store (slot : Nat) (value : Value) :
    Stays (onFrame fun f => return ((), ← f.store slot value)) := by
  refine stays_onFrame fun f a f' stored => ?_
  obtain ⟨g, store, same⟩ := Exec.bind_eq_ok.1 stored
  cases same
  unfold Frame.store at store
  split at store <;> cases store
  exact ⟨rfl, rfl, List.length_set⟩

theorem stays_popInt : Stays popInt := stays_bind stays_pop fun _ => stays_check _

theorem stays_popBool : Stays popBool := stays_bind stays_pop fun _ => stays_check _

theorem stays_popArray (use : NullUse) : Stays (popArray use) := by
  refine stays_bind stays_pop fun value => ?_
  split
  · exact stays_pure _
  · exact stays_fail _

theorem stays_pushResult (sig : MethodSig) (value : Value) : Stays (pushResult sig value) := by
  unfold pushResult
  split
  · exact stays_push value
  · exact stays_pure _

theorem stays_guarded : Stays guarded := by
  refine stays_get_bind fun f => ?_
  split
  · exact stays_pure _
  · exact stays_fail _

end Step

namespace Machine

open Step

variable (m : Machine)

theorem stays_arrayStore : Stays arrayStore :=
  stays_bind stays_pop fun _ => stays_bind stays_popInt fun _ =>
    stays_bind (stays_popArray _) fun _ => stays_bind (stays_check _) fun _ =>
      stays_bind (stays_check _) fun _ => stays_lift _

theorem stays_newArray (element : TypeSig) : Stays (newArray element) := by
  refine stays_bind stays_popInt fun length => ?_
  dsimp only
  split
  · exact stays_bind (stays_fail _) fun _ => stays_bind (stays_lift _) fun _ => stays_push _
  · exact stays_bind (stays_lift _) fun _ => stays_push _

theorem stays_accessHost (access : FieldAccess) (field : FieldRef) :
    Stays (m.accessHost access field) := by
  refine stays_get_bind fun f => stays_bind (stays_lift _) fun host => ?_
  cases access with
  | get =>
    exact stays_bind stays_pop fun _ => stays_bind (stays_check _) fun _ =>
      stays_bind (stays_check _) fun _ => stays_push _
  | put =>
    exact stays_bind stays_pop fun _ => stays_bind stays_pop fun _ =>
      stays_bind (stays_check _) fun _ => stays_bind (stays_check _) fun _ => stays_lift _
  | getStatic =>
    exact stays_bind (stays_lift _) fun _ => stays_bind (stays_check _) fun _ => stays_push _
  | putStatic =>
    exact stays_bind stays_pop fun _ => stays_bind (stays_check _) fun _ =>
      stays_bind (stays_lift _) fun _ => stays_lift _

theorem stays_accessLive (access : FieldAccess) (field : FieldRef) (live : LiveField) :
    Stays (m.accessLive access field live) := by
  cases access with
  | get =>
    exact stays_bind stays_pop fun _ => stays_bind (stays_check _) fun _ =>
      stays_bind (stays_lift _) fun _ => stays_push _
  | put =>
    exact stays_bind stays_pop fun _ => stays_bind stays_pop fun _ =>
      stays_bind (stays_check _) fun _ => stays_lift _
  | getStatic => exact stays_bind (stays_lift _) fun _ => stays_push _
  | putStatic => exact stays_bind stays_pop fun _ => stays_lift _

theorem stays_accessPrivileged (access : FieldAccess) (id : TypeId) (field : FieldRef) :
    Stays (m.accessPrivileged access id field) := by
  refine stays_bind (stays_check _) fun type => ?_
  cases type.native with
  | none => exact stays_fail _
  | some owner => exact stays_bind (stays_lift _) fun live => m.stays_accessLive access field live

theorem stays_callSpecialLive (id : TypeId) (method : MethodRef) :
    Stays (m.callSpecialLive id method) := by
  refine stays_bind (stays_check _) fun t => stays_bind (stays_ask _) fun shape => ?_
  cases shape with
  | none => exact stays_fail _
  | some shape =>
    exact stays_bind (stays_popMany _) fun _ => stays_bind (stays_lift _) fun _ =>
      stays_pushResult _ _

theorem stays_callSuperLive (id : TypeId) (method : MethodRef) :
    Stays (m.callSuperLive id method) :=
  stays_bind (stays_check _) fun _ => stays_bind (stays_popMany _) fun _ =>
    stays_bind (stays_lift _) fun _ => stays_pushResult _ _

theorem stays_invokeHost (kind : InvokeKind) (method : MethodRef) :
    Stays (m.invokeHost kind method) :=
  stays_bind (stays_popMany _) fun _ => stays_get_bind fun _ => stays_bind (stays_lift _) fun _ =>
    stays_pushResult _ _

theorem stays_executePlain (instr : Instr) : Stays (m.executePlain instr) := by
  cases instr with
  | pop => exact stays_bind stays_pop fun _ => stays_pure _
  | dup => exact stays_bind (stays_look _) fun _ => stays_push _
  | swap =>
    exact stays_bind stays_pop fun _ => stays_bind stays_pop fun _ =>
      stays_bind (stays_push _) fun _ => stays_push _
  | load slot => exact stays_bind (stays_look _) fun _ => stays_push _
  | store slot => exact stays_bind stays_pop fun value => stays_store _ value
  | arith | compare =>
    exact stays_bind stays_pop fun _ => stays_bind stays_pop fun _ =>
      stays_bind (stays_check _) fun _ => stays_push _
  | neg =>
    exact stays_bind stays_pop fun _ => stays_bind (stays_check _) fun _ => stays_push _
  | concat =>
    exact stays_bind stays_pop fun _ => stays_bind stays_pop fun _ =>
      stays_bind (stays_ask _) fun _ => stays_push _
  | not => exact stays_bind stays_popBool fun _ => stays_push _
  | new typeName => exact stays_bind (stays_lift _) fun _ => stays_push _
  | newArray element => exact stays_newArray element
  | arrayLoad =>
    exact stays_bind stays_popInt fun _ => stays_bind (stays_popArray _) fun _ =>
      stays_bind (stays_check _) fun _ => stays_bind (stays_ask _) fun _ => stays_push _
  | arrayStore => exact stays_arrayStore
  | arrayLength =>
    exact stays_bind (stays_popArray _) fun _ => stays_bind (stays_ask _) fun _ => stays_push _
  | instanceOf typeName =>
    exact stays_bind stays_pop fun _ => stays_bind (stays_ask _) fun _ => stays_push _
  | checkCast typeName => exact stays_bind (stays_look _) fun _ => stays_check _
  | invoke kind method => exact m.stays_invokeHost kind method
  | access access field => exact m.stays_accessHost access field
  | liveAccess access id field => exact m.stays_accessPrivileged access id field
  | liveSpecial id method => exact m.stays_callSpecialLive id method
  | liveSuper id method | liveInit id method => exact m.stays_callSuperLive id method
  | constNull | constBool | constInt | constFloat | constStr => exact stays_push _
  | nop | jump | jumpIf | ret | retValue | entryCheck | invokeCheck | fieldCheck =>
    exact stays_pure _

theorem stays_checkInvoke (id : TypeId) : Stays (m.checkInvoke id) := by
  refine stays_bind stays_guarded fun instr => ?_
  cases instr with
  | invoke kind method =>
    refine stays_get_bind fun f => stays_bind (stays_lift _) fun route => ?_
    cases route with
    | native => exact stays_pure _
    | dynamic live =>
      exact stays_bind (stays_popMany _) fun _ => stays_bind (stays_lift _) fun _ =>
        stays_bind (stays_pushResult _ _) fun _ => stays_pure _
  | _ => exact stays_fail _

theorem stays_checkField : Stays m.checkField := by
  refine stays_bind stays_guarded fun instr => ?_
  cases instr with
  | access access field =>
    refine stays_get_bind fun f => stays_bind (stays_lift _) fun route => ?_
    cases route with
    | native => exact stays_pure _
    | managed live => exact stays_bind (m.stays_accessLive _ _ live) fun _ => stays_pure _
  | _ => exact stays_fail _

theorem stays_checkEntry (id : TypeId) (slot : Nat) : Stays (m.checkEntry id slot) := by
  intro f e flow f' e' run
  rw [checkEntry_apply] at run
  split at run
  · cases run
    exact .refl f
  · split at run <;> cases run
    exact .refl f

/-- An instruction leaves the method, the place and the number of local slots of its frame. -/
theorem stays_execute (instr : Instr) : Stays (m.execute instr) := by
  cases instr with
  | jump | ret => exact stays_pure _
  | jumpIf => exact stays_bind stays_popBool fun _ => stays_pure _
  | retValue => exact stays_bind stays_pop fun _ => stays_pure _
  | entryCheck id slot => exact m.stays_checkEntry id _
  | invokeCheck id => exact m.stays_checkInvoke id
  | fieldCheck => exact m.stays_checkField
  | _ => exact stays_bind (m.stays_executePlain _) fun _ => stays_pure _

end Machine

end LiveUpdate
