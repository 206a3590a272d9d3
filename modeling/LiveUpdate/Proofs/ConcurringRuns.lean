import LiveUpdate.Proofs.Concurring
import LiveUpdate.Proofs.Reachable
import LiveUpdate.Proofs.Stepping

/-!
# Running code sees the face only

Whatever instructions run, they come out in the same way from engines that resemble each other.
Two things have to be known for that: how guards of invocations decide, and that a check in front
of a body finds the same, whether the version in force was published or is the first one.  Then
the instructions concur one by one, runs by induction on the fuel, and all uses of a scope.
-/

set_option autoImplicit false

namespace LiveUpdate

open Exec

/-- What the checks in the bodies of a managed type can find: as long as no version was published
every slot runs its host body, and what is in an executor has one. -/
structure ManagedType.Tabled (t : ManagedType) : Prop where
  unpublished : t.published = none → ∀ slot entry,
    t.live.dispatch.entry? slot = some entry → entry = .host
  executed : ∀ slot method, t.live.dispatch.entry? slot = some (.executor method) →
    t.live.executor?.isSome

/-- The tables of all managed types of scopes are in order. -/
def Engine.Tabled (e : Engine) : Prop :=
  ∀ s id t, e.typeWithId? s id = some t → (e.typeAt t).Tabled

/-- Under the law code cannot tell engines apart that resemble each other: guards of invocations
decide in the same way, and tables are in order. -/
structure Law.Blind (law : Law) : Prop where
  tabled : ∀ {e : Engine}, law.holds e → e.Tabled
  routed : ∀ {m : Machine} {method : Method} {pc : Nat} {id : TypeId} {kind : InvokeKind}
    {ref : MethodRef}, law.runs method → method.code[pc]? = some (.invokeCheck id) →
    method.code[pc + 1]? = some (.invoke kind ref) → ∀ caller,
      Exec.Concurs law (m.routeInvoke caller id kind ref) fun route =>
        ∀ live, route = .dynamic live → live.Hosts law.runs

namespace Step

variable {α β : Type} {law : Law} {mid : α → Prop} {post : β → Prop}

/-- A computation inside a frame concurs, whatever the frame is. -/
def Concurs (law : Law) (x : Step α) (post : α → Prop) : Prop :=
  ∀ f, Exec.Concurs law (x f) fun r => post r.1

theorem concurs_pure {b : β} (h : post b) : Concurs law (pure b : Step β) post :=
  fun _ => Exec.concurs_pure h

theorem concurs_bind {x : Step α} {k : α → Step β} (hx : Concurs law x mid)
    (hk : ∀ a, mid a → Concurs law (k a) post) : Concurs law (x >>= k) post :=
  fun f => Exec.concurs_bind (hx f) fun r h => hk r.1 h r.2

theorem concurs_lift {x : Run β} (hx : Exec.Concurs law x post) :
    Concurs law (liftM x : Step β) post :=
  fun _ => Exec.concurs_bind hx fun _ h => Exec.concurs_pure h

theorem concurs_get_bind {k : Frame → Step β} (hk : ∀ f, Concurs law (k f) post) :
    Concurs law (get >>= k) post := fun f => hk f f

/-- A question about the frame is none about the engine. -/
theorem concurs_onFrame (g : Frame → Except RunError (β × Frame)) :
    Concurs law (onFrame g) fun _ => True := by
  intro f e e' matched
  rw [onFrame_apply, onFrame_apply]
  cases g f with
  | ok next => exact .ok True.intro matched
  | error error => exact .error matched

theorem concurs_ask {g : Engine → β} (seen : ∀ {e e' : Engine}, e.Resembles e' → g e' = g e) :
    Concurs law (ask g) fun _ => True :=
  concurs_lift (Exec.concurs_ask seen fun _ _ => True.intro)

theorem concurs_check {g : Engine → Except RunError β}
    (seen : ∀ {e e' : Engine}, e.Resembles e' → g e' = g e) :
    Concurs law (check g) fun _ => True :=
  concurs_lift (Exec.concurs_check seen)

theorem concurs_fail (error : RunError) : Concurs law (fail error : Step β) fun _ => True :=
  concurs_lift (Exec.concurs_fail error)

theorem concurs_push (value : Value) : Concurs law (push value) fun _ => True :=
  fun _ => Exec.concurs_pure True.intro

theorem concurs_pop : Concurs law pop fun _ => True := concurs_onFrame _

theorem concurs_popInt : Concurs law popInt fun _ => True :=
  concurs_bind concurs_pop fun value _ =>
    concurs_check fun same => same.of_body (value.asInt ·) fun _ => rfl

theorem concurs_popBool : Concurs law popBool fun _ => True :=
  concurs_bind concurs_pop fun value _ =>
    concurs_check fun same => same.of_body (value.asBool ·) fun _ => rfl

theorem concurs_popArray (use : NullUse) : Concurs law (popArray use) fun _ => True := by
  refine concurs_bind concurs_pop fun value _ => ?_
  split
  · exact concurs_pure True.intro
  · exact concurs_fail _

theorem concurs_pushResult (sig : MethodSig) (value : Value) :
    Concurs law (pushResult sig value) fun _ => True := by
  unfold pushResult
  split
  · exact concurs_push value
  · exact concurs_pure True.intro

/-- A guard finds the instruction behind it. -/
theorem concurs_guarded_bind {k : Instr → Step β} {f : Frame}
    (hk : ∀ instr, f.method.code[f.pc + 1]? = some instr →
      Exec.Concurs law (k instr f) fun r => post r.1) :
    Exec.Concurs law ((guarded >>= k) f) fun r => post r.1 := by
  intro e e' matched
  cases next : f.method.code[f.pc + 1]? with
  | none =>
    have stuck (e : Engine) : (guarded >>= k) f e =
        .error (.error (.malformed (.danglingCheck f.method.key.text))) e := by
      unfold guarded
      rw [bind_apply, get_bind, next]
      rfl
    rw [stuck, stuck]
    exact .error matched
  | some instr =>
    rw [guarded_bind next, guarded_bind next]
    exact hk instr next e e' matched

end Step

namespace Machine

open Step (concurs_pop concurs_popInt concurs_popBool concurs_popArray concurs_push
  concurs_pushResult concurs_lift concurs_onFrame)

variable {law : Law} {m : Machine}

/-- At another depth the same comes out. -/
theorem Law.Matches.setDepth {e e' : Engine} (matched : law.Matches e e') (g : Nat → Nat) :
    law.Matches { e with depth := g e.depth } { e' with depth := g e'.depth } where
  left := law.writes (e.writes_setDepth _) matched.left
  right := law.writes (e'.writes_setDepth _) matched.right
  same := by
    have faces := congrArg (fun bones : Engine => { bones with depth := g bones.depth }) matched.same
    exact faces

theorem concurs_atDepth {x : Run Value} {post : Value → Prop} (hx : Exec.Concurs law x post)
    (g : Nat → Nat) : Exec.Concurs law (atDepth g x) post := by
  intro e e' matched
  have inner := hx _ _ (Law.Matches.setDepth matched g)
  have depth : e'.depth = e.depth := matched.same.of_body Engine.depth fun _ => rfl
  rw [atDepth_apply, atDepth_apply, depth]
  rw [depth] at inner
  generalize x { e with depth := g e.depth } = made at inner ⊢
  generalize x { e' with depth := g e.depth } = made' at inner ⊢
  cases inner with
  | ok holds after => exact .ok holds (Law.Matches.setDepth after fun _ => e.depth)
  | error after => exact .error (Law.Matches.setDepth after fun _ => e.depth)

theorem concurs_counted {x : Run Value} {post : Value → Prop} (hx : Exec.Concurs law x post) :
    Exec.Concurs law (counted x) post := by
  intro e e' matched
  have inner := hx _ _ (Law.Matches.setDepth matched (· + 1))
  rw [counted_apply, counted_apply]
  generalize x { e with depth := e.depth + 1 } = made at inner ⊢
  generalize x { e' with depth := e'.depth + 1 } = made' at inner ⊢
  cases inner with
  | ok holds after => exact .ok holds (Law.Matches.setDepth after (· - 1))
  | error after => exact .error (Law.Matches.setDepth after (· - 1))

theorem concurs_arrayStore : Step.Concurs law arrayStore fun _ => True := by
  refine Step.concurs_bind concurs_pop fun value _ => Step.concurs_bind concurs_popInt
    fun index _ => Step.concurs_bind (concurs_popArray _) fun a _ => ?_
  refine Step.concurs_bind (Step.concurs_check fun same =>
    same.of_body (fun e => value.checkConforms e (e.arrayAt a).element) fun _ => rfl) fun _ _ => ?_
  refine Step.concurs_bind (Step.concurs_check fun same =>
    same.of_body (fun e => (e.arrayAt a).place index) fun _ => rfl) fun place _ => ?_
  exact concurs_lift (concurs_modify (fun e => e.writes_updateArray a _) fun _ => rfl)

theorem concurs_newArray (element : TypeSig) :
    Step.Concurs law (newArray element) fun _ => True := by
  refine Step.concurs_bind concurs_popInt fun length _ => ?_
  have allocate : Step.Concurs law (do
      let a ← modifyGetThe Engine fun e =>
        e.newArray ⟨element, Array.replicate length.toInt.toNat (.zeroOf element)⟩
      Step.push (.array a) : Step Unit) fun _ => True :=
    Step.concurs_bind (concurs_lift (concurs_modifyGet (fun e => e.writes_newArray _) fun _ => rfl))
      fun _ _ => concurs_push _
  dsimp only
  split
  · exact Step.concurs_bind (Step.concurs_fail _) fun _ (_ : True) => allocate
  · exact allocate

/-- What runs in the place of a body by the table in force, if anything does. -/
def redirection? (m : Machine) (t : TypeRef) (type : ManagedType) (slot : Nat) (host : Method)
    (args : List Value) : Option (Run Value) :=
  match type.live.dispatch.entry? slot, type.live.executor? with
  | some (.executor method), some executor =>
    if args.length ≠ method.argCount then
      some (fail (.classChange (.shape s!"{type.name}.{host.key.text}")))
    else some (m.call executor method args)
  | some .deleted, _ =>
    if host.isStatic || host.isConstructor then some (fail (.memberMissing type.name host.key))
    else some (m.callInherited t host.key args)
  | some .abstract, _ => some (fail (.abstractMethod s!"{type.name}.{host.key.text}"))
  | _, _ => none

/-- Where tables are in order the check in a body finds what the table in force says, published
or not. -/
theorem replacement?_of_tabled {e : Engine} {id : TypeId} {t : TypeRef} {slot : Nat}
    {host : Method} {args : List Value} (known : e.typeWithId? m.scope id = some t)
    (tabled : (e.typeAt t).Tabled) : m.replacement? e id slot host args =
      m.redirection? t (e.typeAt t) slot host args := by
  unfold replacement? redirection?
  rw [known]
  dsimp only [Option.bind_eq_bind, Option.bind_some]
  cases published : (e.typeAt t).published with
  | none =>
    dsimp only [Option.bind_none]
    cases entry : (e.typeAt t).live.dispatch.entry? slot with
    | none => rfl
    | some entry' =>
      obtain rfl := tabled.unpublished published slot entry' entry
      rfl
  | some version =>
    rw [← ManagedType.live_of_published published]
    dsimp only [Option.bind_some]
    cases entry : (e.typeAt t).live.dispatch.entry? slot with
    | none => rfl
    | some entry' =>
      cases entry' with
      | host | deleted | abstract => rfl
      | executor method =>
        obtain ⟨executor, some_executor⟩ :=
          Option.isSome_iff_exists.1 (tabled.executed slot method entry)
        rw [some_executor]
        rfl

section Instructions

variable (hm : m.Concurs law)
include hm

theorem concurs_accessHost (access : FieldAccess) (f : FieldRef) :
    Step.Concurs law (m.accessHost access f) fun _ => True := by
  have received (receiver : Value) :
      Step.Concurs law (Step.check fun _ => fieldReceiver receiver f) fun _ => True :=
    Step.concurs_check fun _ => rfl
  refine Step.concurs_get_bind fun frame =>
    Step.concurs_bind (concurs_lift (concurs_hostField _ access f)) fun host _ => ?_
  have fits (value : Value) :
      Step.Concurs law (Step.check fun e => value.checkConforms e host.slot.sig) fun _ => True :=
    Step.concurs_check fun same => same.of_body (value.checkConforms · host.slot.sig) fun _ => rfl
  cases access with
  | get =>
    refine Step.concurs_bind concurs_pop fun receiver _ =>
      Step.concurs_bind (received receiver) fun o _ => ?_
    exact Step.concurs_bind (Step.concurs_check fun same => same.of_body
      (·.readSlot o host.slot.declaring host.slot.name (.fieldMissing f)) fun _ => rfl)
      fun _ _ => concurs_push _
  | put =>
    exact Step.concurs_bind concurs_pop fun value _ => Step.concurs_bind concurs_pop fun receiver _ =>
      Step.concurs_bind (received receiver) fun o _ => Step.concurs_bind (fits value) fun _ _ =>
        concurs_lift (concurs_writeSlot _ _ _ _ _)
  | getStatic =>
    exact Step.concurs_bind (concurs_lift (concurs_ensureInitialized hm _)) fun _ _ =>
      Step.concurs_bind (concurs_lift (concurs_readStatic _ _ _)) fun _ _ => concurs_push _
  | putStatic =>
    exact Step.concurs_bind concurs_pop fun value _ => Step.concurs_bind (fits value) fun _ _ =>
      Step.concurs_bind (concurs_lift (concurs_ensureInitialized hm _)) fun _ _ =>
        concurs_lift (concurs_writeStatic _ _ _)

theorem concurs_accessLive (access : FieldAccess) (f : FieldRef) (live : LiveField) :
    Step.Concurs law (m.accessLive access f live) fun _ => True := by
  have received (receiver : Value) :
      Step.Concurs law (Step.check fun _ => fieldReceiver receiver f) fun _ => True :=
    Step.concurs_check fun _ => rfl
  cases access with
  | get =>
    exact Step.concurs_bind concurs_pop fun receiver _ =>
      Step.concurs_bind (received receiver) fun _ _ =>
        Step.concurs_bind (concurs_lift (concurs_readField hm live _)) fun _ _ => concurs_push _
  | put =>
    exact Step.concurs_bind concurs_pop fun value _ => Step.concurs_bind concurs_pop fun receiver _ =>
      Step.concurs_bind (received receiver) fun _ _ =>
        concurs_lift (concurs_writeField hm live _ value)
  | getStatic =>
    exact Step.concurs_bind (concurs_lift (concurs_readField hm live _)) fun _ _ => concurs_push _
  | putStatic =>
    exact Step.concurs_bind concurs_pop fun value _ =>
      concurs_lift (concurs_writeField hm live _ value)

theorem concurs_accessPrivileged (access : FieldAccess) (id : TypeId) (f : FieldRef) :
    Step.Concurs law (m.accessPrivileged access id f) fun _ => True := by
  let goOn (type : ManagedType) : Step Unit :=
    type.native.elim (Step.fail (.classNotFound type.name)) fun owner => do
      m.accessLive access f (← m.liveField owner access f)
  have goesOn (type : ManagedType) : Step.Concurs law (goOn type) fun _ => True := by
    dsimp only [goOn]
    cases type.native with
    | none => exact Step.concurs_fail _
    | some owner =>
      exact Step.concurs_bind (concurs_lift (concurs_liveField owner access f)) fun live _ =>
        concurs_accessLive hm access f live
  have whole : m.accessPrivileged access id f =
      (Step.check (fun e => return e.typeAt (← managedType e m.scope id)) >>= goOn) := by
    unfold accessPrivileged
    refine congrArg (Step.check _ >>= ·) (funext fun type => ?_)
    dsimp only [goOn]
    cases type.native <;> rfl
  intro frame e e' matched
  rw [whole, Step.check_bind, Step.check_bind, matched.same.managedType]
  cases managedType e m.scope id with
  | error error => exact .error matched
  | ok t =>
    have seen : goOn (e'.typeAt t) = goOn (e.typeAt t) := matched.same.of_type t goOn fun _ => rfl
    show Exec.Matched law _ (goOn (e.typeAt t) frame e) (goOn (e'.typeAt t) frame e')
    rw [seen]
    exact goesOn _ frame e e' matched

/-- A guard of an invocation in a method that may run concurs. -/
theorem concurs_checkInvoke (blind : law.Blind) {id : TypeId} {f : Frame}
    (runs : law.runs f.method) (here : f.instr? = some (.invokeCheck id)) :
    Exec.Concurs law (m.checkInvoke id f) fun _ => True := by
  unfold checkInvoke
  refine @Step.concurs_guarded_bind _ law (fun _ => True) _ _ fun instr next => ?_
  split
  next kind method =>
    have routes := blind.routed (m := m) runs here next f.cls
    have settled : Exec.Concurs law (do
        let route ← m.routeInvoke f.cls id kind method
        return (route, f) : Run (InvokeRoute × Frame)) fun r =>
          r.2 = f ∧ ∀ live, r.1 = .dynamic live → live.Hosts law.runs :=
      Exec.concurs_bind routes fun route hosts => Exec.concurs_pure ⟨rfl, hosts⟩
    refine Exec.concurs_bind settled fun r found => ?_
    obtain ⟨route, f'⟩ := r
    obtain ⟨rfl, hosts⟩ := found
    cases route with
    | native => exact Exec.concurs_pure True.intro
    | dynamic live =>
      have goesOn : Step.Concurs law (do
          let args ← Step.popMany (kind.argCount method)
          Step.pushResult method.sig (← m.callDynamic f'.cls kind method live args)
          return .skip : Step Flow) fun _ => True :=
        Step.concurs_bind (concurs_onFrame _) fun _ _ =>
          Step.concurs_bind (concurs_lift (concurs_callDynamic hm _ _ _ (hosts live rfl) _))
            fun _ _ => Step.concurs_bind (concurs_pushResult _ _) fun _ _ =>
              Step.concurs_pure True.intro
      exact goesOn f'
  · exact Step.concurs_fail _ f

theorem concurs_checkField (f : Frame) :
    Exec.Concurs law (m.checkField f) fun _ => True := by
  unfold checkField
  refine @Step.concurs_guarded_bind _ law (fun _ => True) _ _ fun instr _ => ?_
  cases instr with
  | access access field =>
    refine (?_ : Step.Concurs law _ fun _ => True) f
    refine Step.concurs_get_bind fun frame =>
      Step.concurs_bind (concurs_lift (concurs_routeField _ _ _)) fun route _ => ?_
    cases route with
    | native => exact Step.concurs_pure True.intro
    | managed live =>
      exact Step.concurs_bind (concurs_accessLive hm _ _ _) fun _ _ => Step.concurs_pure True.intro
  | _ => exact Step.concurs_fail _ f

/-- What runs in the place of a body concurs. -/
theorem concurs_redirection {e : Engine} (he : law.holds e) {t : TypeRef} {slot : Nat}
    {host : Method} {args : List Value} {x : Run Value}
    (redirected : m.redirection? t (e.typeAt t) slot host args = some x) :
    Exec.Concurs law x fun _ => True := by
  unfold redirection? at redirected
  split at redirected
  next method executor entry _ =>
    obtain ⟨⟨key, _⟩, found, rfl⟩ := Option.map_eq_some_iff.1 entry
    have runs := law.entered he (List.mem_of_getElem? found)
    split at redirected
    · cases redirected
      exact concurs_fail _
    · cases redirected
      exact hm executor method args runs
  · split at redirected
    · cases redirected
      exact concurs_fail _
    · cases redirected
      exact concurs_callInherited hm t _ args
  · cases redirected
    exact concurs_fail _
  · cases redirected

theorem concurs_checkEntry (blind : law.Blind) (id : TypeId) (slot : Nat) :
    Step.Concurs law (m.checkEntry id slot) fun _ => True := by
  intro f e e' matched
  have typed := matched.same.typeWithId? m.scope id
  rw [checkEntry_apply, checkEntry_apply]
  cases known : e.typeWithId? m.scope id with
  | none =>
    rw [known] at typed
    unfold replacement?
    rw [known, typed]
    exact .ok True.intro matched
  | some t =>
    rw [known] at typed
    rw [replacement?_of_tabled known (blind.tabled matched.left _ _ _ known),
      replacement?_of_tabled typed (blind.tabled matched.right _ _ _ typed),
      matched.same.of_type t (m.redirection? t · slot f.method f.arguments) fun _ => rfl]
    cases redirected : m.redirection? t (e.typeAt t) slot f.method f.arguments with
    | none => exact .ok True.intro matched
    | some x =>
      have inner := concurs_atDepth (concurs_redirection hm matched.left redirected) (· - 1)
        e e' matched
      rw [← forwarding_eq] at inner
      dsimp only
      generalize forwarding x e = made at inner ⊢
      generalize forwarding x e' = made' at inner ⊢
      cases inner with
      | ok holds after => exact .ok True.intro after
      | error after => exact .error after

theorem concurs_callSpecialLive (id : TypeId) (method : MethodRef) :
    Step.Concurs law (m.callSpecialLive id method) fun _ => True := by
  refine Step.concurs_bind (Step.concurs_check fun same => same.managedType _ _) fun t _ =>
    Step.concurs_bind (Step.concurs_ask fun same => same.liveMethod? _ _) fun shape _ => ?_
  cases shape with
  | none => exact Step.concurs_fail _
  | some shape =>
    exact Step.concurs_bind (concurs_onFrame _) fun _ _ =>
      Step.concurs_bind (concurs_lift (concurs_callPrivileged hm t method _)) fun _ _ =>
        concurs_pushResult _ _

theorem concurs_callSuperLive (id : TypeId) (method : MethodRef) :
    Step.Concurs law (m.callSuperLive id method) fun _ => True :=
  Step.concurs_bind (Step.concurs_check fun same => same.managedType _ _) fun t _ =>
    Step.concurs_bind (concurs_onFrame _) fun _ _ =>
      Step.concurs_bind (concurs_lift (concurs_callInherited hm t _ _)) fun _ _ =>
        concurs_pushResult _ _

theorem concurs_invokeHost (kind : InvokeKind) (method : MethodRef) :
    Step.Concurs law (m.invokeHost kind method) fun _ => True :=
  Step.concurs_bind (concurs_onFrame _) fun _ _ => Step.concurs_get_bind fun _ =>
    Step.concurs_bind (concurs_lift (concurs_callNative hm _ kind method _)) fun _ _ =>
      concurs_pushResult _ _

theorem concurs_executePlain (instr : Instr) :
    Step.Concurs law (m.executePlain instr) fun _ => True := by
  have asked {α : Type} (g : Engine → α) (bodily : ∀ e, g e.body = g e) :
      Step.Concurs law (Step.ask g) fun _ => True :=
    Step.concurs_ask fun same => same.of_body g bodily
  have checked {α : Type} (g : Engine → Except RunError α) (bodily : ∀ e, g e.body = g e) :
      Step.Concurs law (Step.check g) fun _ => True :=
    Step.concurs_check fun same => same.of_body g bodily
  cases instr with
  | pop => exact Step.concurs_bind concurs_pop fun _ _ => Step.concurs_pure True.intro
  | dup => exact Step.concurs_bind (concurs_onFrame _) fun _ _ => concurs_push _
  | swap =>
    exact Step.concurs_bind concurs_pop fun _ _ => Step.concurs_bind concurs_pop fun _ _ =>
      Step.concurs_bind (concurs_push _) fun _ _ => concurs_push _
  | load slot => exact Step.concurs_bind (concurs_onFrame _) fun _ _ => concurs_push _
  | store slot => exact Step.concurs_bind concurs_pop fun _ _ => concurs_onFrame _
  | arith op =>
    exact Step.concurs_bind concurs_pop fun b _ => Step.concurs_bind concurs_pop fun a _ =>
      Step.concurs_bind (checked (fun e => a.arith e op b) fun _ => rfl) fun _ _ => concurs_push _
  | compare op =>
    exact Step.concurs_bind concurs_pop fun b _ => Step.concurs_bind concurs_pop fun a _ =>
      Step.concurs_bind (checked (fun e => a.compareValues e op b) fun _ => rfl)
        fun _ _ => concurs_push _
  | neg =>
    exact Step.concurs_bind concurs_pop fun a _ =>
      Step.concurs_bind (checked (fun e => a.negate e) fun _ => rfl) fun _ _ => concurs_push _
  | concat =>
    exact Step.concurs_bind concurs_pop fun b _ => Step.concurs_bind concurs_pop fun a _ =>
      Step.concurs_bind (asked (fun e => a.text e ++ b.text e) fun _ => rfl)
        fun _ _ => concurs_push _
  | not => exact Step.concurs_bind concurs_popBool fun _ _ => concurs_push _
  | new typeName =>
    exact Step.concurs_bind (concurs_lift (concurs_instantiate hm typeName))
      fun _ _ => concurs_push _
  | newArray element => exact concurs_newArray element
  | arrayLoad =>
    exact Step.concurs_bind concurs_popInt fun index _ =>
      Step.concurs_bind (concurs_popArray _) fun a _ =>
        Step.concurs_bind (checked (fun e => (e.arrayAt a).place index) fun _ => rfl) fun place _ =>
          Step.concurs_bind (asked (fun e => (e.arrayAt a).get place) fun _ => rfl)
            fun _ _ => concurs_push _
  | arrayStore => exact concurs_arrayStore
  | arrayLength =>
    exact Step.concurs_bind (concurs_popArray _) fun a _ =>
      Step.concurs_bind (asked (fun e => (e.arrayAt a).items.size) fun _ => rfl)
        fun _ _ => concurs_push _
  | instanceOf typeName =>
    exact Step.concurs_bind concurs_pop fun value _ =>
      Step.concurs_bind (asked (isInstance · value typeName) fun _ => rfl) fun _ _ => concurs_push _
  | checkCast typeName =>
    exact Step.concurs_bind (concurs_onFrame _) fun value _ => checked _ fun _ => rfl
  | invoke kind method => exact concurs_invokeHost hm kind method
  | access access f => exact concurs_accessHost hm access f
  | liveAccess access id f => exact concurs_accessPrivileged hm access id f
  | liveSpecial id method => exact concurs_callSpecialLive hm id method
  | liveSuper id method | liveInit id method => exact concurs_callSuperLive hm id method
  | constNull | constBool _ | constInt _ | constFloat _ | constStr _ => exact concurs_push _
  | nop | jump _ | jumpIf _ _ | ret | retValue | entryCheck _ _ | invokeCheck _ | fieldCheck _ =>
    exact Step.concurs_pure True.intro

/-- The next instruction of a method that may run concurs. -/
theorem concurs_execute (blind : law.Blind) {instr : Instr} {f : Frame}
    (runs : law.runs f.method) (here : f.instr? = some instr) :
    Exec.Concurs law (m.execute instr f) fun _ => True := by
  have goesOn {α : Type} {x : Step α} (hx : Step.Concurs law x fun _ => True) (flow : α → Flow) :
      Exec.Concurs law ((x >>= fun a => pure (flow a) : Step Flow) f) fun _ => True := by
    have moved : Step.Concurs law (x >>= fun a => pure (flow a) : Step Flow) fun _ => True :=
      Step.concurs_bind hx fun _ _ => Step.concurs_pure True.intro
    exact moved f
  cases instr with
  | jump target => exact Exec.concurs_pure True.intro
  | jumpIf cond target => exact goesOn concurs_popBool _
  | ret => exact Exec.concurs_pure True.intro
  | retValue => exact goesOn concurs_pop _
  | entryCheck id slot => exact concurs_checkEntry hm blind _ _ f
  | invokeCheck id => exact concurs_checkInvoke hm blind runs here
  | fieldCheck id => exact concurs_checkField hm f
  | _ => exact goesOn (concurs_executePlain hm _) _

end Instructions

section Runs

variable (hm : m.Concurs law) (obeys : m.Obeys law) (blind : law.Blind)
include hm obeys blind

theorem concurs_run (fuel : Nat) {f : Frame} (runs : law.runs f.method) :
    Exec.Concurs law (m.run fuel f) fun _ => True := by
  -- No instruction changes the method of its frame, so what runs next may run, too.
  induction fuel generalizing f with
  | zero => exact concurs_throw _
  | succ fuel ih =>
    unfold run
    split
    · split
      · exact Exec.concurs_fail _
      · exact Exec.concurs_pure True.intro
    next instr here =>
      have stays := (concurs_execute hm blind runs here).and_obeys (obeys_execute obeys runs here)
      refine Exec.concurs_bind stays fun next same => ?_
      obtain ⟨flow, f'⟩ := next
      have on (pc : Nat) : law.runs (f'.goTo pc).method := same.2 ▸ runs
      cases flow with
      | next | skip | jump _ => exact ih (on _)
      | ret value => exact Exec.concurs_pure True.intro

theorem concurs_enter (fuel : Nat) (c : ClassRef) {method : Method} (args : List Value)
    (runs : law.runs method) : Exec.Concurs law (m.enter fuel c method args) fun _ => True := by
  have body := concurs_counted (concurs_run hm obeys blind fuel (f := .enter c method args) runs)
  have deeper : Exec.Concurs law (m.runDeeper fuel (.enter c method args)) fun _ => True := by
    rw [runDeeper_eq]
    refine concurs_ask_bind (fun same => by rw [same.of_body Engine.depth fun _ => rfl]) fun _ _ =>
      concurs_ask_bind (fun same => by rw [same.options]) fun _ _ => ?_
    split
    · exact concurs_bind (concurs_fail _) fun _ (_ : True) => body
    · exact body
  by_cases abstract : method.isAbstract = true
  · rw [enter_abstract fuel c args abstract]
    exact Exec.concurs_fail _
  · have concrete : method.isAbstract = false := by simpa using abstract
    by_cases fits : args.length = method.argCount
    · rw [enter_eq fuel c concrete fits]
      unfold enterBody
      split
      · exact Exec.concurs_bind (concurs_ensureInitialized hm c) fun _ _ => deeper
      · exact deeper
    · rw [enter_misfit fuel c concrete fits]
      exact Exec.concurs_fail _

end Runs

end Machine

/-- Calls concur, with any amount of fuel. -/
theorem concurs_of {law : Law} (blind : law.Blind) (s : ScopeRef) (fuel : Nat) :
    (Machine.of s fuel).Concurs law := by
  induction fuel with
  | zero => exact fun _ _ _ _ => concurs_throw _
  | succ fuel ih =>
    exact fun c _ args runs => Machine.concurs_enter ih (obeys_of law s fuel) blind fuel c args runs

namespace Reflect

section Uses

variable {law : Law} (blind : law.Blind) (fuel : Nat) (s : ScopeRef) (typeName name : String)

theorem concurs_liveField (receiver : Option Value) :
    Exec.Concurs law (liveField s typeName name receiver) fun _ => True := by
  unfold liveField
  refine concurs_bind (concurs_check fun same => same.requireClass _ _) fun c _ =>
    concurs_bind (concurs_resolve (fun same => same.resolveField _ _ _) fun _ _ _ _ => True.intro)
      fun found _ => ?_
  cases found with
  | none => exact concurs_fail _
  | some f =>
    dsimp only
    split
    · exact concurs_pure True.intro
    · split
      · exact concurs_bind (Machine.concurs_classOf _) fun _ _ =>
          concurs_bind (Machine.concurs_checkReceiverClass _ typeName) fun _ _ =>
            concurs_pure True.intro
      · exact concurs_fail _

theorem concurs_liveMethod (key : MemberKey) :
    Exec.Concurs law (liveMethod s typeName key) fun found => found.2.Hosts law.runs := by
  unfold liveMethod
  refine concurs_bind (concurs_check fun same => same.requireClass _ _) fun c _ =>
    concurs_bind (Machine.concurs_resolveMethod _ _ _) fun found hosts => ?_
  split
  next live => exact concurs_pure (hosts live rfl)
  · exact concurs_fail _

include blind

theorem concurs_readField (receiver : Option Value) :
    Exec.Concurs law (readField fuel s typeName name receiver) fun _ => True :=
  concurs_bind (concurs_liveField s typeName name receiver) fun f _ =>
    Machine.concurs_readField (concurs_of blind s fuel) f.1 f.2

theorem concurs_writeField (receiver : Option Value) (value : Value) :
    Exec.Concurs law (writeField fuel s typeName name receiver value) fun _ => True :=
  concurs_bind (concurs_liveField s typeName name receiver) fun f _ =>
    Machine.concurs_writeField (concurs_of blind s fuel) f.1 f.2 value

theorem concurs_call (key : MemberKey) (args : List Value) :
    Exec.Concurs law (call fuel s typeName key args) fun _ => True := by
  have hm := concurs_of blind s fuel
  unfold call
  refine concurs_bind (concurs_liveMethod s typeName key) fun found hosts => ?_
  dsimp only
  split
  · exact Machine.concurs_callResolved hm hosts _ _
  · refine concurs_bind concurs_examined fun o _ => concurs_bind (Machine.concurs_classOf o)
      fun _ _ => concurs_bind (Machine.concurs_checkReceiverClass _ _) fun _ _ => ?_
    split
    · exact Machine.concurs_callResolved hm hosts _ _
    · exact Machine.concurs_callVirtual hm _ _ _

theorem concurs_newInstance (sig : MethodSig) (args : List Value) :
    Exec.Concurs law (newInstance fuel s typeName sig args) fun _ => True := by
  have hm := concurs_of blind s fuel
  unfold newInstance
  exact concurs_bind (concurs_liveMethod s typeName _) fun found hosts =>
    concurs_bind (Machine.concurs_instantiate hm typeName) fun o _ =>
      concurs_bind (concurs_discard (Machine.concurs_callResolved hm hosts _ _)) fun _ _ =>
        concurs_pure True.intro

end Uses

end Reflect

namespace Scope

section Uses

variable {law : Law} (blind : law.Blind) (fuel : Nat) (s : ScopeRef)

theorem concurs_requireStatic (typeName name : String) :
    Exec.Concurs law (requireStatic s typeName name) fun _ => True := by
  unfold requireStatic
  refine concurs_bind (concurs_check fun same => same.requireClass _ _) fun c _ =>
    concurs_bind (concurs_resolve (fun same => same.resolveField _ _ _) fun _ _ _ _ => True.intro)
      fun found _ => ?_
  split
  · split
    · exact concurs_pure True.intro
    · exact concurs_fail _
  · exact concurs_fail _

theorem concurs_classNameOf (receiver : Value) (name : String) :
    Exec.Concurs law (classNameOf receiver name) fun _ => True := by
  unfold classNameOf
  split
  next o _ =>
    exact concurs_ask (fun same => same.of_body (fun e => (e.classOf o).name) fun _ => rfl)
      fun _ _ => True.intro
  · exact concurs_fail _

include blind

theorem concurs_invokeVirtual (receiver : Value) (key : MemberKey) (args : List Value) :
    Exec.Concurs law (invokeVirtual fuel s receiver key args) fun _ => True := by
  have hm := concurs_of blind s fuel
  unfold invokeVirtual
  split
  · refine concurs_bind (Machine.concurs_classOf _) fun c _ =>
      concurs_bind (Machine.concurs_dispatchVirtual hm _ _ _) fun found _ => ?_
    split
    · exact concurs_pure True.intro
    · refine concurs_ask_bind (fun same => by rw [same.nameOf]) fun e _ =>
        concurs_bind (Machine.concurs_resolveMethod _ _ _) fun live _ => ?_
      split
      · split
        · exact concurs_fail _
        · exact concurs_fail _
      · exact concurs_fail _
  · exact concurs_fail _

theorem concurs_invokeStatic (typeName : String) (key : MemberKey) (args : List Value) :
    Exec.Concurs law (invokeStatic fuel s typeName key args) fun _ => True := by
  have hm := concurs_of blind s fuel
  unfold invokeStatic
  refine concurs_bind (Reflect.concurs_liveMethod s typeName key) fun found hosts => ?_
  dsimp only
  split
  · exact Machine.concurs_callResolved hm hosts _ _
  · exact concurs_bind (concurs_fail _) fun _ (_ : True) => Machine.concurs_callResolved hm hosts _ _

/-- A use of a scope comes out in the same way from engines that resemble each other. -/
theorem Use.concurs_perform (use : Scope.Use) :
    Exec.Concurs law (use.perform fuel s) fun _ => True := by
  cases use with
  | invokeStatic => exact concurs_invokeStatic blind _ _ _ _ _
  | invokeVirtual => exact concurs_invokeVirtual blind _ _ _ _ _
  | newInstance => exact Reflect.concurs_newInstance blind _ _ _ _ _
  | getField =>
    exact concurs_bind (concurs_classNameOf _ _) fun _ _ => Reflect.concurs_readField blind _ _ _ _ _
  | setField =>
    exact concurs_bind (concurs_bind (concurs_classNameOf _ _) fun _ _ =>
      Reflect.concurs_writeField blind _ _ _ _ _ _) fun _ _ => concurs_pure True.intro
  | getStatic =>
    exact concurs_bind (concurs_requireStatic _ _ _) fun _ _ =>
      Reflect.concurs_readField blind _ _ _ _ _
  | setStatic =>
    exact concurs_bind (concurs_bind (concurs_requireStatic _ _ _) fun _ _ =>
      Reflect.concurs_writeField blind _ _ _ _ _ _) fun _ _ => concurs_pure True.intro
  | call => exact Reflect.concurs_call blind _ _ _ _ _
  | readField => exact Reflect.concurs_readField blind _ _ _ _ _
  | writeField =>
    exact concurs_bind (Reflect.concurs_writeField blind _ _ _ _ _ _) fun _ _ =>
      concurs_pure True.intro

end Uses

end Scope

end LiveUpdate
