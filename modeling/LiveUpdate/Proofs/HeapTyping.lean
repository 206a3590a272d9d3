import LiveUpdate.Proofs.Coherence
import LiveUpdate.Proofs.Survival

/-!
# The heap stays typed

What a scope is used for keeps the heap typed: between operations, and while code runs.  Defining
a class and publishing a version do not touch what is in the heap, and the classes that they add
hold zeros.  All that code writes has been checked against the declaration of its place, because
in one scope the names of a field lead to no other declaration.  So every read of a field answers
with a value of the type that it names.
-/

set_option autoImplicit false

namespace LiveUpdate

open Exec ManagedType

namespace Engine

variable {e e' : Engine}

section Resting

/-- What fits where it stands goes on fitting there while nothing runs. -/
theorem Typed.fits {new : Class → Prop} (typed : e.Typed) (rests : e.Rests new e') {v : Value}
    {sig : TypeSig} (fits : v.Fits e sig) : v.Fits e' sig := by
  have there : v.Exists e' := by
    have before := fits.there
    cases v with
    | object o =>
      show o < e'.objects.size
      rw [rests.objects]
      exact before
    | array a =>
      show a < e'.arrays.size
      rw [rests.arrays]
      exact before
    | _ => trivial
  refine ⟨there, fun declared => ?_⟩
  rw [rests.conforms fun o same => ?_]
  · exact fits.conforms declared
  · subst same
    exact (typed.objects o fits.there).cls_lt

theorem Typed.fills {new : Class → Prop} (typed : e.Typed) (rests : e.Rests new e')
    {values : List Value} {slots : List FieldSlot} (fills : e.Fills values slots) :
    e'.Fills values slots :=
  ⟨fills.length, fun i v slot held declared => typed.fits rests (fills.fits i v slot held declared)⟩

/-- What exists goes on to exist while nothing runs. -/
theorem Typed.stocks {new : Class → Prop} (typed : e.Typed) (rests : e.Rests new e')
    {store : FieldStore} (stocks : e.Stocks store) : e'.Stocks store := fun declaring name v held =>
  (typed.fits rests ⟨stocks declaring name v held, fun typed => absurd rfl typed⟩ :
    v.Fits e' .void).there

/-- The heap stays typed while nothing runs, and the classes that are added hold zeros. -/
theorem Typed.rests (typed : e.Typed) (rests : e.Rests Class.Untouched e') : e'.Typed := by
  refine ⟨fun o lt => ?_, fun c => ?_, fun a lt => ?_, fun t => ?_⟩
  · rw [rests.objects] at lt
    have object := typed.objects o lt
    rw [rests.objectAt]
    refine ⟨Nat.lt_of_lt_of_le object.cls_lt rests.classes, ?_, fun store held =>
      typed.stocks rests (object.store store held)⟩
    rw [rests.classAt _ object.cls_lt]
    exact typed.fills rests object.slots
  · by_cases before : c < e.classes.size
    · rw [rests.classAt c before]
      exact typed.fills rests (typed.statics c)
    · by_cases lt : c < e'.classes.size
      · rw [(rests.added c lt (Nat.le_of_not_lt before)).zeros]
        exact fills_zeros e' _
      · rw [classAt_of_le (Nat.le_of_not_lt lt)]
        exact fills_zeros e' []
  · have cell : e'.arrayAt a = e.arrayAt a := by
      unfold arrayAt
      rw [rests.arrays]
    rw [rests.arrays] at lt
    rw [cell]
    exact fun v mem => typed.fits rests (typed.arrays a lt v mem)
  · rw [rests.statics]
    exact typed.stocks rests (typed.stores t)

end Resting

/-- A trace does not change what names mean. -/
theorem Coherent.of_traced (coherent : e'.Coherent) (traced : OnlyTraced e e') : e.Coherent := by
  obtain ⟨trace, rfl⟩ := traced
  refine ⟨coherent.known, fun c name h found => ?_, fun s c name f found kept => ?_⟩
  · have holds := coherent.hosted c name h found
    exact ⟨holds.static, holds.slots⟩
  · have same : ({ e with trace } : Engine).resolveField s c name = e.resolveField s c name := by
      unfold resolveField
      rw [liveChain_congr { e with trace } e rfl (fun _ => rfl) c]
      rfl
    have backs := coherent.backed s c name f (same.trans found) kept
    exact ⟨backs.static, backs.slots⟩

/-- An operation keeps the heap typed if it leaves an engine in which names tell what they
mean. -/
theorem Advances.typed (advances : e.Advances Class.Untouched True e') (coherent : e'.Coherent)
    (typed : e.Typed) : e'.Typed := by
  obtain ⟨e₁, e₂, rests, ⟨evolves, ran⟩, traced⟩ := advances
  -- Running code does not change what names mean, so they mean it already where it starts to run.
  have coherent₂ := coherent.of_traced traced
  have sound : e₂.Sound :=
    ran trivial ⟨coherent₂.mono evolves.during.symm, typed.rests rests⟩
  have reported : e₂.Rests Class.Untouched e' :=
    (traced.reloads (t := 0)).toRests.mono fun _ generated => generated.toUntouched
  exact sound.typed.rests reported

/-- What is done with a scope that is open: any operation but opening another one.  Values that
are handed in refer to what exists. -/
inductive Turn (e : Engine) : Engine → Prop
  | number (s : ScopeRef) (name : String) : Turn e ((Scope.idFor s name : Run TypeId).final e)
  | define (fuel : Nat) (s : ScopeRef) (data : List UInt8) (scope_lt : s < e.scopes.size) :
      Turn e ((Scope.define fuel s data).final e)
  | load (fuel : Nat) (t : TypeRef) (stamp : String) (data : List UInt8)
      (type_lt : t < e.types.size) : Turn e ((ManagedType.load fuel t stamp data).final e)
  | addObserver (s : ScopeRef) (observer : Observer) :
      Turn e ((Scope.addObserver s observer : Run Nat).final e)
  | close (s : ScopeRef) : Turn e ((Scope.close s : Run Unit).final e)
  | superType (t : TypeRef) : Turn e ((Scope.superType t : Run (Option TypeRef)).final e)
  | metadata (s : ScopeRef) (typeName : String) : Turn e ((Reflect.metadata s typeName).final e)
  | forget (s : ScopeRef) (typeName : String) :
      Turn e ((Reflect.forget s typeName : Run Unit).final e)
  | searchField (s : ScopeRef) (name : String) (fuel : Nat) (met pending : List String) :
      Turn e ((Reflect.searchField s name fuel met pending).final e)
  | collectMethods (s : ScopeRef) (fuel : Nat) (found : List MethodInfo)
      (met pending : List String) :
      Turn e ((Reflect.collectMethods s fuel found met pending).final e)
  | use (fuel : Nat) (s : ScopeRef) (use : Scope.Use) (given : ∀ v ∈ use.values, v.Exists e) :
      Turn e ((use.perform fuel s).final e)

theorem Turn.operation (turn : e.Turn e') : e.Operation e' := by
  cases turn with
  | number s name => exact .number s name
  | define fuel s data scope_lt => exact .define fuel s data scope_lt
  | load fuel t stamp data type_lt => exact .load fuel t stamp data type_lt
  | addObserver s observer => exact .addObserver s observer
  | close s => exact .close s
  | superType t => exact .superType t
  | metadata s typeName => exact .metadata s typeName
  | forget s typeName => exact .forget s typeName
  | searchField s name fuel met pending => exact .searchField s name fuel met pending
  | collectMethods s fuel found met pending => exact .collectMethods s fuel found met pending
  | use fuel s use given => exact .use fuel s use

theorem Turn.advances (turn : e.Turn e') : e.Advances Class.Untouched True e' := by
  cases turn with
  | number | addObserver => exact .of_rests (.of_classes_eq rfl rfl rfl rfl fun _ => rfl)
  | close s => exact .of_rests (e.rests_updateScope s _)
  | define fuel s data scope_lt => exact advances_define fuel s data
  | load fuel t stamp data type_lt =>
    exact (advances_load fuel t stamp data).mono fun _ generated => generated.toUntouched
  | superType t => exact .of_rests (rests_superType t)
  | metadata s typeName => exact .of_tame (Reflect.tame_metadata And.right s typeName)
  | forget s typeName => exact .of_tame (Reflect.tame_forget And.right s typeName)
  | searchField s name fuel met pending =>
    exact .of_tame (Reflect.tame_searchField And.right s name fuel met pending)
  | collectMethods s fuel found met pending =>
    exact .of_tame (Reflect.tame_collectMethods And.right s fuel found met pending)
  | use fuel s use given => exact .of_tame (use.tame_perform fuel s And.right fun _ => given)

/-- A reload opens no scope. -/
theorem scopes_size_load (fuel : Nat) (t : TypeRef) (stamp : String) (data : List UInt8) :
    ((ManagedType.load fuel t stamp data).final e).scopes.size = e.scopes.size := by
  cases leaves_load (e := e) (t := t) fuel stamp data with
  | quiet reloads => exact reloads.scopes
  | rerun published native reloads wanted reported =>
    have tame : published.Tame False (rerunStaticInit fuel t native) fun _ _ => True :=
      tame_rerunStaticInit fuel t native False.elim
    obtain ⟨trace, same⟩ := reported
    rw [same]
    exact tame.evolves.during.scopes_size.trans reloads.scopes

/-- A definition opens no scope. -/
theorem scopes_size_define (grounded : e.Grounded) (fuel : Nat) (s : ScopeRef)
    (data : List UInt8) :
    ((Scope.define fuel s data).final e).scopes.size = e.scopes.size := by
  have ended : e.Ends (Scope.define fuel s data) (fun _ e' => e'.scopes.size = e.scopes.size)
      fun _ e' => e'.scopes.size = e.scopes.size := by
    rw [Scope.define_eq]
    refine ends_bind ((Scope.ends_enroll grounded s data).weaken (fun _ _ done => done)
      fun _ _ same => same.scopes) fun c e₁ enrolled => ?_
    obtain ⟨rfl, u, base, cls, -, enrolls, rfl⟩ := enrolled
    let e₁ := (base.addClass s cls).countClass s
    have size : e₁.scopes.size = e.scopes.size := by
      rw [← enrolls.base_eq.2]
      simp [e₁, Engine.countClass, Engine.addClass, updateScope]
    have tame : e₁.Tame False ((Machine.of s fuel).ensureInitialized e.classes.size)
        fun _ _ => True := Machine.tame_ensureInitialized (tame_of False s fuel) _ False.elim
    refine ends_bind (ends_mapError (Ends.weaken tame (fun _ e' done => ?_)
      fun _ e' stopped => ?_)) fun _ _ same => ends_pure same
    · exact done.1.during.scopes_size.trans size
    · exact stopped.1.during.scopes_size.trans size
  exact ended.final

theorem Turn.scopes_size (turn : e.Turn e') (grounded : e.Grounded) :
    e'.scopes.size = e.scopes.size := by
  have of_tame {ε α : Type} {x : Exec ε α} {post : α → Engine → Prop}
      (tame : e.Tame False x post) : (x.final e).scopes.size = e.scopes.size :=
    tame.evolves.during.scopes_size
  cases turn with
  | number => rfl
  | addObserver s | close s => exact Array.size_modify
  | define fuel s data scope_lt => exact scopes_size_define grounded fuel s data
  | load fuel t stamp data type_lt => exact scopes_size_load fuel t stamp data
  | superType t =>
    have keeps : Keeps (fun e : Engine => e.scopes.size)
        (Scope.superType t : Run (Option TypeRef)) := by
      refine keeps_bind (keeps_ask _) fun type => ?_
      split
      · exact keeps_pure _
      · exact keeps_bind (keeps_ask _) fun found =>
          keeps_bind (keeps_modify fun e => rfl) fun _ => keeps_pure _
    exact keeps e
  | metadata s typeName => exact of_tame (Reflect.tame_metadata False.elim s typeName)
  | forget s typeName => exact of_tame (Reflect.tame_forget False.elim s typeName)
  | searchField s name fuel met pending =>
    exact of_tame (Reflect.tame_searchField False.elim s name fuel met pending)
  | collectMethods s fuel found met pending =>
    exact of_tame (Reflect.tame_collectMethods False.elim s fuel found met pending)
  | use fuel s use given => exact of_tame (use.tame_perform fuel s False.elim False.elim)

/-- An engine that one scope was opened in and used for something. -/
def Session (options : Options) (e : Engine) : Prop :=
  Relation.ReflTransGen Turn (opened options) e

theorem Session.defining {options : Options} (session : Session options e) (fuel : Nat)
    (u : TypeUnit) (scope_lt : 0 < e.scopes.size) : Session options (e.defining fuel u) :=
  session.tail (.define fuel 0 u.encode scope_lt)

theorem Session.reloading {options : Options} (session : Session options e) (fuel : Nat)
    (t : TypeRef) (stamp : String) (u : TypeUnit) (type_lt : t < e.types.size) :
    Session options (e.reloading fuel t stamp u) :=
  session.tail (.load fuel t stamp u.encode type_lt)

theorem Session.using {options : Options} (session : Session options e) (fuel : Nat)
    (s : ScopeRef) (use : Scope.Use) (given : ∀ v ∈ use.values, v.Exists e) :
    Session options ((use.perform fuel s).final e) :=
  session.tail (.use fuel s use given)

theorem scopes_size_opened (options : Options) : (opened options).scopes.size ≤ 1 := by
  unfold opened Scope.openWith final
  rw [bind_apply, ofResult_apply]
  cases options.validate with
  | error error => exact Nat.zero_le 1
  | ok filter => exact Nat.le_refl 1

theorem typed_opened (options : Options) : (opened options).Typed := by
  have empty : Typed {} := {
    objects := fun o lt => by cases lt
    statics := fun c => fills_zeros {} []
    arrays := fun a lt => by cases lt
    stores := fun t => stocks_empty {} }
  have registry : Rests Class.Untouched {} ((Scope.newRegistry : Run RegistryRef).final {}) :=
    .of_classes_eq rfl rfl rfl rfl fun _ => rfl
  exact (empty.rests registry).rests (rests_openWith options 0)

/-- In one scope names tell what they mean, and the heap is typed. -/
theorem Session.sound {options : Options} (session : Session options e) :
    e.Reachable ∧ e.scopes.size ≤ 1 ∧ e.Sound := by
  induction session with
  | refl =>
    have reachable := reachable_opened options
    have one := scopes_size_opened options
    exact ⟨reachable, one, reachable.coherent one, typed_opened options⟩
  | tail _ turn ih =>
    obtain ⟨reachable, one, sound⟩ := ih
    have reachable' := reachable.step turn.operation
    have one' := turn.scopes_size reachable.grounded ▸ one
    have coherent := reachable'.coherent one'
    exact ⟨reachable', one', coherent, turn.advances.typed coherent sound.typed⟩

/-- What running code does, one thing at a time: it executes an instruction in a frame, calls and
returns, and begins and ends the initialization of a class. -/
inductive Goes (e : Engine) : Engine → Prop
  | execute (s : ScopeRef) (fuel : Nat) (frame : Frame) (there : frame.Exists e) (instr : Instr) :
      Goes e (((Machine.of s fuel).execute instr frame).final e)
  | atDepth (depth : Nat) : Goes e { e with depth }
  | beginInit (c : ClassRef) : Goes e (e.beginInit c).2
  | finishInit (c : ClassRef) : Goes e (e.finishInit c)

theorem Goes.sound (goes : e.Goes e') (sound : e.Sound) : e'.Sound := by
  cases goes with
  | execute s fuel frame there instr =>
    have tame := Machine.tame_execute (tame_of True s fuel) instr (f := frame)
      fun _ => ⟨sound, there⟩
    exact tame.sound trivial
  | atDepth depth => exact sound.setDepth depth
  | beginInit c => exact sound.beginInit c
  | finishInit c => exact sound.finishInit c

/-- What is in the heap is typed at every moment of a run. -/
theorem Sound.goes (sound : e.Sound) (amid : Relation.ReflTransGen Goes e e') : e'.Sound := by
  induction amid with
  | refl => exact sound
  | tail _ goes ih => exact goes.sound ih

end Engine

/-- An instruction reads a field for a frame, and goes on in this way when it has: the read as the
host links it, the read by live versions, and the guard that makes the read behind it. -/
inductive Frame.Reads (frame : Frame) : Instr → FieldRef → Flow → Prop
  | host (access : FieldAccess) (field : FieldRef) (read : access.isWrite = false) :
      frame.Reads (.access access field) field .next
  | live (access : FieldAccess) (id : TypeId) (field : FieldRef) (read : access.isWrite = false) :
      frame.Reads (.liveAccess access id field) field .next
  | guarded (id : TypeId) (access : FieldAccess) (field : FieldRef)
      (next : frame.method.code[frame.pc + 1]? = some (.access access field))
      (read : access.isWrite = false) : frame.Reads (.fieldCheck id) field .skip

namespace Machine

open Step

variable {m : Machine} {p : Prop} {e : Engine} {frame : Frame}

/-- What a read of a field puts onto the stack may stand where the type is declared that the read
names. -/
theorem tame_read (hm : m.Tame p) {instr : Instr} {field : FieldRef} {flow : Flow}
    (reads : frame.Reads instr field flow) (ready : Ready p e frame) :
    e.Tame p (m.execute instr frame) fun r e' => r.1 = flow →
      ∃ v rest, r.2.stack = v :: rest ∧ v.Fits e' field.sig := by
  cases reads with
  | host access field read =>
    exact Step.tame_bind (tame_accessHost hm access field ready) fun _ f' e' _ ok =>
      Step.tame_pure fun hp => ⟨(ok hp).1, fun _ => (ok hp).2.read read⟩
  | live access id field read =>
    exact Step.tame_bind (tame_accessPrivileged hm access id field ready) fun _ f' e' _ ok =>
      Step.tame_pure fun hp => ⟨(ok hp).1, fun _ => (ok hp).2.read read⟩
  | guarded id access field next read =>
    exact (tame_checkField hm ready).weaken fun r e' checked skips =>
      (checked.accessed access field next skips).read read

end Machine

open Engine

/-- The heap stays typed.  In every engine that one scope was opened in and used for something,
and at every moment while code runs in it, each slot of an object, each static field and each
element of an array holds what may stand there, and every read of a field that succeeds answers
with a value of the type that it names. -/
theorem heap_stays_typed {options : Options} {e e' : Engine} (session : Session options e)
    (amid : Relation.ReflTransGen Goes e e') :
    e'.Typed ∧ ∀ s fuel (frame : Frame), frame.Exists e' → ∀ instr field flow,
      frame.Reads instr field flow → ∀ frame' e'',
        (Machine.of s fuel).execute instr frame e' = .ok (flow, frame') e'' →
          ∃ v rest, frame'.stack = v :: rest ∧ v.Fits e'' field.sig := by
  obtain ⟨-, -, sound⟩ := session.sound
  have sound := sound.goes amid
  refine ⟨sound.typed, fun s fuel frame there instr field flow reads frame' e'' ran => ?_⟩
  have tame := Machine.tame_read (tame_of True s fuel) reads fun _ => ⟨sound, there⟩
  exact ((tame.ok ran).2 trivial).2 rfl

namespace Surviving

/-- A frame with an object on its stack. -/
def reading : Frame := { cls := 0, method := default, locals := [], stack := [.object 0], pc := 0 }

def y : FieldRef := ⟨"app.P", "y", .int⟩

def goesOn {α : Type} (outcome : EStateM.Result (Stop RunError) Engine (Flow × α)) : Bool :=
  match outcome with
  | .ok (flow, _) _ => flow = .next
  | .error .. => false

theorem eq_ok_of_goesOn {x : Run (Flow × Frame)} {e : Engine} (goes : goesOn (x e) = true) :
    ∃ frame e', x e = .ok (.next, frame) e' := by
  cases run : x e with
  | ok r e' =>
    rw [run] at goes
    have next : r.1 = .next := of_decide_eq_true goes
    exact ⟨r.2, e', by rw [← next]⟩
  | error stop e' =>
    rw [run] at goes
    cases goes

set_option maxRecDepth 100000 in
theorem reads : 0 < made.objects.size ∧ 0 < engine.objects.size ∧
    goesOn ((Machine.of 0 8).execute (.liveAccess .get 0 y) reading engine) = true := by
  decide +kernel

theorem session : Session { included := ["app.*"] } engine := by
  have opened : Session { included := ["app.*"] } (opened { included := ["app.*"] }) := .refl
  have extended : Session { included := ["app.*"] } extended :=
    (opened.defining 8 (point ["x"]) (by decide)).reloading 8 0 "second" (point ["x", "y"]) facts.1
  have made : Session { included := ["app.*"] } made :=
    extended.using 8 0 (.newInstance "app.P" .void []) fun v mem => by cases mem
  have given : ∀ v ∈ [Value.object 0, .int 7], v.Exists Surviving.made := by
    intro v mem
    rcases List.mem_cons.1 mem with rfl | mem
    · exact reads.1
    · rcases List.mem_singleton.1 mem with rfl
      exact trivial
  exact made.using 8 0 (.setField (.object 0) "y" (.int 7)) given

end Surviving

open Surviving in
/-- A field that was written without a slot is read by live versions, with a value of its type. -/
theorem heap_stays_typed_reading :
    Session { included := ["app.*"] } engine ∧ engine.Typed ∧ 0 < engine.objects.size ∧
    ∃ frame e' v rest,
      (Machine.of 0 8).execute (.liveAccess .get 0 y) reading engine = .ok (.next, frame) e' ∧
      frame.stack = v :: rest ∧ v.Fits e' .int := by
  obtain ⟨typed, conform⟩ := heap_stays_typed session .refl
  obtain ⟨frame, e', ran⟩ := eq_ok_of_goesOn reads.2.2
  have there : reading.Exists engine :=
    ⟨fun v mem => (by cases mem), fun v mem => List.mem_singleton.1 mem ▸ reads.2.1⟩
  obtain ⟨v, rest, pushed, fits⟩ :=
    conform 0 8 reading there _ y .next (.live .get 0 y rfl) frame e' ran
  exact ⟨session, typed, reads.2.1, frame, e', v, rest, ran, pushed, fits⟩

end LiveUpdate
