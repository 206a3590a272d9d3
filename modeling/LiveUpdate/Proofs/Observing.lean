import LiveUpdate.Proofs.Refusing

/-!
# Observed reloads

A reload calls the observers in up to three rounds.  In the first each of them may object,
which ends the reload before it has done anything.  When the version is ready all of them are
asked whether the static initializer is to run again.  In the last round, with the version in
force, the first complaint ends the reload.  This module says which calls there are, in which
order, and what happens between the rounds.
-/

set_option autoImplicit false

namespace LiveUpdate

open Exec ManagedType MethodShape

/-- What is recorded when each of some observers is called once. -/
def callbacks (call : ObserverCall) (event : ReloadEvent) (observers : List Observer) :
    List Callback :=
  observers.filterMap fun o => o.name.map fun name => ⟨name, call, event⟩

/-- Observers are called in order up to and including the first that answers with a message. -/
def StoppedAfter (answer : Observer → Option String) (observers heard : List Observer)
    (message : String) : Prop :=
  ∃ front o rest, observers = front ++ o :: rest ∧ heard = front ++ [o] ∧
    (∀ o' ∈ front, answer o' = none) ∧ answer o = some message

section StoppedAfter

variable {answer : Observer → Option String} {o : Observer} {rest heard : List Observer}
  {message : String}

theorem StoppedAfter.head (answered : answer o = some message) :
    StoppedAfter answer (o :: rest) [o] message :=
  ⟨[], o, rest, rfl, rfl, fun _ mem => (nomatch mem), answered⟩

/-- Behind an observer without a message it is one of the others that stops the round. -/
theorem StoppedAfter.cons (quiet : answer o = none)
    (stopped : StoppedAfter answer rest heard message) :
    StoppedAfter answer (o :: rest) (o :: heard) message := by
  obtain ⟨front, last, behind, rfl, rfl, others, answered⟩ := stopped
  exact ⟨o :: front, last, behind, rfl, rfl, List.forall_mem_cons.2 ⟨quiet, others⟩, answered⟩

end StoppedAfter

namespace Engine

variable {e : Engine} {t : TypeRef}

/-- The engine with more calls of observers on record. -/
def recording (e : Engine) (calls : List Callback) : Engine :=
  { e with trace := e.trace ++ calls }

theorem recording_nil (e : Engine) : e.recording [] = e := by
  unfold recording
  rw [List.append_nil]

theorem recording_recording (e : Engine) (calls more : List Callback) :
    (e.recording calls).recording more = e.recording (calls ++ more) := by
  unfold recording
  rw [List.append_assoc]

/-- What observers are told about a reload of a managed type. -/
def eventOf (e : Engine) (t : TypeRef) (native : ClassRef) (stamp : String) : ReloadEvent :=
  ⟨(e.typeAt t).name, native, stamp, (e.typeAt t).versions.length⟩

/-- The observers of the scope of a managed type. -/
def observersOf (e : Engine) (t : TypeRef) : List Observer :=
  (e.scopeAt (e.typeAt t).scope).observers

end Engine

namespace ManagedType

section Rounds

variable {e : Engine} (call : ObserverCall) (event : ReloadEvent)

/-- Call observers in turn. -/
def callInTurn (answer : Observer → Option String) : List Observer → Exec ReloadError Unit
  | [] => pure ()
  | o :: rest => do
    record o call event
    match answer o with
    | some message => fail (.observer event.typeName message)
    | none => callInTurn answer rest

theorem announce_eq_callInTurn (observers : List Observer) :
    announce event observers = callInTurn .before event (fun o => o.before event) observers := by
  induction observers with
  | nil => rfl
  | cons o rest ih =>
    refine congrArg (record o .before event >>= ·) (funext fun _ => ?_)
    dsimp only
    cases o.before event with
    | some message => rfl
    | none => exact ih

theorem report_eq_callInTurn (observers : List Observer) :
    report event observers = callInTurn .after event (fun o => o.after event) observers := by
  induction observers with
  | nil => rfl
  | cons o rest ih =>
    refine congrArg (record o .after event >>= ·) (funext fun _ => ?_)
    dsimp only
    cases o.after event with
    | some message => rfl
    | none => exact ih

theorem record_apply (o : Observer) (e : Engine) :
    record o call event e = .ok () (e.recording (callbacks call event [o])) := by
  unfold record callbacks
  cases named : o.name with
  | none =>
    simp only [List.filterMap_cons, named, Option.map_none, List.filterMap_nil]
    rw [e.recording_nil]
    rfl
  | some name =>
    simp only [List.filterMap_cons, named, Option.map_some, List.filterMap_nil]
    rfl

theorem callbacks_cons (o : Observer) (rest : List Observer) :
    callbacks call event (o :: rest) = callbacks call event [o] ++ callbacks call event rest :=
  @List.filterMap_append _ _ [o] rest _

/-- A round of calls records those that it makes and does nothing else. -/
theorem ends_callInTurn (answer : Observer → Option String) (observers : List Observer) :
    e.Ends (callInTurn call event answer observers)
      (fun _ e' => (∀ o ∈ observers, answer o = none) ∧
        e' = e.recording (callbacks call event observers))
      fun stop e' => ∃ heard message, StoppedAfter answer observers heard message ∧
        stop = .error (.observer event.typeName message) ∧
        e' = e.recording (callbacks call event heard) := by
  induction observers generalizing e with
  | nil => exact Engine.ends_pure ⟨fun _ mem => (nomatch mem), e.recording_nil.symm⟩
  | cons o rest ih =>
    have recorded : e.Ends (record o call event)
        (fun _ e' => e' = e.recording (callbacks call event [o])) fun _ _ => False :=
      .of_ok (record_apply call event o e) rfl
    refine Engine.ends_bind_done recorded fun _ e₁ held => ?_
    obtain rfl := held
    have onward (heard : List Observer) :
        (e.recording (callbacks call event [o])).recording (callbacks call event heard) =
          e.recording (callbacks call event (o :: heard)) := by
      rw [e.recording_recording, ← callbacks_cons]
    cases answered : answer o with
    | some message =>
      exact Engine.ends_fail ⟨[o], message, .head answered, rfl, rfl⟩
    | none =>
      refine ih.weaken (fun _ e' done => ?_) fun stop e' late => ?_
      · exact ⟨List.forall_mem_cons.2 ⟨answered, done.1⟩, done.2.trans (onward rest)⟩
      · obtain ⟨heard, message, stopped, error, same⟩ := late
        exact ⟨o :: heard, message, stopped.cons answered, error, same.trans (onward heard)⟩

/-- All observers are asked whether the static initializer is to run again, whatever the
others say. -/
theorem askRerun_apply (observers : List Observer) (e : Engine) :
    askRerun event observers e = .ok (observers.any fun o => o.rerun event)
      (e.recording (callbacks .rerun event observers)) := by
  induction observers generalizing e with
  | nil => exact congrArg (EStateM.Result.ok false) e.recording_nil.symm
  | cons o rest ih =>
    unfold askRerun
    rw [bind_apply, record_apply]
    dsimp only
    rw [bind_apply, ih]
    dsimp only
    rw [e.recording_recording, ← callbacks_cons]
    rfl

end Rounds

end ManagedType

namespace ShapeDiff

variable {earlier latest : TypeShape}

/-- A change is listed under the key of the method. -/
theorem fst_of_methodChangeOf? {m : MethodShape} {entry : MemberKey × MethodChange}
    (change : methodChangeOf? earlier m = some entry) : entry.1 = m.key := by
  unfold methodChangeOf? at change
  obtain ⟨-, same⟩ := Option.ite_none_right_eq_some.1 change
  cases same
  rfl

/-- Between two shapes without repetitions the static initializer has changed when they do not
have the same one. -/
theorem staticInitChanged_iff (simple : earlier.Simple) (simple' : latest.Simple) :
    (between earlier latest).staticInitChanged = true ↔
      ∃ key : MemberKey, key.isStaticInit = true ∧ earlier.method? key ≠ latest.method? key := by
  have own {s : TypeShape} (simple : s.Simple) {m : MethodShape} (mem : m ∈ s.methods) :
      s.method? m.key = some m := find?_label_eq_some simple.methods mem
  have keyed {s : TypeShape} {key : MemberKey} {m : MethodShape} (found : s.method? key = some m) :
      m ∈ s.methods ∧ m.key = key :=
    ⟨List.mem_of_find?_eq_some found, by simpa using List.find?_some found⟩
  unfold staticInitChanged
  rw [Bool.or_eq_true, List.any_eq_true, List.any_eq_true]
  constructor
  · rintro (⟨entry, listed, init⟩ | ⟨key, deleted, init⟩)
    · obtain ⟨m, mem, change⟩ := List.mem_filterMap.1 listed
      rw [fst_of_methodChangeOf? change] at init
      refine ⟨m.key, init, fun same => ?_⟩
      have before : lastMethod? earlier m.key = some m := by
        rw [lastMethod?_eq simple, same]
        exact own simple' mem
      rw [methodChangeOf?_eq_none_iff.2 before] at change
      cases change
    · obtain ⟨inEarlier, gone⟩ := List.mem_filter.1 deleted
      obtain ⟨m, mem, rfl⟩ := List.mem_map.1 inEarlier
      rw [lastMethod?_eq simple', Option.isNone_iff_eq_none] at gone
      refine ⟨m.key, init, fun same => ?_⟩
      rw [own simple mem, gone] at same
      cases same
  · rintro ⟨key, init, other⟩
    cases after : latest.method? key with
    | some m =>
      obtain ⟨mem, rfl⟩ := keyed after
      left
      cases change : methodChangeOf? earlier m with
      | some entry =>
        refine ⟨entry, List.mem_filterMap.2 ⟨m, mem, change⟩, ?_⟩
        rw [fst_of_methodChangeOf? change]
        exact init
      | none =>
        have before := methodChangeOf?_eq_none_iff.1 change
        rw [lastMethod?_eq simple] at before
        exact absurd (before.trans after.symm) other
    | none =>
      cases before : earlier.method? key with
      | none => exact absurd (before.trans after.symm) other
      | some m =>
        obtain ⟨mem, rfl⟩ := keyed before
        refine .inr ⟨m.key, List.mem_filter.2 ⟨List.mem_map_of_mem mem, ?_⟩, init⟩
        rw [lastMethod?_eq simple', after]
        rfl

end ShapeDiff

/-- Generating the classes of a version calls no observer. -/
theorem Scope.keepsTrace_defineClass (s : ScopeRef) (spec : ClassSpec) :
    Keeps Engine.trace (defineClass s spec) := by
  intro e
  unfold final
  by_cases free : e.class? s spec.unit.name = none
  · rw [defineClass_apply free]
    cases Class.define e.classes.size (e.scopeAt s).nextClassId spec (spec.parent.map e.classAt)
      (spec.interfaces.map e.classAt) <;> rfl
  · rw [defineClass_taken free]

namespace ManagedType

theorem keepsTrace_artifactsFor (t : TypeRef) (native : ClassRef) (u : TypeUnit)
    (shape : TypeShape) (digest : Option (List UInt8)) (isLikeFirst : Bool) :
    Keeps Engine.trace (artifactsFor t native u shape digest isLikeFirst) := by
  have generated : Keeps Engine.trace (defineArtifacts t native u shape) :=
    keeps_bind (keeps_ask _) fun _ => keeps_bind (keeps_modify fun _ => rfl) fun _ =>
      keeps_bind (keeps_modifyGet fun _ => rfl) fun _ => keeps_bind (keeps_ofResult _) fun _ =>
        keeps_bind (Scope.keepsTrace_defineClass _ _) fun _ =>
          keeps_bind (Scope.keepsTrace_defineClass _ _) fun _ => keeps_pure _
  refine keeps_bind (keeps_ask _) fun current => ?_
  split
  · exact keeps_pure _
  · split
    · exact keeps_pure _
    · exact keeps_bind generated fun _ => keeps_pure _

/-- The method that runs when a version is in force: none unless the static initializer is to run
again and the version declares one, and then that of the executor if it has one, else that of
the host class. -/
inductive Initializes (e : Engine) (native : ClassRef) (v : LiveVersion) :
    Option (ClassRef × Method) → Prop
  | skipped (undue : v.rerun = false) : Initializes e native v none
  | undeclared (none_ : v.shape.staticInitializer? = none) : Initializes e native v none
  | executor {a : Artifacts} {m : Method} (due : v.rerun = true)
      (declared : v.shape.staticInitializer? ≠ none) (generated : v.artifacts = some a)
      (found : (e.classAt a.executor).method? ⟨executorStaticInitName, .void⟩ = some m) :
      Initializes e native v (some (a.executor, m))
  | host (due : v.rerun = true) (declared : v.shape.staticInitializer? ≠ none)
      (absent : ∀ a, v.artifacts = some a →
        (e.classAt a.executor).method? ⟨executorStaticInitName, .void⟩ = none) :
      Initializes e native v (((e.classAt native).method? .staticInit).map fun m => (native, m))

/-- Run a method that initializes a type, if there is one. -/
def initializeBy (fuel : Nat) (s : ScopeRef) : Option (ClassRef × Method) → Run Unit
  | some (c, m) => discard ((Machine.of s fuel).call c m [])
  | none => pure ()

/-- What runs after the publication of a version that is in force. -/
theorem rerunStaticInit_apply (fuel : Nat) {e : Engine} {t : TypeRef} (native : ClassRef)
    {v : LiveVersion} (live : (e.typeAt t).live = v) :
    ∃ runs, Initializes e native v runs ∧
      (if v.rerun then rerunStaticInit fuel t native else pure () : Run Unit) e =
        initializeBy fuel (e.typeAt t).scope runs e := by
  subst live
  let v := (e.typeAt t).live
  let key : MemberKey := ⟨executorStaticInitName, .void⟩
  let inExecutor := v.executor?.bind fun c => ((e.classAt c).method? key).map fun m => (c, m)
  let inHost := ((e.classAt native).method? .staticInit).map fun m => (native, m)
  cases due : v.rerun with
  | false => exact ⟨none, .skipped due, rfl⟩
  | true =>
  cases declared : v.shape.staticInitializer? with
  | none =>
    refine ⟨none, .undeclared declared, ?_⟩
    rw [if_pos rfl]
    unfold rerunStaticInit
    simp only [bind_apply, ask_apply]
    rw [show (e.typeAt t).live.shape.staticInitializer? = none from declared]
    rfl
  | some initializer =>
    have declares : v.shape.staticInitializer? ≠ none := by
      rw [declared]
      exact Option.some_ne_none _
    have runs : rerunStaticInit fuel t native e =
        initializeBy fuel (e.typeAt t).scope (inExecutor <|> inHost) e := by
      unfold rerunStaticInit
      simp only [bind_apply, ask_apply]
      rw [show (e.typeAt t).live.shape.staticInitializer? = some initializer from declared]
      show (match inExecutor <|> inHost with
        | some (c, m) => discard ((Machine.of (e.typeAt t).scope fuel).call c m [])
        | none => pure () : Run Unit) e = _
      cases inExecutor <|> inHost <;> rfl
    rw [if_pos rfl, runs]
    cases here : inExecutor with
    | some chosen =>
      obtain ⟨c, stands, bound⟩ := Option.bind_eq_some_iff.1 here
      obtain ⟨a, generated, rfl⟩ := Option.map_eq_some_iff.1 stands
      obtain ⟨m, found, rfl⟩ := Option.map_eq_some_iff.1 bound
      exact ⟨some (a.executor, m), .executor due declares generated found, rfl⟩
    | none =>
      refine ⟨inHost, .host due declares fun a generated => ?_, rfl⟩
      have missed := Option.bind_eq_none_iff.1 here a.executor
        (Option.map_eq_some_iff.2 ⟨a, generated, rfl⟩)
      exact Option.map_eq_none_iff.1 missed

/-- How a reload comes out. -/
abbrev ReloadOutcome := EStateM.Result (Stop ReloadError) Engine Bool

/-- A version is ready to be published: all observers have let the reload go on and were then
asked about the static initializer, and the versions of the type are still as they were. -/
structure Prepares (e : Engine) (t : TypeRef) (native : ClassRef) (stamp : String)
    (data : List UInt8) (u : TypeUnit) (v : LiveVersion) (ready : Engine) : Prop where
  agreed : ∀ o ∈ e.observersOf t, o.before (e.eventOf t native stamp) = none
  trace : ready.trace = e.trace ++
    (callbacks .before (e.eventOf t native stamp) (e.observersOf t) ++
      callbacks .rerun (e.eventOf t native stamp) (e.observersOf t))
  versions : (ready.typeAt t).versions = (e.typeAt t).versions
  published : (ready.typeAt t).published = (e.typeAt t).published
  number : v.number = (e.typeAt t).versions.length
  stamped : v.stamp = stamp
  bytes : v.data = data
  ofUnit : v.unit = u ∧ v.shape = .ofUnit u
  rerun : v.rerun = true ↔
    (∃ key : MemberKey, key.isStaticInit = true ∧
      (e.typeAt t).live.shape.method? key ≠ v.shape.method? key) ∨
    ∃ o ∈ e.observersOf t, o.rerun (e.eventOf t native stamp) = true

/-- How a reload ends after it has published a version.  If what was due to run has failed, no
observer hears of it, else the observers are told in turn. -/
inductive Finishes (event : ReloadEvent) (observers : List Observer) (published : Engine)
    (ran : EStateM.Result (Stop RunError) Engine Unit) : ReloadOutcome → Prop
  | failed {stop : Stop RunError} {e' : Engine} (run : ran = .error stop e')
      (quiet : e'.trace = published.trace) (settled : e'.skeleton = published.skeleton) :
      Finishes event observers published ran (.error (stop.map .run) e')
  | complaint {e' : Engine} {heard : List Observer} {message : String} (run : ran = .ok () e')
      (quiet : e'.trace = published.trace) (settled : e'.skeleton = published.skeleton)
      (stopped : StoppedAfter (fun o => o.after event) observers heard message) :
      Finishes event observers published ran
        (.error (.error (.observer event.typeName message))
          (e'.recording (callbacks .after event heard)))
  | accepted {e' : Engine} (run : ran = .ok () e')
      (quiet : e'.trace = published.trace) (settled : e'.skeleton = published.skeleton)
      (silent : ∀ o ∈ observers, o.after event = none) :
      Finishes event observers published ran
        (.ok true (e'.recording (callbacks .after event observers)))

/-- The course of a reload.  It is refused before any observer is called, or stopped by the
first one that objects, or it publishes a version and then finishes. -/
inductive Observed (e : Engine) (fuel : Nat) (t : TypeRef) (native : ClassRef) (stamp : String)
    (data : List UInt8) : ReloadOutcome → Prop
  | closed (shut : (e.scopeAt (e.typeAt t).scope).isOpen = false) :
      Observed e fuel t native stamp data (.error (.error .scopeClosed) e)
  | unreadable {error : ReloadError} (unread : (e.typeAt t).readVersion data = .error error) :
      Observed e fuel t native stamp data (.error (.error error) e)
  | risky {u : TypeUnit} {shape : TypeShape}
      (read : (e.typeAt t).readVersion data = .ok (u, shape))
      (checked : (e.optionsOf t).verifyReloads = true)
      (risk : (ShapeDiff.between (e.typeAt t).first.shape shape).isSafe
        (e.inheritedVtable native) = false) :
      Observed e fuel t native stamp data
        (.ok false (e.updateType t fun type => { type with rejected := type.rejected + 1 }))
  | objected {u : TypeUnit} {shape : TypeShape} {heard : List Observer} {message : String}
      (reads : Reads e t native data u shape)
      (stopped : StoppedAfter (fun o => o.before (e.eventOf t native stamp)) (e.observersOf t) heard
        message) :
      Observed e fuel t native stamp data
        (.error (.error (.observer (e.typeAt t).name message))
          (e.recording (callbacks .before (e.eventOf t native stamp) heard)))
  | published {u : TypeUnit} {shape : TypeShape} {v : LiveVersion} {ready : Engine}
      {runs : Option (ClassRef × Method)} {outcome : ReloadOutcome}
      (reads : Reads e t native data u shape) (prepares : Prepares e t native stamp data u v ready)
      (initializes : Initializes (ready.publish t v) native v runs)
      (finishes : Finishes (e.eventOf t native stamp) (e.observersOf t) (ready.publish t v)
        (initializeBy fuel (e.typeAt t).scope runs (ready.publish t v)) outcome) :
      Observed e fuel t native stamp data outcome

variable {e : Engine} {t : TypeRef}

/-- After the publication of a version comes what is due to run, and then the reports. -/
theorem ends_finishing (event : ReloadEvent) (observers : List Observer) {start : Run Unit}
    (settles : Keeps Engine.skeleton start) (published : Engine) :
    published.Ends (do
        mapError .run start
        report event observers : Exec ReloadError Unit)
      (fun _ e' => Finishes event observers published (start published) (.ok true e'))
      fun stop e' => Finishes event observers published (start published) (.error stop e') := by
  have settled := Engine.ends_of_keeps (e := published) settles
  have quiet {e' : Engine} (same : e'.skeleton = published.skeleton) :
      e'.trace = published.trace := by
    have traces : e'.skeleton.trace = published.skeleton.trace := congrArg Engine.trace same
    exact traces
  have ran : published.Ends start
      (fun _ e₁ => start published = .ok () e₁ ∧ e₁.skeleton = published.skeleton)
      fun stop e' =>
        Finishes event observers published (start published) (.error (stop.map .run) e') := by
    cases run : start published with
    | ok _ e₁ => exact .of_ok run ⟨rfl, settled.ok run⟩
    | error stop e' =>
      exact .of_error run (.failed rfl (quiet (settled.error run)) (settled.error run))
  refine Engine.ends_bind (Engine.ends_mapError ran) fun _ e₁ held => ?_
  rw [report_eq_callInTurn]
  refine (ends_callInTurn .after event _ observers).weaken (fun _ e' done => ?_)
    fun stop e' late => ?_
  · obtain ⟨silent, rfl⟩ := done
    exact .accepted held.1 (quiet held.2) held.2 silent
  · obtain ⟨heard, message, stopped, rfl, rfl⟩ := late
    exact .complaint held.1 (quiet held.2) held.2 stopped

/-- The course of a reload from the first call of an observer on. -/
theorem observed_install (grounded : e.Grounded) (free : e.NamesFree t)
    (simple : (e.typeAt t).live.shape.Simple) {native : ClassRef} {data : List UInt8} {u : TypeUnit}
    {shape : TypeShape} (reads : Reads e t native data u shape) (fuel : Nat) (stamp : String) :
    e.Ends (install fuel t native stamp data u shape)
      (fun _ e' => Observed e fuel t native stamp data (.ok true e'))
      fun stop e' => Observed e fuel t native stamp data (.error stop e') := by
  obtain rfl := TypeShape.eq_ofUnit reads.shaped
  let event := e.eventOf t native stamp
  let observers := e.observersOf t
  unfold install
  refine Engine.ends_ask_bind (Engine.ends_ask_bind ?_)
  rw [announce_eq_callInTurn]
  have announced : e.Ends (callInTurn .before event (fun o => o.before event) observers)
      (fun _ e' => (∀ o ∈ observers, o.before event = none) ∧
        e' = e.recording (callbacks .before event observers))
      fun stop e' => Observed e fuel t native stamp data (.error stop e') := by
    refine (ends_callInTurn .before event _ observers).weaken (fun _ _ done => done)
      fun stop e' late => ?_
    obtain ⟨heard, message, stopped, rfl, rfl⟩ := late
    exact .objected reads stopped
  refine Engine.ends_bind announced fun _ e₁ held => ?_
  obtain ⟨agreed, rfl⟩ := held
  -- From here on nothing can fail before the publication, because the names are free.
  let asked := e.recording (callbacks .before event observers)
  have grounded₁ : asked.Grounded :=
    ⟨grounded.registry, grounded.class_lt, grounded.parent_lt, grounded.hosted⟩
  have free₁ : asked.NamesFree t := ⟨free.contract, free.executor⟩
  let type := e.typeAt t
  let difference := ShapeDiff.between type.first.shape (.ofUnit u)
  let cumulative := if difference.isEmpty then none else some difference
  let digest := TypeUnit.storedDigest? data
  have found : asked.Ends (artifactsFor t native u (.ofUnit u) digest cumulative.isNone)
      (fun _ e' => e'.books = asked.books ∧ e'.trace = asked.trace) fun _ _ => False := by
    have ends := ends_artifactsFor (e := asked) grounded₁ reads.type_lt reads.hosted reads.verified
      digest cumulative.isNone
    have quiet := Engine.ends_of_keeps (e := asked)
      (keepsTrace_artifactsFor t native u (.ofUnit u) digest cumulative.isNone)
    cases run : artifactsFor t native u (.ofUnit u) digest cumulative.isNone asked with
    | ok artifacts e₂ => exact .of_ok run ⟨ends.ok run, quiet.ok run⟩
    | error stop e₂ => exact absurd free₁ (ends.error run).1
  refine Engine.ends_bind (Engine.ends_mapError (found.weaken (fun _ _ h => h)
    fun _ _ impossible => impossible.elim)) fun artifacts e₂ held => ?_
  obtain ⟨books₂, trace₂⟩ := held
  let slots := type.slots.assignAll
    (((TypeShape.ofUnit u).methods.filter fun m => !m.isStaticInit).map MethodShape.key) .added
  let slotted := e₂.updateType t fun type => { type with slots }
  refine Engine.ends_modify_bind (Engine.ends_ask_bind ?_)
  have rerunAsked : slotted.Ends (askRerun event observers)
      (fun wanted e₄ => wanted = observers.any (fun o => o.rerun event) ∧
        e₄ = slotted.recording (callbacks .rerun event observers)) fun _ _ => False :=
    .of_ok (askRerun_apply event observers slotted) ⟨rfl, rfl⟩
  refine Engine.ends_bind_done rerunAsked fun wanted ready held => ?_
  obtain ⟨rfl, rfl⟩ := held
  let ready := slotted.recording (callbacks .rerun event observers)
  have type_lt₂ : t < e₂.types.size := by
    have size : e₂.types.size = e.types.size := by
      rw [← e₂.size_books, books₂]
      exact e.size_books
    rw [size]
    exact reads.type_lt
  have slotting : ready.typeAt t = { e₂.typeAt t with slots } :=
    e₂.typeAt_updateType_self _ type_lt₂
  have books : (e₂.typeAt t).books = (e.typeAt t).books := Engine.books_typeAt_of_eq books₂ t
  have versions : (e₂.typeAt t).books.versions = (e.typeAt t).versions := by rw [books]; rfl
  have published : (e₂.typeAt t).books.published = (e.typeAt t).published := by rw [books]; rfl
  have scope : (e₂.typeAt t).books.scope = (e.typeAt t).scope := by rw [books]; rfl
  let dispatch := DispatchTable.build type.name slots (.ofUnit u) cumulative
    (artifacts.map fun a => slotted.classAt a.executor)
  let delta := ShapeDiff.between type.live.shape (.ofUnit u)
  let v : LiveVersion := {
    number := type.versions.length, stamp, data, digest, unit := u, shape := .ofUnit u,
    delta := some delta, cumulative, artifacts, dispatch
    rerun := delta.staticInitChanged || observers.any fun o => o.rerun event }
  have prepares : Prepares e t native stamp data u v ready := {
    agreed
    trace := by
      show e₂.trace ++ callbacks .rerun event observers = _
      rw [trace₂]
      exact List.append_assoc ..
    versions := by rw [slotting]; exact versions
    published := by rw [slotting]; exact published
    number := rfl
    stamped := rfl
    bytes := rfl
    ofUnit := ⟨rfl, rfl⟩
    rerun := by
      show (delta.staticInitChanged || observers.any fun o => o.rerun event) = true ↔ _
      rw [Bool.or_eq_true, List.any_eq_true,
        ShapeDiff.staticInitChanged_iff simple (TypeShape.simple_ofUnit reads.verified)] }
  have type_lt : t < ready.types.size := by
    show t < (e₂.types.modify t _).size
    rw [Array.size_modify]
    exact type_lt₂
  have entered : ready.Ends (publishVersion t v) (fun _ e' => e' = ready.publish t v)
      fun _ _ => False := .of_ok (publishVersion_eq_ok type_lt v) rfl
  refine Engine.ends_bind_done entered fun _ e₅ held => ?_
  obtain rfl := held
  have home : ((ready.publish t v).typeAt t).scope = (e.typeAt t).scope := by
    rw [ready.typeAt_publish v type_lt, slotting]
    exact scope
  have live := ready.live_publish v type_lt
  obtain ⟨runs, initializes, started⟩ := rerunStaticInit_apply fuel native live
  rw [home] at started
  have settles : Keeps Engine.skeleton
      (if v.rerun then rerunStaticInit fuel t native else pure () : Run Unit) := by
    cases v.rerun with
    | true => exact keeps_rerunStaticInit fuel t native
    | false => exact keeps_pure ()
  have finishing := ends_finishing event observers settles (ready.publish t v)
  rw [started] at finishing
  have observes {outcome : ReloadOutcome} (finishes) :
      Observed e fuel t native stamp data outcome :=
    .published reads prepares initializes finishes
  have ended := finishing.weaken (fun _ _ finishes => observes finishes)
    fun _ _ finishes => observes finishes
  dsimp only
  split
  next due =>
    rw [show v.rerun = true from due] at ended
    exact ended
  next undue =>
    rw [show v.rerun = false from Bool.eq_false_iff.2 undue] at ended
    exact ended

/-- The course of a reload. -/
theorem observed_load (grounded : e.Grounded) (type_lt : t < e.types.size) (free : e.NamesFree t)
    (simple : (e.typeAt t).live.shape.Simple) {native : ClassRef}
    (hosted : (e.typeAt t).native = some native) (fuel : Nat) (stamp : String)
    (data : List UInt8) : Observed e fuel t native stamp data (load fuel t stamp data e) := by
  have ends : e.Ends (load fuel t stamp data)
      (fun accepted e' => Observed e fuel t native stamp data (.ok accepted e'))
      fun stop e' => Observed e fuel t native stamp data (.error stop e') := by
    unfold load
    refine Engine.ends_ask_bind (Engine.ends_ask_bind ?_)
    cases isOpen : (e.scopeAt (e.typeAt t).scope).isOpen with
    | false => exact Engine.ends_fail (.closed isOpen)
    | true =>
    rw [hosted]
    refine Engine.ends_ofResult_bind (fun read readable => ?_)
      fun error unread => .unreadable unread
    obtain ⟨u, shape⟩ := read
    obtain ⟨decoded, shaped, verified, named⟩ := readVersion_eq_ok readable
    refine Engine.ends_ask_bind ?_
    cases risk : (e.scopeAt (e.typeAt t).scope).options.verifyReloads &&
        !(ShapeDiff.between (e.typeAt t).first.shape shape).isSafe (e.inheritedVtable native) with
    | true =>
      have refused : Observed e fuel t native stamp data (.ok false (e.updateType t fun type =>
          { type with rejected := type.rejected + 1 })) := by
        rw [Bool.and_eq_true, Bool.not_eq_true'] at risk
        exact .risky readable risk.1 risk.2
      exact Engine.ends_modify_bind (Engine.ends_pure refused)
    | false =>
      have reads : Reads e t native data u shape := {
        type_lt, hosted, decoded, verified, shaped, named
        safe := fun verifies => by
          have verifies : (e.scopeAt (e.typeAt t).scope).options.verifyReloads = true := verifies
          rw [verifies] at risk
          simpa using risk }
      exact Engine.ends_bind (observed_install grounded free simple reads fuel stamp)
        fun _ _ observed => Engine.ends_pure observed
  cases run : load fuel t stamp data e with
  | ok accepted e' => exact ends.ok run
  | error stop e' => exact ends.error run

end ManagedType

namespace Engine

variable {e : Engine} {t : TypeRef}

/-- The shape of the version in force has no repetitions. -/
theorem Chronicled.simple_live (chronicled : e.Chronicled t) :
    (e.typeAt t).live.shape.Simple := by
  rcases chronicled.live_cases with ⟨-, isFirst⟩ | ⟨-, recorded⟩
  · rw [isFirst, TypeShape.eq_ofUnit chronicled.shaped]
    exact TypeShape.simple_ofUnit chronicled.verified
  · rw [TypeShape.eq_ofUnit recorded.shaped]
    exact TypeShape.simple_ofUnit recorded.verified

/-- An executor has a method for every member that a method of its unit stands behind. -/
theorem Compiles.exists_method {w : LiveVersion} {a : Artifacts}
    (shaped : TypeShape.extract w.unit = .ok w.shape) (compiles : e.Compiles t w.unit w.shape a)
    {key : MemberKey} {source : MethodDef}
    (last : w.unit.memberSource? (e.typeAt t).name key = some source) :
    ∃ m, (e.classAt a.executor).method? key = some m ∧ e.CompiledFrom t w source m := by
  obtain ⟨native, names, number, hosted, had, -, described⟩ := compiles.executor
  let ctx := e.executorContext t native w.shape
  have live : ctx.live = .ofUnit w.unit := TypeShape.eq_ofUnit shaped
  refine ⟨_, ?_, native, names, number, hosted, had, rfl⟩
  unfold Class.method?
  rw [described.methods_eq, ExecutorContext.methodsOf_spec live,
    show ctx.typeName = (e.typeAt t).name from rfl, last]
  rfl

/-- The static initializer of a version is the member of its executor that a rerun looks for. -/
theorem executorKey_of_staticInit {typeName : String} {own : MethodDef}
    (init : own.key = .staticInit) :
    executorKey typeName (.ofDef own) = ⟨executorStaticInitName, .void⟩ := by
  obtain ⟨name, sig⟩ := MemberKey.mk.inj init
  have shape : (MethodShape.ofDef own).name = staticInitName ∧
      (MethodShape.ofDef own).sig = .void := ⟨name, sig⟩
  have notConstructor : (MethodShape.ofDef own).isConstructor = false := by
    unfold MethodShape.isConstructor MethodShape.key MemberKey.isConstructor
    rw [shape.1]
    rfl
  have isInit : (MethodShape.ofDef own).isStaticInit = true := by
    unfold MethodShape.isStaticInit MethodShape.key MemberKey.isStaticInit
    rw [shape.1]
    rfl
  unfold executorKey
  rw [notConstructor, isInit, shape.2]
  rfl

/-- A recorded version with classes of its own and a static initializer has an initializer in
its executor.  That was compiled from the last method that is the same member, of the version
or of another one with its digest. -/
theorem Recorded.exists_initializer {v : LiveVersion} {a : Artifacts} (recorded : e.Recorded t v)
    (generated : v.artifacts = some a) {own : MethodDef} (mem : own ∈ v.unit.bodied)
    (init : own.key = .staticInit) :
    ∃ w ∈ (e.typeAt t).versions, TypeUnit.DigestsCollide w.data v.data ∨
      ∃ source m, (e.classAt a.executor).method? ⟨executorStaticInitName, .void⟩ = some m ∧
        e.CompiledFrom t w source m ∧
        (source = own ↔ ∀ later ∈ v.unit.after .staticInit,
          ¬ Clash (e.typeAt t).name (.ofDef own) (.ofDef later)) := by
  obtain ⟨w, mem_w, digest, decoded, -, shaped, stored, compiles⟩ := recorded.artifacts a generated
  have alike := TypeUnit.collide_or_methods_eq decoded recorded.decoded
    ((stored.symm.trans digest).trans recorded.digest)
  refine ⟨w, mem_w, alike.imp_right fun methods => ?_⟩
  let key := executorKey (e.typeAt t).name (.ofDef own)
  have same : w.unit.memberSource? (e.typeAt t).name key =
      v.unit.memberSource? (e.typeAt t).name key := by
    unfold TypeUnit.memberSource? TypeUnit.bodied
    rw [methods]
  cases last : v.unit.memberSource? (e.typeAt t).name key with
  | none =>
    have missed := List.find?_eq_none.1 last own (List.mem_reverse.2 mem)
    exact absurd (decide_eq_true rfl) missed
  | some source =>
    obtain ⟨m, found, compiled⟩ := compiles.exists_method shaped (same.trans last)
    rw [show key = _ from executorKey_of_staticInit init] at found
    refine ⟨source, m, found, compiled, ?_⟩
    rw [← init]
    exact TypeUnit.memberSource?_eq_self_iff recorded.verified mem last

end Engine

/-- In a reachable engine that has not given away the names of the classes to be generated
next, every reload takes the course that is observed.  The observers are not called, and
nothing is published; or they are called in order until one objects, and nothing else happens;
or all of them agree and all are then asked about the static initializer, a version is
published, what is due runs, and they are told in order until one complains.  The version says
that a rerun is due exactly when its static initializer is not that of the version before or
an observer wants one.  What then runs is the initializer of the version's executor, if it has
one, else that of the host class, and nothing for a version without one.  An executor has an
initializer whenever its version has, and it is the version's own code unless another method
is the same member or two payloads have one digest. -/
theorem load_calls_observers {e : Engine} {t : TypeRef} (reachable : e.Reachable)
    (managed : e.IsManaged t) (free : e.NamesFree t) (fuel : Nat) (stamp : String)
    (data : List UInt8) :
    ∃ native, (e.typeAt t).native = some native ∧
      Observed e fuel t native stamp data (load fuel t stamp data e) ∧
      let e' := (load fuel t stamp data).final e
      ∀ v a own, (e'.typeAt t).published = some v → v.artifacts = some a →
        own ∈ v.unit.bodied → own.key = .staticInit →
        ∃ w ∈ (e'.typeAt t).versions, TypeUnit.DigestsCollide w.data v.data ∨
          ∃ source m, (e'.classAt a.executor).method? ⟨executorStaticInitName, .void⟩ = some m ∧
            e'.CompiledFrom t w source m ∧
            (source = own ↔ ∀ later ∈ v.unit.after .staticInit,
              ¬ Clash (e'.typeAt t).name (.ofDef own) (.ofDef later)) := by
  obtain ⟨native, hosted⟩ := Option.isSome_iff_exists.1 managed.2
  have chronicled := reachable.chronicled managed
  refine ⟨native, hosted, observed_load reachable.grounded managed.1 free chronicled.simple_live
    hosted fuel stamp data, fun v a own published generated mem init => ?_⟩
  have grows : e.Grows ((load fuel t stamp data).final e) :=
    Engine.Edits.grows (leads_load reachable.grounded managed.1 fuel stamp data).edits
  have managed' : ((load fuel t stamp data).final e).IsManaged t := by
    refine ⟨Nat.lt_of_lt_of_le managed.1 grows.types, ?_⟩
    rw [(grows.typeAt t managed.1).native]
    exact managed.2
  have chronicled' := (reachable.step (.load fuel t stamp data managed.1)).chronicled managed'
  exact (chronicled'.recorded published).exists_initializer generated mem init

namespace Watched

/-- The type with a method that answers a number and with a static initializer. -/
def starting (n : Int64) : TypeUnit :=
  ((TypeUnit.named "app.T").addMethod (Overloaded.instanceMethod n)).addStaticInit [.ret]

/-- An observer that has nothing to say. -/
def calm : Observer := ⟨some "calm", fun _ => none, fun _ => none, fun _ => false⟩

/-- An observer that wants the static initializer to run again and then complains. -/
def grumpy : Observer := ⟨some "grumpy", fun _ => none, fun _ => some "late", fun _ => true⟩

/-- A scope in which the type was defined. -/
def defined : Engine := (Engine.opened { included := ["app.*"] }).defining 4 (starting 1)

/-- The scope with observers, of which the last one does not get to hear of a reload. -/
def engine : Engine :=
  [calm, grumpy, calm].foldl (fun e o => (Scope.addObserver 0 o : Run Nat).final e) defined

/-- What the observers are told. -/
def event : ReloadEvent := ⟨"app.T", 0, "later", 1⟩

/-- Who is told about a reload when, in order. -/
def calls : List (String × ObserverCall) :=
  [("calm", .before), ("grumpy", .before), ("calm", .before),
    ("calm", .rerun), ("grumpy", .rerun), ("calm", .rerun), ("calm", .after), ("grumpy", .after)]

set_option maxRecDepth 100000 in
theorem facts : engine.IsManaged 0 ∧
    engine.class? (engine.typeAt 0).scope
      (contractName (engine.typeAt 0).name (engine.typeAt 0).nextArtifact) = none ∧
    engine.class? (engine.typeAt 0).scope
      (executorName (engine.typeAt 0).name (engine.typeAt 0).nextArtifact) = none ∧
    ((load 4 0 "later" (starting 2).encode).final engine).trace =
      calls.map fun call => ⟨call.1, call.2, event⟩ := by
  decide +kernel

theorem reachable : engine.Reachable := by
  have start : defined.Reachable := (Engine.reachable_opened _).defining 4 _ (by decide)
  exact ((start.step (.addObserver 0 calm)).step (.addObserver 0 grumpy)).step
    (.addObserver 0 calm)

end Watched

open Watched in
/-- A reload of a watched type in which the second of three observers complains. -/
theorem load_calls_observers_watched :
    engine.Reachable ∧ engine.IsManaged 0 ∧ engine.NamesFree 0 ∧
    ((load 4 0 "later" (starting 2).encode).final engine).trace =
      (calls.map fun call => ⟨call.1, call.2, event⟩) ∧
    ∃ native, (engine.typeAt 0).native = some native ∧
      Observed engine 4 0 native "later" (starting 2).encode
        (load 4 0 "later" (starting 2).encode engine) := by
  obtain ⟨managed, contract, executor, trace⟩ := facts
  have free : engine.NamesFree 0 := ⟨contract, executor⟩
  obtain ⟨native, hosted, observed, -⟩ := load_calls_observers reachable managed free 4 "later"
    (starting 2).encode
  exact ⟨reachable, managed, free, trace, native, hosted, observed⟩

end LiveUpdate
