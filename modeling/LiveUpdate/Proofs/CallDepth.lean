import LiveUpdate.Proofs.Recounting
import LiveUpdate.Proofs.Redirection
import LiveUpdate.Proofs.Selection

/-!
# Call depth

The depth counts the calls that run inside each other.  It is counted up and down by hand around
bodies of calls, and around the calls that a check forwards to.  Here is what comes of it: every
computation leaves the depth that it found, no instruction is executed beyond the bound of the
scope, and a call whose check redirects it runs the other body in its own place.
-/

set_option autoImplicit false

namespace LiveUpdate

open Exec

section Bound

variable {s : ScopeRef} {e e' : Engine}

/-- An instruction is executed at a depth between one and a bound. -/
def Occurrence.Within (most : Nat) : Occurrence → Prop
  | executes now => 1 ≤ now.engine.depth ∧ now.engine.depth ≤ most
  | begins _ _ | finishes _ _ => True

/-- The skeleton of an engine stays, and instructions are executed within the bound. -/
structure Engine.StaysWithin (s : ScopeRef) (e : Engine) (account : List Occurrence)
    (e' : Engine) : Prop where
  skeleton : e'.skeleton = e.skeleton
  within : ∀ o ∈ account, o.Within (e.scopeAt s).options.maxCallDepth

theorem Engine.StaysWithin.append {e'' : Engine} {account rest : List Occurrence}
    (first : e.StaysWithin s account e') (next : e'.StaysWithin s rest e'') :
    e.StaysWithin s (account ++ rest) e'' := by
  refine ⟨next.skeleton.trans first.skeleton, fun o mem => ?_⟩
  rcases List.mem_append.1 mem with before | behind
  · exact first.within o before
  · rw [← Engine.options_of_skeleton_eq first.skeleton]
    exact next.within o behind

/-- A computation at another depth, after which the depth is set back. -/
theorem Engine.StaysWithin.atDepth {depth : Nat} {account : List Occurrence}
    (inner : ({ e with depth } : Engine).StaysWithin s account e') :
    e.StaysWithin s account { e' with depth := e.depth } :=
  ⟨congrArg (fun bones : Engine => { bones with depth := e.depth }) inner.skeleton, inner.within⟩

/-- The initialization of classes stays within the bound when calls do. -/
theorem Initializes.staysWithin {m : Machine} {told : Accounts}
    (calls : ∀ c method args e account, told c method args e account →
      e.StaysWithin s account ((m.call c method args).final e))
    {classes : List ClassRef} {account : List Occurrence}
    (init : Initializes m told classes e account) :
    e.StaysWithin s account ((m.initializeAll classes).final e) := by
  have nothing (e : Engine) : e.StaysWithin s [] e := ⟨rfl, fun o mem => nomatch mem⟩
  -- along the superclasses, which are initialized first
  induction init with
  | top e => exact nothing e
  | finished done =>
    rw [final_of_ok (Machine.initializeAll_done m done)]
    exact nothing _
  | fails todo fails before ih =>
    rw [final_of_error fails] at ih
    rw [final_of_error (Machine.initializeAll_of_error todo fails)]
    exact ih
  | begun todo made before begun ih =>
    rw [final_of_ok made] at ih
    rw [final_of_ok (Machine.initializeAll_of_begun todo made begun)]
    exact ih
  | missing todo made before missing ih =>
    rw [final_of_ok made] at ih
    rw [final_of_ok (Machine.initializeAll_of_missing todo made missing)]
    exact ih
  | @runs c above e e' account inside todo made before pending exists_ init ih =>
    rw [final_of_ok made] at ih
    rw [Machine.final_initializeAll todo made pending]
    have ran := told.leads_ofStaticInit nothing calls init
    refine ih.append ⟨?_, fun o mem => ?_⟩
    · rw [Engine.skeleton_finishInit, ran.skeleton, Engine.skeleton_beginInit]
    · have options := Engine.options_of_skeleton_eq (e'.skeleton_beginInit c) s
      rcases List.mem_cons.1 mem with rfl | mem
      · trivial
      · rcases List.mem_append.1 mem with inside | last
        · rw [← options]
          exact ran.within o inside
        · rw [List.mem_singleton.1 last]
          trivial

/-- Every computation stays within the bound. -/
def AccountLaw.depth (s : ScopeRef) : AccountLaw s where
  leads := Engine.StaysWithin s
  runs e := 1 ≤ e.depth ∧ e.depth ≤ (e.scopeAt s).options.maxCallDepth
  still same := ⟨congrArg Prod.fst same, fun o mem => nomatch mem⟩
  append := Engine.StaysWithin.append
  goesOn led running := by
    rw [Engine.depth_of_skeleton_eq led.skeleton, Engine.options_of_skeleton_eq led.skeleton]
    exact running
  executes running led := by
    refine ⟨led.skeleton, fun o mem => ?_⟩
    rcases List.mem_cons.1 mem with rfl | mem
    · exact running
    · exact led.within o mem
  forwards := Engine.StaysWithin.atDepth
  enters room := ⟨Nat.le_add_left _ _, room⟩
  counts {e e' account} led := by
    have depth : e'.depth = e.depth + 1 := Engine.depth_of_skeleton_eq led.skeleton
    rw [depth]
    exact led.atDepth
  initializes calls _ _ _ init := init.staysWithin calls

end Bound

namespace Method

/-- Why a method cannot be called with some arguments at all. -/
def refusal? (method : Method) (args : List Value) : Option RunError :=
  if method.isAbstract then some (.abstractMethod method.text)
  else if args.length ≠ method.argCount then
    some (.malformed (.argumentCount method.text method.argCount args.length))
  else none

theorem refusal?_of_misfit {method : Method} {args : List Value}
    (concrete : method.isAbstract = false) (misfit : args.length ≠ method.argCount) :
    method.refusal? args =
      some (.malformed (.argumentCount method.text method.argCount args.length)) := by
  unfold refusal?
  rw [if_neg (Bool.eq_false_iff.1 concrete), if_pos misfit]

theorem of_refusal?_eq_none {method : Method} {args : List Value}
    (callable : method.refusal? args = none) :
    method.isAbstract = false ∧ args.length = method.argCount := by
  unfold refusal? at callable
  split at callable
  · cases callable
  · rename_i concrete
    split at callable
    · cases callable
    · rename_i fits
      exact ⟨by simpa using concrete, Decidable.not_not.1 fits⟩

end Method

namespace Machine

variable {s : ScopeRef} {e e' : Engine} {c : ClassRef} {method : Method} {args : List Value}

section Overflow

/-! A call is refused when as many calls are running as may. -/

theorem keeps_prepare {m : Machine} (hm : m.KeepsSkeleton) (c : ClassRef) (method : Method) :
    Keeps Engine.skeleton (m.prepare c method) := by
  unfold prepare
  split
  · exact keeps_ensureInitialized hm c
  · exact keeps_pure ()

/-- A call that fits its method prepares and then runs the body as one more call. -/
theorem call_prepared (n : Nat) (concrete : method.isAbstract = false)
    (fits : args.length = method.argCount)
    (made : (Machine.of s n).prepare c method e = .ok () e') :
    (Machine.of s (n + 1)).call c method args e =
      if (e'.scopeAt s).options.maxCallDepth ≤ e'.depth then
        .error (.error (.stackOverflow e'.depth)) e'
      else atDepth (· + 1) ((Machine.of s n).run n (.enter c method args)) e' := by
  show (Machine.of s n).enter n c method args e = _
  rw [enter_eq n c concrete fits, enterBody_eq, bind_apply, made]
  exact runDeeper_apply (keepsSkeleton_of s n) n _ e'

theorem call_unprepared (n : Nat) (concrete : method.isAbstract = false)
    (fits : args.length = method.argCount) {stop : Stop RunError}
    (fails : (Machine.of s n).prepare c method e = .error stop e') :
    (Machine.of s (n + 1)).call c method args e = .error stop e' := by
  show (Machine.of s n).enter n c method args e = _
  rw [enter_eq n c concrete fits, enterBody_eq, bind_apply, fails]

theorem call_refused (n : Nat) (c : ClassRef) {error : RunError}
    (refused : method.refusal? args = some error) (e : Engine) :
    (Machine.of s (n + 1)).call c method args e = .error (.error error) e := by
  show (Machine.of s n).enter n c method args e = _
  unfold Method.refusal? at refused
  by_cases abstract_ : method.isAbstract = true
  · rw [if_pos abstract_] at refused
    cases refused
    rw [enter_abstract n c args abstract_]
    rfl
  rw [if_neg abstract_] at refused
  by_cases misfit : args.length ≠ method.argCount
  · rw [if_pos misfit] at refused
    cases refused
    rw [enter_misfit n c (by simpa using abstract_) misfit]
    rfl
  · rw [if_neg misfit] at refused
    cases refused

variable (described : e.Described) (full : (e.scopeAt s).options.maxCallDepth ≤ e.depth)
include described full

/-- When as many calls are running as may, initialization fails for that reason, or because of a
static initializer that cannot be called at all. -/
theorem initializeAll_full (n : Nat) {classes : List ClassRef} {stop : Stop RunError}
    (fails : (Machine.of s (n + 1)).initializeAll classes e = .error stop e') :
    stop = .error (.stackOverflow e.depth) ∨ ∃ d ∈ classes, ∃ init error,
      (e.classAt d).method? .staticInit = some init ∧ init.refusal? [] = some error ∧
        stop = .error error := by
  induction classes generalizing e' with
  | nil => cases fails
  | cons c above ih =>
    by_cases done : e.progress c = .done
    · rw [initializeAll_done _ done] at fails
      cases fails
    rw [initializeAll_cons done] at fails
    have kept := keeps_of_obeys (fun bones => obeys_initializeAll
      ((keepsSkeleton_of s (n + 1)).obeys bones) above) e
    cases run : (Machine.of s (n + 1)).initializeAll above e with
    | error stop' e₁ =>
      rw [run] at fails
      cases fails
      refine (ih run).imp_right ?_
      rintro ⟨d, mem, rest⟩
      exact ⟨d, List.mem_cons_of_mem _ mem, rest⟩
    | ok u e₁ =>
      rw [run] at fails
      rw [final_of_ok run] at kept
      dsimp only at fails
      split at fails
      · -- the initializer is called, and that is one call too many
        have same := (e₁.skeleton_beginInit c).trans kept
        cases ran : (Machine.of s (n + 1)).runStaticInit c (e₁.beginInit c).2 with
        | ok v e₂ =>
          rw [ran] at fails
          cases fails
        | error stop' e₂ =>
          rw [ran] at fails
          cases fails
          obtain ⟨init, declared, called⟩ := runStaticInit_eq_error _ ran
          have declared' : (e.classAt c).method? .staticInit = some init := by
            rw [← declared]
            have skeleton := congrArg Class.methods (Engine.classAt_of_skeleton_eq same c)
            exact congrArg (·.get? MemberKey.staticInit) skeleton.symm
          cases refusal : init.refusal? [] with
          | some error =>
            rw [call_refused n c refusal] at called
            cases called
            exact .inr ⟨c, List.mem_cons_self, init, error, declared', refusal, rfl⟩
          | none =>
            obtain ⟨concrete, fits⟩ := Method.of_refusal?_eq_none refusal
            have ready : (Machine.of s n).prepare c init (e₁.beginInit c).2 =
                .ok () (e₁.beginInit c).2 := by
              have early : init.key.isStaticInit = true := by
                rw [(described.method_eq declared').2]
                rfl
              unfold prepare
              rw [early, Bool.not_true, Bool.and_false]
              rfl
            have full' : ((e₁.beginInit c).2.scopeAt s).options.maxCallDepth ≤
                (e₁.beginInit c).2.depth := by
              rw [Engine.options_of_skeleton_eq same, Engine.depth_of_skeleton_eq same]
              exact full
            rw [call_prepared n concrete fits ready, if_pos full'] at called
            cases called
            rw [Engine.depth_of_skeleton_eq same]
            exact .inl rfl
      · cases fails

/-- No call is made on top of as many calls as may run.  What is refused before it counts as a call
is refused all the same. -/
theorem call_full (n : Nat) (c : ClassRef) (method : Method) (args : List Value) :
    ∃ error e', (Machine.of s (n + 2)).call c method args e = .error (.error error) e' ∧
      (error = .stackOverflow e.depth ∨ method.refusal? args = some error ∨
        ∃ d ∈ c :: (e.classAt c).superclasses, ∃ init,
          (e.classAt d).method? .staticInit = some init ∧ init.refusal? [] = some error) := by
  cases refusal : method.refusal? args with
  | some error => exact ⟨error, e, call_refused (n + 1) c refusal e, .inr (.inl rfl)⟩
  | none =>
    obtain ⟨concrete, fits⟩ := Method.of_refusal?_eq_none refusal
    have kept := keeps_prepare (keepsSkeleton_of s (n + 1)) c method e
    cases made : (Machine.of s (n + 1)).prepare c method e with
    | error stop e' =>
      rw [call_unprepared _ concrete fits made]
      unfold prepare at made
      split at made
      · rcases initializeAll_full described full n made with
          rfl | ⟨d, mem, init, error, declared, refused, rfl⟩
        · exact ⟨_, e', rfl, .inl rfl⟩
        · exact ⟨error, e', rfl, .inr (.inr ⟨d, mem, init, declared, refused⟩)⟩
      · cases made
    | ok u e' =>
      rw [final_of_ok made] at kept
      have full' : (e'.scopeAt s).options.maxCallDepth ≤ e'.depth := by
        rw [Engine.options_of_skeleton_eq kept, Engine.depth_of_skeleton_eq kept]
        exact full
      rw [call_prepared _ concrete fits made, if_pos full', Engine.depth_of_skeleton_eq kept]
      exact ⟨_, e', rfl, .inl rfl⟩

end Overflow

end Machine

namespace Engine

/-- The check in front of a frame redirects it to a body: to the method of an executor, or to the
implementation that the live version inherits. -/
inductive Reroutes (e : Engine) (s : ScopeRef) (id : TypeId) (slot : Nat) (f : Frame) :
    Body → Prop
  | executes {t : TypeRef} {version : LiveVersion} {executor : ClassRef} {method : Method}
    (registered : e.typeWithId? s id = some t)
    (published : (e.typeAt t).published = some version)
    (entry : version.dispatch.entry? slot = some (.executor method))
    (compiled : version.executor? = some executor) : Reroutes e s id slot f ⟨executor, method⟩
  | inherits {t : TypeRef} {version : LiveVersion} {b : Body}
    (registered : e.typeWithId? s id = some t)
    (published : (e.typeAt t).published = some version)
    (entry : version.dispatch.entry? slot = some .deleted)
    (receives : f.method.isStatic = false) (plain : f.method.isConstructor = false)
    (body : e.inheritedBody s t f.method.key = some b) : Reroutes e s id slot f b

end Engine

namespace Machine

section Redirection

variable {s : ScopeRef} {e e' : Engine} {id : TypeId} {slot : Nat} {f : Frame} {b : Body}

/-- What runs in the place of a redirected frame is the call of the other body, at any depth. -/
theorem exists_replacement (reroutes : e.Reroutes s id slot f b)
    (fits : f.arguments.length = b.method.argCount) (n : Nat) :
    ∃ x, (Machine.of s n).replacement? e id slot f.method f.arguments = some x ∧
      ∀ depth, x { e with depth } =
        (Machine.of s n).call b.cls b.method f.arguments { e with depth } := by
  unfold replacement?
  rw [scope_of]
  cases reroutes with
  | executes registered published entry compiled =>
    rw [registered]
    dsimp only [Option.bind_eq_bind, Option.bind_some]
    rw [published]
    dsimp only [Option.bind_some]
    rw [entry]
    dsimp only [Option.bind_some]
    rw [compiled]
    dsimp only
    rw [if_neg (not_not_intro fits)]
    exact ⟨_, rfl, fun _ => rfl⟩
  | @inherits t version b registered published entry receives plain body =>
    rw [registered]
    dsimp only [Option.bind_eq_bind, Option.bind_some]
    rw [published]
    dsimp only [Option.bind_some]
    rw [entry]
    dsimp only [Option.bind_some]
    rw [receives, plain]
    refine ⟨_, rfl, fun depth => ?_⟩
    have here : ({ e with depth } : Engine).inheritedBody s t f.method.key = some b := by
      rw [e.inheritedBody_setDepth s depth _ t, body]
    have calls : (Machine.of s n).Calls { e with depth } f.arguments
        ((Machine.of s n).callInherited t f.method.key f.arguments { e with depth })
        (({ e with depth } : Engine).inheritedBody s t f.method.key) :=
      calls_callInherited fun none => by
        rw [here] at none
        cases none
    rw [here] at calls
    exact calls

/-- A value that a check has got is what its frame returns. -/
def handedOn (f : Frame) : EStateM.Result (Stop RunError) Engine Value →
    EStateM.Result (Stop RunError) Engine (Flow × Frame)
  | .ok value e => .ok (.ret value, f) e
  | .error stop e => .error stop e

/-- A redirected frame runs the other body in its place, at its own depth.  The class of a static
method is initialized before. -/
theorem execute_redirected (reroutes : e.Reroutes s id slot f b)
    (concrete : b.method.isAbstract = false) (fits : f.arguments.length = b.method.argCount)
    (deep : 1 ≤ e.depth) (within : e.depth ≤ (e.scopeAt s).options.maxCallDepth) (n : Nat) :
    (Machine.of s (n + 1)).checkEntry id slot f e =
      match (Machine.of s n).prepare b.cls b.method { e with depth := e.depth - 1 } with
      | .error stop e' => .error stop { e' with depth := e.depth }
      | .ok _ e' => handedOn f ((Machine.of s n).run n (.enter b.cls b.method f.arguments)
          { e' with depth := e.depth }) := by
  obtain ⟨x, replaced, calls⟩ := exists_replacement reroutes fits (n + 1)
  rw [checkEntry_apply, replaced]
  dsimp only
  rw [forwarding_eq, atDepth_apply, calls]
  have kept := keeps_prepare (keepsSkeleton_of s n) b.cls b.method { e with depth := e.depth - 1 }
  cases made : (Machine.of s n).prepare b.cls b.method { e with depth := e.depth - 1 } with
  | error stop e' => rw [call_unprepared n concrete fits made]
  | ok u e' =>
    rw [final_of_ok made] at kept
    have depth : e'.depth = e.depth - 1 := Engine.depth_of_skeleton_eq kept
    have options : (e'.scopeAt s).options = (e.scopeAt s).options :=
      Engine.options_of_skeleton_eq kept s
    have room : ¬ (e'.scopeAt s).options.maxCallDepth ≤ e'.depth := by
      rw [options, depth]
      omega
    have again : e'.depth + 1 = e.depth := by
      rw [depth]
      omega
    rw [call_prepared n concrete fits made, if_neg room, atDepth_apply, again]
    dsimp only
    have balanced := Engine.depth_of_skeleton_eq (keeps_run (keepsSkeleton_of s n) n
      (.enter b.cls b.method f.arguments) { e' with depth := e.depth })
    unfold final at balanced
    cases run : (Machine.of s n).run n (.enter b.cls b.method f.arguments)
      { e' with depth := e.depth } with
    | ok value e₁ =>
      rw [run] at balanced
      show EStateM.Result.ok (Flow.ret value, f) { e₁ with depth := e.depth } = .ok _ e₁
      rw [← show e₁.depth = e.depth from balanced]
    | error stop e₁ =>
      rw [run] at balanced
      show EStateM.Result.error stop { e₁ with depth := e.depth } = .error _ e₁
      rw [← show e₁.depth = e.depth from balanced]

/-- A call of a method that is redirected is the call of the other body, from where the first one
is made. -/
theorem call_redirected {c : ClassRef} {host : Method} {slot : UInt32} {rest : List Instr}
    {args : List Value} (code : host.code = .entryCheck id slot :: rest)
    (concrete : host.isAbstract = false) (fits : args.length = host.argCount) (n : Nat)
    (made : (Machine.of s (n + 1)).prepare c host e = .ok () e')
    (reroutes : e'.Reroutes s id slot.toNat (.enter c host args) b)
    (count : args.length = b.method.argCount) :
    (Machine.of s (n + 2)).call c host args e =
      if (e'.scopeAt s).options.maxCallDepth ≤ e'.depth then
        .error (.error (.stackOverflow e'.depth)) e'
      else (Machine.of s (n + 1)).call b.cls b.method args e' := by
  have same : (Frame.enter c host args).arguments = args := arguments_enter c fits
  obtain ⟨x, replaced, calls⟩ := exists_replacement reroutes (by rw [same]; exact count) (n + 1)
  rw [same] at replaced calls
  show (Machine.of s (n + 1)).enter (n + 1) c host args e = _
  rw [enter_eq _ _ concrete fits, enterBody_eq, bind_apply, made]
  dsimp only
  rw [runDeeper_checked code fits]
  have replaced : (Machine.of s (n + 1)).replacement? e' id slot.toNat host args = some x := replaced
  rw [replaced]
  split
  · rfl
  · exact calls e'.depth

end Redirection

end Machine

/-- How calls are counted in a scope, from an engine on. -/
structure CountsCalls (s : ScopeRef) (e : Engine) : Prop where
  /-- A call leaves the depth that it found, with a value and with any error. -/
  balanced : ∀ (n : Nat) (c : ClassRef) (method : Method) (args : List Value),
    ((invoke s n c method args).final e).depth = e.depth
  /-- Whatever is executed in a call, at any nesting, runs inside of calls, and inside of no more
  of them than may run. -/
  bounded : ∀ (n : Nat) (c : ClassRef) (method : Method) (args : List Value),
    (∃ account, Account s n c method args e account) ∧
      ∀ account, Account s n c method args e account → ∀ now, .executes now ∈ account →
        1 ≤ now.engine.depth ∧ now.engine.depth ≤ (e.scopeAt s).options.maxCallDepth
  /-- A call on top of as many as may run fails for that reason, unless the method or a static
  initializer that comes first cannot be called in any case. -/
  overflows : e.Described → (e.scopeAt s).options.maxCallDepth ≤ e.depth →
    ∀ (n : Nat) (c : ClassRef) (method : Method) (args : List Value),
      ∃ error e', invoke s (n + 2) c method args e = .error (.error error) e' ∧
        (error = .stackOverflow e.depth ∨ method.refusal? args = some error ∨
          ∃ d ∈ c :: (e.classAt c).superclasses, ∃ init,
            (e.classAt d).method? .staticInit = some init ∧ init.refusal? [] = some error)
  /-- Any other call runs the body one deeper than it is made. -/
  counts : ∀ (n : Nat) (c : ClassRef) (method : Method) (args : List Value) (e' : Engine),
    method.refusal? args = none → (Machine.of s n).prepare c method e = .ok () e' →
    e'.depth < (e'.scopeAt s).options.maxCallDepth →
      invoke s (n + 1) c method args e =
        Machine.atDepth (· + 1) ((Machine.of s n).run n (.enter c method args)) e'
  /-- A check that redirects its frame has the other body run in the place of the frame, at the
  frame's own depth. -/
  inPlace : ∀ (n : Nat) (id : TypeId) (slot : Nat) (f : Frame) (b : Body),
    e.Reroutes s id slot f b → b.method.refusal? f.arguments = none → 1 ≤ e.depth →
    e.depth ≤ (e.scopeAt s).options.maxCallDepth →
      (Machine.of s (n + 1)).checkEntry id slot f e =
        match (Machine.of s n).prepare b.cls b.method { e with depth := e.depth - 1 } with
        | .error stop e' => .error stop { e' with depth := e.depth }
        | .ok _ e' => Machine.handedOn f ((Machine.of s n).run n (.enter b.cls b.method f.arguments)
            { e' with depth := e.depth })
  /-- So a call of a method that is redirected is the call of the other body, from the same depth,
  and a reload neither gives nor takes room for further calls. -/
  free : ∀ (n : Nat) (c : ClassRef) (host : Method) (id : TypeId) (slot : UInt32)
    (rest : List Instr) (args : List Value) (b : Body) (e' : Engine),
    host.code = .entryCheck id slot :: rest → host.refusal? args = none →
    (Machine.of s (n + 1)).prepare c host e = .ok () e' →
    e'.Reroutes s id slot.toNat (.enter c host args) b → args.length = b.method.argCount →
    e'.depth < (e'.scopeAt s).options.maxCallDepth →
      invoke s (n + 2) c host args e = invoke s (n + 1) b.cls b.method args e'

/-- Calls are counted without loss: the depth is back where it was after each of them, no code runs
beyond the bound, and redirection is free. -/
theorem calls_counted_in_balance (s : ScopeRef) (e : Engine) : CountsCalls s e where
  balanced n c method args := Engine.depth_of_skeleton_eq (keepsSkeleton_of s n c method args e)
  bounded n c method args := by
    refine ⟨exists_account s n c method args e, fun account told now mem => ?_⟩
    have led := (AccountLaw.depth s).leads_of_account n c method args e account told
    exact led.within _ mem
  overflows described full n c method args := Machine.call_full described full n c method args
  counts n c method args e' callable made room := by
    obtain ⟨concrete, fits⟩ := Method.of_refusal?_eq_none callable
    have called := Machine.call_prepared n concrete fits made
    rw [if_neg (Nat.not_le_of_lt room)] at called
    exact called
  inPlace n id slot f b reroutes callable deep within := by
    obtain ⟨concrete, fits⟩ := Method.of_refusal?_eq_none callable
    exact Machine.execute_redirected reroutes concrete fits deep within n
  free n c host id slot rest args b e' code callable made reroutes count room := by
    obtain ⟨concrete, fits⟩ := Method.of_refusal?_eq_none callable
    have called := Machine.call_redirected code concrete fits n made reroutes count
    rw [if_neg (Nat.not_le_of_lt room)] at called
    exact called

namespace Recursing

/-- The method that calls itself so many times. -/
def key : MemberKey := ⟨"down", ⟨[.int], .int⟩⟩

/-- Its type, with what it returns at the end. -/
def unit (bottom : Int64) : TypeUnit :=
  ((TypeUnit.named "app.Deep").addMethod (.make key.name key.sig .publicBit
    [.load 1, .constInt 0, .compare .gt, .jumpIf true 6, .constInt bottom, .retValue,
      .load 0, .load 1, .constInt 1, .arith .sub, .invoke .virtual ⟨"app.Deep", key.name, key.sig⟩,
      .retValue])).addDefaultConstructor

/-- A scope in which three calls may run, after an object of the type was made. -/
def made : Engine :=
  ((Scope.Use.newInstance "app.Deep" .void []).perform 60 0).final
    ((Engine.opened { included := ["app.*"], maxCallDepth := 3 }).defining 4 (unit 0))

/-- The scope after the type was loaded again with another end. -/
def engine : Engine := made.reloading 4 0 "later" (unit 1)

/-- The method of the host. -/
def host : Method := ((engine.classAt 0).method? key).getD default

/-- The method of the executor. -/
def target : Method :=
  ((engine.classAt 2).method? ⟨key.name, ⟨[.ref "app.Deep", .int], .int⟩⟩).getD default

/-- What a call from outside comes to. -/
def calling (e : Engine) (n : Int64) : Option Value :=
  ((Machine.of 0 40).call 0 host [.object 0, .int n]).run' e

set_option maxRecDepth 100000 in
theorem outcomes :
    (host.code.head? = some (.entryCheck 0 0) ∧ host.isStatic = false ∧
      host.refusal? [.object 0, .int 2] = none) ∧
    (target.isStatic = true ∧ target.argCount = 2) ∧
    engine.typeWithId? 0 0 = some 0 ∧
    (engine.typeAt 0).published.any (fun v => v.dispatch.entry? 0 = some (.executor target) ∧
      v.executor? = some 2) = true ∧
    engine.depth < (engine.scopeAt 0).options.maxCallDepth ∧
    (calling made 2 = some (.int 0) ∧ calling engine 2 = some (.int 1)) ∧
    calling made 3 = none ∧ calling engine 3 = none := by
  decide +kernel

theorem reroutes :
    engine.Reroutes 0 0 0 (.enter 0 host [.object 0, .int 2]) ⟨2, target⟩ := by
  obtain ⟨-, -, registered, published, -⟩ := outcomes
  cases live : (engine.typeAt 0).published with
  | none =>
    rw [live] at published
    cases published
  | some version =>
    rw [live] at published
    obtain ⟨entry, compiled⟩ := of_decide_eq_true published
    exact .executes registered live entry compiled

end Recursing

open Recursing in
/-- A call of a method that was loaded again is the call of its new body, from the same depth. -/
theorem calls_counted_in_balance_recursing :
    engine.Reroutes 0 0 0 (.enter 0 host [.object 0, .int 2]) ⟨2, target⟩ ∧
    ∀ n, invoke 0 (n + 2) 0 host [.object 0, .int 2] engine =
      invoke 0 (n + 1) 2 target [.object 0, .int 2] engine := by
  obtain ⟨⟨code, receives, callable⟩, ⟨-, count⟩, -, -, room, -⟩ := outcomes
  have reroutes := reroutes
  refine ⟨reroutes, fun n => ?_⟩
  -- What matters about the engine and the methods is known; they are not to be unfolded.
  generalize engine = e, host = m, target = new at *
  have counted := calls_counted_in_balance 0 e
  obtain ⟨rest, code⟩ := List.head?_eq_some_iff.1 code
  have ready : (Machine.of 0 (n + 1)).prepare 0 m e = .ok () e := by
    unfold Machine.prepare
    rw [receives]
    rfl
  exact counted.free n 0 m 0 0 rest _ ⟨2, new⟩ e code callable ready reroutes
    count.symm room

end LiveUpdate
