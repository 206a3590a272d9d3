import LiveUpdate.Proofs.Containment
import LiveUpdate.Proofs.Initialization

/-!
# Accounts of runs

An account of a run lists what happens in it, at every depth of nesting: each instruction that
is executed, and the begin and the end of each static initialization, with the engine at that
time.  Calls and initializations are the only parts of a run whose inside matters for this.
What is left of a function of the machine when they are taken out calls nothing, and leaves the
skeleton of the engine and the progress of all initializations alone.  From there every
function has an account as its parts have, and by induction on the fuel so has every call.
-/

set_option autoImplicit false

namespace LiveUpdate

open Exec

/-- A way of calling methods. -/
abbrev Calling := ClassRef → Method → List Value → Run Value

/-- What the machines of a scope do alike, each with its own way of calling methods. -/
abbrev Routine (α : Type) := Calling → Run α

/-- Something that happens in a run. -/
inductive Occurrence
  /-- An instruction is about to be executed. -/
  | executes (now : Moment)
  /-- The static initialization of a class begins. -/
  | begins (c : ClassRef) (e : Engine)
  /-- The static initialization of a class is over. -/
  | finishes (c : ClassRef) (e : Engine)

/-- The engine when something happens. -/
def Occurrence.engine : Occurrence → Engine
  | executes now => now.engine
  | begins _ e | finishes _ e => e

/-- Which lists are accounts of a call that is made in an engine. -/
abbrev Accounts := ClassRef → Method → List Value → Engine → List Occurrence → Prop

namespace Engine

/-- What only calls and initializations change. -/
def outline (e : Engine) : Engine × (ClassRef → InitState) := (e.skeleton, e.progress)

/-- A class that does not exist cannot be changed. -/
theorem updateClass_of_le (e : Engine) {c : ClassRef} (beyond : e.classes.size ≤ c)
    (f : Class → Class) : e.updateClass c f = e := by
  have same : e.classes.modify c f = e.classes := by
    refine Array.ext Array.size_modify fun i lt _ => ?_
    have elsewhere : c ≠ i := by
      rw [Array.size_modify] at lt
      exact Nat.ne_of_gt (Nat.lt_of_lt_of_le lt beyond)
    rw [Array.getElem_modify, if_neg elsewhere]
  unfold updateClass
  rw [same]

theorem skeleton_beginInit (e : Engine) (c : ClassRef) :
    (e.beginInit c).2.skeleton = e.skeleton := by
  unfold beginInit
  split
  · exact e.skeleton_updateClass c _ fun _ => rfl
  · rfl

theorem skeleton_finishInit (e : Engine) (c : ClassRef) : (e.finishInit c).skeleton = e.skeleton :=
  e.skeleton_updateClass c _ fun _ => rfl

end Engine

/-- The accounts of running the static initializer that a class declares. -/
def Accounts.ofStaticInit (told : Accounts) (c : ClassRef) (e : Engine)
    (account : List Occurrence) : Prop :=
  match (e.classAt c).method? .staticInit with
  | some init => told c init [] e account
  | none => account = []

/-- The accounts of initializing the first class of a list, with those after it before it, when
calls have some accounts. -/
inductive Initializes (m : Machine) (told : Accounts) :
    List ClassRef → Engine → List Occurrence → Prop
  | top (e : Engine) : Initializes m told [] e []
  | finished {c : ClassRef} {above : List ClassRef} {e : Engine} (done : e.progress c = .done) :
    Initializes m told (c :: above) e []
  | fails {c : ClassRef} {above : List ClassRef} {e e' : Engine} {stop : Stop RunError}
    {account : List Occurrence} (todo : e.progress c ≠ .done)
    (fails : m.initializeAll above e = .error stop e') (before : Initializes m told above e account) :
    Initializes m told (c :: above) e account
  | begun {c : ClassRef} {above : List ClassRef} {e e' : Engine} {account : List Occurrence}
    (todo : e.progress c ≠ .done) (made : m.initializeAll above e = .ok () e')
    (before : Initializes m told above e account) (begun : e'.progress c ≠ .pending) :
    Initializes m told (c :: above) e account
  /-- A place without a class has nothing to initialize. -/
  | missing {c : ClassRef} {above : List ClassRef} {e e' : Engine} {account : List Occurrence}
    (todo : e.progress c ≠ .done) (made : m.initializeAll above e = .ok () e')
    (before : Initializes m told above e account) (missing : e'.classes.size ≤ c) :
    Initializes m told (c :: above) e account
  | runs {c : ClassRef} {above : List ClassRef} {e e' : Engine}
    {account inside : List Occurrence} (todo : e.progress c ≠ .done)
    (made : m.initializeAll above e = .ok () e') (before : Initializes m told above e account)
    (pending : e'.progress c = .pending) (exists_ : c < e'.classes.size)
    (init : told.ofStaticInit c (e'.beginInit c).2 inside) :
    Initializes m told (c :: above) e (account ++ .begins c e' :: (inside ++
      [.finishes c ((m.runStaticInit c).final (e'.beginInit c).2)]))

namespace Machine

variable {m : Machine} {c : ClassRef} {above : List ClassRef} {e e' : Engine}

theorem initializeAll_of_error {stop : Stop RunError} (todo : e.progress c ≠ .done)
    (fails : m.initializeAll above e = .error stop e') :
    m.initializeAll (c :: above) e = .error stop e' := by
  rw [initializeAll_cons todo, fails]

theorem initializeAll_of_begun (todo : e.progress c ≠ .done)
    (made : m.initializeAll above e = .ok () e') (begun : e'.progress c ≠ .pending) :
    m.initializeAll (c :: above) e = .ok () e' := by
  rw [initializeAll_cons todo, made]
  exact if_neg begun

theorem initializeAll_of_missing (todo : e.progress c ≠ .done)
    (made : m.initializeAll above e = .ok () e') (missing : e'.classes.size ≤ c) :
    m.initializeAll (c :: above) e = .ok () e' := by
  have nothing : e'.classAt c = default := Engine.getD_of_le _ _ missing
  have unchanged (f : Class → Class) : e'.updateClass c f = e' := e'.updateClass_of_le missing f
  have pending : e'.progress c = .pending := congrArg Class.init nothing
  have begun : (e'.beginInit c).2 = e' := by
    unfold Engine.beginInit
    split
    · exact unchanged _
    · rfl
  have finished : e'.finishInit c = e' := unchanged _
  have undeclared : (e'.classAt c).method? .staticInit = none := by
    rw [nothing]
    rfl
  have runs : m.runStaticInit c e' = .ok () e' := by
    unfold runStaticInit
    rw [bind_apply, ask_apply, undeclared]
    rfl
  rw [initializeAll_cons todo, made]
  dsimp only
  rw [if_pos pending, begun, runs]
  dsimp only
  rw [finished]

theorem final_initializeAll (todo : e.progress c ≠ .done)
    (made : m.initializeAll above e = .ok () e') (pending : e'.progress c = .pending) :
    (m.initializeAll (c :: above)).final e =
      ((m.runStaticInit c).final (e'.beginInit c).2).finishInit c := by
  unfold final
  rw [initializeAll_cons todo, made]
  dsimp only
  rw [if_pos pending]
  cases m.runStaticInit c (e'.beginInit c).2 <;> rfl

end Machine

/-- The accounts of a routine of the machine of a scope that calls methods in some way, when
these calls have some accounts. -/
inductive Passes (s : ScopeRef) (call : Calling) (told : Accounts) :
    {α : Type} → Routine α → Engine → List Occurrence → Prop
  /-- The routine calls nothing, and initializes nothing. -/
  | quiet {α : Type} {x : Routine α} {e : Engine} (deaf : ∀ other, x other e = x call e)
    (still : ((x call).final e).outline = e.outline) : Passes s call told x e []
  | calls {c : ClassRef} {method : Method} {args : List Value} {e : Engine}
    {account : List Occurrence} (tells : told c method args e account) :
    Passes s call told (fun call => call c method args) e account
  | initializes {c : ClassRef} {e : Engine} {account : List Occurrence}
    (init : Initializes ⟨s, call⟩ told (c :: (e.classAt c).superclasses) e account) :
    Passes s call told (fun call => Machine.ensureInitialized ⟨s, call⟩ c) e account
  | goesOn {α β : Type} {x : Routine α} {f : α → Routine β} {e e' : Engine} {a : α}
    {account rest : List Occurrence} (gives : x call e = .ok a e')
    (first : Passes s call told x e account) (next : Passes s call told (f a) e' rest) :
    Passes s call told (fun call => x call >>= fun a => f a call) e (account ++ rest)
  | stops {α β : Type} {x : Routine α} {f : α → Routine β} {e e' : Engine}
    {stop : Stop RunError} {account : List Occurrence} (fails : x call e = .error stop e')
    (first : Passes s call told x e account) :
    Passes s call told (fun call => x call >>= fun a => f a call) e account
  | forwards {x : Routine Value} {e : Engine} {account : List Occurrence}
    (inner : Passes s call told x { e with depth := e.depth - 1 } account) :
    Passes s call told (fun call => Machine.forwarding (x call)) e account

/-- The accounts of running a frame. -/
inductive RunsFrame (s : ScopeRef) (call : Calling) (told : Accounts) :
    Nat → Frame → Engine → List Occurrence → Prop
  | exhausted (f : Frame) (e : Engine) : RunsFrame s call told 0 f e []
  | ranOut {n : Nat} {f : Frame} {e : Engine} (nothing : f.instr? = none) :
    RunsFrame s call told (n + 1) f e []
  | ends {n : Nat} {f : Frame} {e : Engine} {instr : Instr} {account : List Occurrence}
    (here : f.instr? = some instr)
    (ends : ∀ flow f' e', Machine.execute ⟨s, call⟩ instr f e = .ok (flow, f') e' →
      flow.resume? f' = none)
    (inside : Passes s call told (fun call => Machine.execute ⟨s, call⟩ instr f) e account) :
    RunsFrame s call told (n + 1) f e (.executes ⟨f, e⟩ :: account)
  | goesOn {n : Nat} {f f' next : Frame} {e e' : Engine} {instr : Instr} {flow : Flow}
    {account rest : List Occurrence} (here : f.instr? = some instr)
    (does : Machine.execute ⟨s, call⟩ instr f e = .ok (flow, f') e')
    (resumes : flow.resume? f' = some next)
    (inside : Passes s call told (fun call => Machine.execute ⟨s, call⟩ instr f) e account)
    (onward : RunsFrame s call told n next e' rest) :
    RunsFrame s call told (n + 1) f e (.executes ⟨f, e⟩ :: (account ++ rest))

/-- What a call does before the depth is checked: it initializes the class of a static method. -/
def Machine.prepare (m : Machine) (c : ClassRef) (method : Method) : Run Unit :=
  if method.isStatic && !method.key.isStaticInit then m.ensureInitialized c else pure ()

/-- A call that fits its method prepares, and then runs the body as one more call. -/
theorem Machine.enterBody_eq (m : Machine) (fuel : Nat) (c : ClassRef) (method : Method)
    (args : List Value) : m.enterBody fuel c method args =
      m.prepare c method >>= fun _ => m.runDeeper fuel (.enter c method args) := by
  unfold enterBody prepare
  cases method.isStatic && !method.key.isStaticInit <;> rfl

/-- The accounts of entering a method. -/
inductive EntersMethod (s : ScopeRef) (call : Calling) (told : Accounts) (n : Nat) (c : ClassRef)
    (method : Method) (args : List Value) : Engine → List Occurrence → Prop
  | refused {e : Engine} (refused : method.isAbstract = true ∨ args.length ≠ method.argCount) :
    EntersMethod s call told n c method args e []
  | unprepared {e e' : Engine} {stop : Stop RunError} {account : List Occurrence}
    (concrete : method.isAbstract = false) (fits : args.length = method.argCount)
    (fails : Machine.prepare ⟨s, call⟩ c method e = .error stop e')
    (first : Passes s call told (fun call => Machine.prepare ⟨s, call⟩ c method) e account) :
    EntersMethod s call told n c method args e account
  | overflows {e e' : Engine} {account : List Occurrence} (concrete : method.isAbstract = false)
    (fits : args.length = method.argCount)
    (made : Machine.prepare ⟨s, call⟩ c method e = .ok () e')
    (first : Passes s call told (fun call => Machine.prepare ⟨s, call⟩ c method) e account)
    (full : (e'.scopeAt s).options.maxCallDepth ≤ e'.depth) :
    EntersMethod s call told n c method args e account
  | runs {e e' : Engine} {account rest : List Occurrence} (concrete : method.isAbstract = false)
    (fits : args.length = method.argCount)
    (made : Machine.prepare ⟨s, call⟩ c method e = .ok () e')
    (first : Passes s call told (fun call => Machine.prepare ⟨s, call⟩ c method) e account)
    (room : e'.depth < (e'.scopeAt s).options.maxCallDepth)
    (body : RunsFrame s call told n (.enter c method args) { e' with depth := e'.depth + 1 } rest) :
    EntersMethod s call told n c method args e (account ++ rest)

/-- The accounts of a call in a scope with so much fuel. -/
def Account (s : ScopeRef) : Nat → Accounts
  | 0 => fun _ _ _ _ account => account = []
  | n + 1 => fun c method args => EntersMethod s (invoke s n) (Account s n) n c method args

namespace Exec

variable {ε α β : Type} {x : Exec ε α} {e e' : Engine}

theorem final_of_ok {a : α} (run : x e = .ok a e') : x.final e = e' := by
  unfold final
  rw [run]

theorem final_of_error {stop : Stop ε} (run : x e = .error stop e') : x.final e = e' := by
  unfold final
  rw [run]

theorem final_discard (x : Exec ε α) (e : Engine) : (discard x).final e = x.final e := by
  have discarded : discard x e = _ := map_apply _ _ _
  unfold final
  rw [discarded]
  cases x e <;> rfl

theorem final_bind_of_ok {f : α → Exec ε β} {a : α} (run : x e = .ok a e') :
    (x >>= f).final e = (f a).final e' := by
  unfold final
  rw [bind_apply, run]

theorem final_bind_of_error {f : α → Exec ε β} {stop : Stop ε} (run : x e = .error stop e') :
    (x >>= f).final e = e' :=
  final_of_error (by rw [bind_apply, run])

end Exec

/-- Running a static initializer is calling it, if the class declares one. -/
theorem Accounts.leads_ofStaticInit {leads : Engine → List Occurrence → Engine → Prop}
    {m : Machine} {told : Accounts} (still : ∀ e, leads e [] e)
    (calls : ∀ c method args e account, told c method args e account →
      leads e account ((m.call c method args).final e))
    {c : ClassRef} {e : Engine} {account : List Occurrence}
    (init : told.ofStaticInit c e account) : leads e account ((m.runStaticInit c).final e) := by
  unfold Accounts.ofStaticInit at init
  unfold Machine.runStaticInit
  rw [final_bind_of_ok (ask_apply _ e)]
  cases declared : (e.classAt c).method? .staticInit with
  | none =>
    rw [declared] at init
    subst init
    exact still e
  | some method =>
    rw [declared] at init
    have same := final_discard (m.call c method []) e
    rw [same]
    exact calls _ _ _ _ _ init

/-- A relation between the engine before a run, an account of the run and the engine behind it.
It follows the ways in which runs are put together, so that every account stands in it. -/
structure AccountLaw (s : ScopeRef) where
  leads : Engine → List Occurrence → Engine → Prop
  /-- What holds while a frame runs. -/
  runs : Engine → Prop
  still : ∀ {e e' : Engine}, e'.outline = e.outline → leads e [] e'
  append : ∀ {e e' e'' : Engine} {account rest : List Occurrence}, leads e account e' →
    leads e' rest e'' → leads e (account ++ rest) e''
  goesOn : ∀ {e e' : Engine} {account : List Occurrence}, leads e account e' → runs e → runs e'
  executes : ∀ {f : Frame} {e e' : Engine} {account : List Occurrence}, runs e →
    leads e account e' → leads e (.executes ⟨f, e⟩ :: account) e'
  forwards : ∀ {e e' : Engine} {account : List Occurrence},
    leads { e with depth := e.depth - 1 } account e' → leads e account { e' with depth := e.depth }
  enters : ∀ {e : Engine}, e.depth < (e.scopeAt s).options.maxCallDepth →
    runs { e with depth := e.depth + 1 }
  counts : ∀ {e e' : Engine} {account : List Occurrence},
    leads { e with depth := e.depth + 1 } account e' →
    leads e account { e' with depth := e'.depth - 1 }
  initializes : ∀ {call : Calling} {told : Accounts},
    (∀ c method args e account, told c method args e account →
      leads e account ((call c method args).final e)) →
    ∀ {c : ClassRef} {e : Engine} {account : List Occurrence},
      Initializes ⟨s, call⟩ told (c :: (e.classAt c).superclasses) e account →
      leads e account ((Machine.initializeAll ⟨s, call⟩ (c :: (e.classAt c).superclasses)).final e)

namespace AccountLaw

variable {s : ScopeRef} {call : Calling} {told : Accounts} (law : AccountLaw s)

/-- Calls stand in the relation. -/
def Calls (call : Calling) (told : Accounts) : Prop :=
  ∀ c method args e account, told c method args e account →
    law.leads e account ((call c method args).final e)

variable {law} (calls : law.Calls call told)
include calls

theorem leads_of_passes {α : Type} {x : Routine α} {e : Engine} {account : List Occurrence}
    (passes : Passes s call told x e account) : law.leads e account ((x call).final e) := by
  induction passes with
  | quiet deaf still => exact law.still still
  | calls tells => exact calls _ _ _ _ _ tells
  | initializes init => exact law.initializes calls init
  | goesOn gives first next ih_first ih_next =>
    rw [final_bind_of_ok gives]
    rw [final_of_ok gives] at ih_first
    exact law.append ih_first ih_next
  | stops fails first ih =>
    rw [final_bind_of_error fails]
    rw [final_of_error fails] at ih
    exact ih
  | @forwards x e account inner ih =>
    have restored : (Machine.forwarding (x call)).final e =
        { (x call).final { e with depth := e.depth - 1 } with depth := e.depth } := by
      unfold final
      rw [Machine.forwarding_eq, Machine.atDepth_apply]
      cases x call { e with depth := e.depth - 1 } <;> rfl
    rw [restored]
    exact law.forwards ih

theorem leads_of_runsFrame {n : Nat} {f : Frame} {e : Engine} {account : List Occurrence}
    (running : law.runs e) (runs : RunsFrame s call told n f e account) :
    law.leads e account ((Machine.run ⟨s, call⟩ n f).final e) := by
  induction runs with
  | exhausted => exact law.still rfl
  | @ranOut n f e nothing =>
    have same : (Machine.run ⟨s, call⟩ (n + 1) f).final e = e := by
      unfold final Machine.run
      rw [nothing]
      dsimp only
      cases f.method.returnsValue <;> rfl
    rw [same]
    exact law.still rfl
  | @ends n f e instr account here ends inside =>
    have same : (Machine.run ⟨s, call⟩ (n + 1) f).final e =
        (Machine.execute ⟨s, call⟩ instr f).final e := by
      unfold final
      rw [Machine.run_succ here]
      cases does : Machine.execute ⟨s, call⟩ instr f e with
      | error stop e' => rfl
      | ok next e' =>
        obtain ⟨flow, f'⟩ := next
        cases flow with
        | ret value => rfl
        | next | skip | jump target => cases ends _ _ _ does
    rw [same]
    exact law.executes running (leads_of_passes calls inside)
  | @goesOn n f f' next e e' instr flow account rest here does resumes inside onward ih =>
    have same : (Machine.run ⟨s, call⟩ (n + 1) f).final e =
        (Machine.run ⟨s, call⟩ n next).final e' := by
      unfold final
      rw [Machine.run_succ here, does]
      cases flow with
      | ret value => cases resumes
      | next | skip | jump target =>
        cases resumes
        rfl
    have first := leads_of_passes calls inside
    rw [final_of_ok does] at first
    rw [same]
    exact law.executes running (law.append first (ih (law.goesOn first running)))

theorem leads_of_entersMethod {n : Nat} {c : ClassRef} {method : Method} {args : List Value}
    {e : Engine} {account : List Occurrence}
    (enters : EntersMethod s call told n c method args e account) :
    law.leads e account ((Machine.enter ⟨s, call⟩ n c method args).final e) := by
  cases enters with
  | refused refused =>
    have same : (Machine.enter ⟨s, call⟩ n c method args).final e = e := by
      by_cases abstract : method.isAbstract = true
      · rw [Machine.enter_abstract n c args abstract]
        rfl
      · rw [Machine.enter_misfit n c (by simpa using abstract) (refused.resolve_left abstract)]
        rfl
    rw [same]
    exact law.still rfl
  | unprepared concrete fits fails first =>
    have led := leads_of_passes calls first
    rw [final_of_error fails] at led
    rw [Machine.enter_eq n c concrete fits, Machine.enterBody_eq, final_bind_of_error fails]
    exact led
  | @overflows e' account concrete fits made first full =>
    have led := leads_of_passes calls first
    rw [final_of_ok made] at led
    have same : (Machine.runDeeper ⟨s, call⟩ n (.enter c method args)).final e' = e' := by
      unfold final Machine.runDeeper
      rw [if_pos full]
    rw [Machine.enter_eq n c concrete fits, Machine.enterBody_eq, final_bind_of_ok made, same]
    exact led
  | @runs e' account rest concrete fits made first room body =>
    have led := leads_of_passes calls first
    rw [final_of_ok made] at led
    have same : (Machine.runDeeper ⟨s, call⟩ n (.enter c method args)).final e' =
        let last := (Machine.run ⟨s, call⟩ n (.enter c method args)).final
          { e' with depth := e'.depth + 1 }
        { last with depth := last.depth - 1 } := by
      have open_ : ¬ (e'.scopeAt s).options.maxCallDepth ≤ e'.depth := Nat.not_le_of_lt room
      unfold final Machine.runDeeper
      rw [if_neg open_, Machine.counted_apply]
      cases Machine.run ⟨s, call⟩ n (.enter c method args) { e' with depth := e'.depth + 1 } <;> rfl
    rw [Machine.enter_eq n c concrete fits, Machine.enterBody_eq, final_bind_of_ok made, same]
    exact law.append led (law.counts (leads_of_runsFrame calls (law.enters room) body))

omit calls in
/-- Every account of a call stands in the relation. -/
theorem leads_of_account (law : AccountLaw s) (n : Nat) : law.Calls (invoke s n) (Account s n) := by
  induction n with
  | zero =>
    rintro c method args e account rfl
    exact law.still rfl
  | succ n ih => exact fun c method args e account enters => leads_of_entersMethod ih enters

end AccountLaw

end LiveUpdate
