import LiveUpdate.Proofs.DerivedBodies
import LiveUpdate.Proofs.Frames
import LiveUpdate.Proofs.Reachable
import Mathlib.Logic.Relation

/-!
# Runs that stay inside their code

A run is followed from instruction to instruction.  In code that control stays inside, every
instruction leads to another one of the code or ends the call: the last one does not fall
through, jumps go to instructions, and a guard skips an instruction that does not end the
body, so that something stands behind that one.  By induction every moment of a run is at an
instruction of the code, and what the instruction names of its frame is there.
-/

set_option autoImplicit false

namespace LiveUpdate

open Relation (ReflTransGen)

/-- A moment of a run: the frame, and the engine around it. -/
structure Moment where
  frame : Frame
  engine : Engine

/-- The frame in which control goes on; none when the call is over. -/
def Flow.resume? : Flow → Frame → Option Frame
  | .next, f => some (f.goTo (f.pc + 1))
  | .skip, f => some (f.goTo (f.pc + 2))
  | .jump target, f => some (f.goTo target)
  | .ret _, _ => none

/-- What the flow after an instruction says of it, and of the instruction behind it. -/
def Flow.Follows (instr : Instr) (behind? : Option Instr) : Flow → Prop
  | .next => instr.isTerminator = false
  | .skip => ∃ behind, behind? = some behind ∧ behind.isTerminator = false
  | .jump place => ∃ target, instr.jumpTarget? = some target ∧ place = target.toNat
  | .ret _ => instr = .ret ∨ instr = .retValue ∨ ∃ id slot, instr = .entryCheck id slot

namespace Machine

variable {m : Machine}

/-- One instruction takes a run from one moment to the next. -/
inductive Goes (m : Machine) : Moment → Moment → Prop
  | on {f f' next : Frame} {e e' : Engine} {instr : Instr} {flow : Flow}
    (here : f.instr? = some instr) (does : m.execute instr f e = .ok (flow, f') e')
    (resumes : flow.resume? f' = some next) : Goes m ⟨f, e⟩ ⟨next, e'⟩

/-- The moments of the run that begins with one. -/
def Visits (m : Machine) : Moment → Moment → Prop := ReflTransGen m.Goes

/-- How a run is over at a moment. -/
inductive Ends (m : Machine) : Moment → EStateM.Result (Stop RunError) Engine Value → Prop
  | returned {f f' : Frame} {e e' : Engine} {instr : Instr} {value : Value}
    (here : f.instr? = some instr) (does : m.execute instr f e = .ok (.ret value, f') e') :
    Ends m ⟨f, e⟩ (.ok value e')
  | failed {f : Frame} {e e' : Engine} {instr : Instr} {stop : Stop RunError}
    (here : f.instr? = some instr) (does : m.execute instr f e = .error stop e') :
    Ends m ⟨f, e⟩ (.error stop e')
  | ranOut {f : Frame} {e : Engine} (nothing : f.instr? = none)
    (outcome : EStateM.Result (Stop RunError) Engine Value) : Ends m ⟨f, e⟩ outcome

/-- A run ends at one of its moments, unless its steps are used up. -/
theorem ends_of_run {steps : Nat} {f : Frame} {e : Engine}
    {outcome : EStateM.Result (Stop RunError) Engine Value} (runs : m.run steps f e = outcome) :
    (∃ e', outcome = .error .outOfFuel e') ∨
      ∃ last, m.Visits ⟨f, e⟩ last ∧ m.Ends last outcome := by
  induction steps generalizing f e with
  | zero =>
    subst runs
    exact .inl ⟨e, rfl⟩
  | succ n ih =>
    cases here : f.instr? with
    | none => exact .inr ⟨⟨f, e⟩, .refl, .ranOut here _⟩
    | some instr =>
      rw [run_succ here] at runs
      cases does : m.execute instr f e with
      | error stop e' =>
        rw [does] at runs
        subst runs
        exact .inr ⟨⟨f, e⟩, .refl, .failed here does⟩
      | ok next e' =>
        obtain ⟨flow, f'⟩ := next
        rw [does] at runs
        have onward {g : Frame} (resumes : flow.resume? f' = some g)
            (runs : m.run n g e' = outcome) : (∃ e', outcome = .error .outOfFuel e') ∨
              ∃ last, m.Visits ⟨f, e⟩ last ∧ m.Ends last outcome := by
          refine (ih runs).imp_right fun ⟨last, visits, ends⟩ => ?_
          exact ⟨last, visits.head (.on here does resumes), ends⟩
        cases flow with
        | ret value =>
          subst runs
          exact .inr ⟨⟨f, e⟩, .refl, .returned here does⟩
        | next | skip | jump => exact onward rfl runs

end Machine

namespace Step

variable {α β : Type} {P : β → Prop}

/-- A computation inside a frame whose answers have a property. -/
def Gives (P : α → Prop) (x : Step α) : Prop :=
  ∀ (f : Frame) (e : Engine) (a : α) (f' : Frame) (e' : Engine), x f e = .ok (a, f') e' → P a

theorem gives_pure {b : β} (h : P b) : Gives P (pure b : Step β) := by
  intro f e a f' e' run
  cases run
  exact h

theorem gives_bind {x : Step α} {g : α → Step β} (hg : ∀ a, Gives P (g a)) : Gives P (x >>= g) := by
  intro f e b f' e' run
  rw [bind_apply] at run
  split at run
  · exact hg _ _ _ _ _ _ run
  · cases run

/-- What goes on behind a guard goes on with the instruction that the guard stands in front
of. -/
theorem of_guarded_bind {g : Instr → Step β} {f f' : Frame} {e e' : Engine} {b : β}
    (run : (guarded >>= g) f e = .ok (b, f') e') :
    ∃ behind, f.method.code[f.pc + 1]? = some behind ∧ g behind f e = .ok (b, f') e' := by
  cases next : f.method.code[f.pc + 1]? with
  | some behind =>
    rw [guarded_bind next] at run
    exact ⟨behind, rfl, run⟩
  | none =>
    unfold guarded at run
    rw [bind_apply, get_bind, next] at run
    cases run

end Step

namespace Machine

variable {m : Machine} {f f' : Frame} {e e' : Engine} {instr : Instr} {flow : Flow}

open Step (gives_bind gives_pure of_guarded_bind)

theorem follows_checkInvoke {id : TypeId} (run : m.checkInvoke id f e = .ok (flow, f') e') :
    flow.Follows (.invokeCheck id) f.method.code[f.pc + 1]? := by
  obtain ⟨behind, next, run⟩ := of_guarded_bind run
  rw [next]
  cases behind with
  | invoke kind method =>
    refine gives_bind (fun _ => gives_bind fun route => ?_) f e flow f' e' run
    cases route with
    | native => exact gives_pure rfl
    | dynamic live =>
      exact gives_bind fun _ => gives_bind fun _ => gives_bind fun _ => gives_pure ⟨_, rfl, rfl⟩
  | _ => cases run

theorem follows_checkField {id : TypeId} (run : m.checkField f e = .ok (flow, f') e') :
    flow.Follows (.fieldCheck id) f.method.code[f.pc + 1]? := by
  obtain ⟨behind, next, run⟩ := of_guarded_bind run
  rw [next]
  cases behind with
  | access access field =>
    refine gives_bind (fun _ => gives_bind fun route => ?_) f e flow f' e' run
    cases route with
    | native => exact gives_pure rfl
    | managed live => exact gives_bind fun _ => gives_pure ⟨_, rfl, rfl⟩
  | _ => cases run

theorem follows_checkEntry {id slot : UInt32}
    (run : m.checkEntry id slot.toNat f e = .ok (flow, f') e') :
    flow.Follows (.entryCheck id slot) f.method.code[f.pc + 1]? := by
  rw [checkEntry_apply] at run
  split at run
  · cases run
    rfl
  · split at run <;> cases run
    exact .inr (.inr ⟨id, slot, rfl⟩)

/-- Where control goes on after an instruction fits the instruction. -/
theorem follows_execute (run : m.execute instr f e = .ok (flow, f') e') :
    flow.Follows instr f.method.code[f.pc + 1]? := by
  cases instr with
  | jump target =>
    cases run
    exact ⟨target, rfl, rfl⟩
  | jumpIf cond target =>
    refine gives_bind (fun b => gives_pure ?_) f e flow f' e' run
    split
    · exact ⟨target, rfl, rfl⟩
    · rfl
  | ret =>
    cases run
    exact .inl rfl
  | retValue => exact gives_bind (fun _ => gives_pure (.inr (.inl rfl))) f e flow f' e' run
  | entryCheck id slot => exact follows_checkEntry run
  | invokeCheck id => exact follows_checkInvoke run
  | fieldCheck id => exact follows_checkField run
  | _ =>
    refine gives_bind (fun _ => gives_pure ?_) f e flow f' e' run
    rfl

end Machine

/-- A frame of a method at an instruction, with at least so many local slots. -/
structure Frame.Inside (method : Method) (locals : Nat) (f : Frame) : Prop where
  running : f.method = method
  pc_lt : f.pc < method.code.length
  locals_le : locals ≤ f.locals.length

section Inside

variable {method : Method} {locals : Nat} {leaves : Bool} {f f' next : Frame} {instr : Instr}

/-- Only behind the last instruction is there nothing, and that one ends the body. -/
theorem StaysInside.succ_lt (inside : StaysInside locals leaves method.code) {place : Nat}
    (here : method.code[place]? = some instr) (falls : instr.isTerminator = false) :
    place + 1 < method.code.length := by
  obtain ⟨lt, there⟩ := List.getElem?_eq_some_iff.1 here
  by_contra beyond
  have last : place = method.code.length - 1 := by omega
  have ends := inside.ends
  rw [List.getLast?_eq_getElem?, ← last, here] at ends
  have ends : instr.isTerminator = true := ends
  rw [falls] at ends
  cases ends

theorem Frame.Inside.instr?_eq (at_ : f.Inside method locals) :
    f.instr? = method.code[f.pc]? := by
  unfold Frame.instr?
  rw [at_.running]

theorem Frame.Inside.fits (at_ : f.Inside method locals)
    (inside : StaysInside locals leaves method.code) (here : f.instr? = some instr) :
    instr.FitsIn method.code.length locals leaves := by
  rw [at_.instr?_eq] at here
  exact inside.fits instr (List.mem_of_getElem? here)

/-- An instruction of code that control stays inside leads to an instruction of the code. -/
theorem Frame.Inside.step (at_ : f.Inside method locals)
    (inside : StaysInside locals leaves method.code) {m : Machine} {e e' : Engine} {flow : Flow}
    (here : f.instr? = some instr) (does : m.execute instr f e = .ok (flow, f') e')
    (resumes : flow.resume? f' = some next) : next.Inside method locals := by
  have follows := Machine.follows_execute does
  obtain ⟨sameMethod, samePc, sameLocals⟩ := m.stays_execute instr f e flow f' e' does
  have sameMethod : f'.method = method := sameMethod.trans at_.running
  have sameLocals : locals ≤ f'.locals.length := sameLocals ▸ at_.locals_le
  have fits := at_.fits inside here
  rw [at_.instr?_eq] at here
  rw [at_.running] at follows
  cases flow with
  | next =>
    cases resumes
    refine ⟨sameMethod, ?_, sameLocals⟩
    show f'.pc + 1 < _
    rw [samePc]
    exact inside.succ_lt here follows
  | skip =>
    cases resumes
    obtain ⟨behind, there, falls⟩ := follows
    refine ⟨sameMethod, ?_, sameLocals⟩
    show f'.pc + 2 < _
    rw [samePc]
    exact inside.succ_lt there falls
  | jump place =>
    cases resumes
    obtain ⟨target, jumps, rfl⟩ := follows
    exact ⟨sameMethod, fits.target_lt jumps, sameLocals⟩
  | ret value => cases resumes

/-- Every moment of a run is at an instruction of the code. -/
theorem Frame.Inside.visits (at_ : f.Inside method locals)
    (inside : StaysInside locals leaves method.code) {m : Machine} {e : Engine} {now : Moment}
    (visits : m.Visits ⟨f, e⟩ now) : now.frame.Inside method locals := by
  -- The induction is on the steps of the run, and one step keeps the invariant.
  induction visits with
  | refl => exact at_
  | tail _ goes ih =>
    cases goes with
    | on here does resumes => exact ih.step inside here does resumes

/-- A frame that a method is entered with has all its local slots. -/
theorem Frame.inside_enter (inside : StaysInside locals leaves method.code) {args : List Value}
    (enough : locals ≤ max method.maxLocals.toNat args.length) (c : ClassRef) :
    (Frame.enter c method args).Inside method locals := by
  refine ⟨rfl, ?_, ?_⟩
  · have ends := inside.ends
    show 0 < method.code.length
    cases code : method.code with
    | nil =>
      rw [code] at ends
      cases ends
    | cons => exact Nat.zero_lt_succ _
  · show locals ≤ (args ++ List.replicate (method.maxLocals.toNat - args.length) Value.null).length
    rw [List.length_append, List.length_replicate]
    omega

end Inside

/-- What holds of the frame at every moment of a run that stays inside its code: there is an
instruction to fetch, a guard finds the instruction that it stands in front of, and the local
slots that are named are there. -/
structure Moment.OnRails (m : Machine) (method : Method) (now : Moment) : Prop where
  running : now.frame.method = method
  fetches : now.frame.pc < method.code.length
  guards : ∀ id, now.frame.instr? = some (.invokeCheck id) ∨
    now.frame.instr? = some (.fieldCheck id) →
      ∃ behind, Step.guarded now.frame now.engine = .ok (behind, now.frame) now.engine
  locals : ∀ slot instr, now.frame.instr? = some instr → instr = .load slot ∨ instr = .store slot →
    slot.toNat < now.frame.locals.length ∧
      ∀ k e', m.execute instr now.frame now.engine ≠ .error (.error (.invalidLocal k)) e'

namespace Machine

variable {m : Machine} {f : Frame} {e : Engine} {slot : UInt16}

/-- A load of a slot that is there pushes its value. -/
theorem execute_load_of_lt (lt : slot.toNat < f.locals.length) :
    m.execute (.load slot) f e = .ok (.next, f.push f.locals[slot.toNat]) e := by
  have there : f.load slot.toNat = .ok f.locals[slot.toNat] := by
    unfold Frame.load
    rw [List.getElem?_eq_getElem lt]
  have found : (do return (← f.load slot.toNat, f) : Except RunError (Value × Frame)) =
      .ok (f.locals[slot.toNat], f) := by
    rw [there]
    rfl
  show ((Step.onFrame _ >>= fun value => Step.push value) >>= fun _ => pure Flow.next) f e = _
  rw [Step.bind_apply, Step.onFrame_bind, found]
  rfl

/-- A store to a slot that is there fails only for want of a value. -/
theorem execute_store_of_lt (lt : slot.toNat < f.locals.length) :
    m.execute (.store slot) f e = match f.stack with
      | value :: rest =>
        .ok (.next, { f with stack := rest, locals := f.locals.set slot.toNat value }) e
      | [] => .error (.error f.underflow) e := by
  show ((Step.onFrame Frame.pop >>= fun value =>
    Step.onFrame fun f => return ((), ← f.store slot.toNat value)) >>= fun _ =>
      pure Flow.next) f e = _
  rw [Step.bind_apply, Step.onFrame_bind]
  unfold Frame.pop
  cases f.stack with
  | nil => rfl
  | cons value rest =>
    have stored : ({ f with stack := rest } : Frame).store slot.toNat value =
        .ok { f with stack := rest, locals := f.locals.set slot.toNat value } := if_pos lt
    dsimp only
    rw [Step.onFrame_apply, stored]
    rfl

end Machine

/-- Code that control stays inside keeps its run on the rails. -/
theorem Frame.Inside.onRails {method : Method} {locals : Nat} {leaves : Bool} {now : Moment}
    (at_ : now.frame.Inside method locals) (inside : StaysInside locals leaves method.code)
    (m : Machine) : now.OnRails m method := by
  refine ⟨at_.running, at_.pc_lt, fun id here => ?_, fun slot instr here names => ?_⟩
  · have falls : ∃ instr, now.frame.instr? = some instr ∧ instr.isTerminator = false := by
      rcases here with here | here <;> exact ⟨_, here, rfl⟩
    obtain ⟨instr, here, falls⟩ := falls
    rw [at_.instr?_eq] at here
    have lt := inside.succ_lt here falls
    have next : now.frame.method.code[now.frame.pc + 1]? = some method.code[now.frame.pc + 1] := by
      rw [at_.running]
      exact List.getElem?_eq_getElem lt
    have found := Step.guarded_bind (e := now.engine) next (pure : Instr → Step Instr)
    rw [bind_pure] at found
    exact ⟨_, found⟩
  · have lt : slot.toNat < now.frame.locals.length := by
      have fits := at_.fits inside here
      rcases names with rfl | rfl <;> exact Nat.lt_of_lt_of_le fits at_.locals_le
    refine ⟨lt, fun k e' fails => ?_⟩
    rcases names with rfl | rfl
    · rw [Machine.execute_load_of_lt lt] at fails
      cases fails
    · rw [Machine.execute_store_of_lt lt] at fails
      split at fails <;> cases fails

/-- Verified code stays on its rails.  Take a concrete method that the engine makes of a verified
unit with bodies of fewer than `2 ^ 31` instructions, and a call with as many arguments as it
takes, on any machine and in any state.  At every moment of the run there is an instruction to
fetch, with its guarded instruction behind it if it is a guard, and every load and store finds its
local slot.  A run that gives a value ends at a return that agrees with the signature, or at an
entry check that hands the call over; one that fails does so in an instruction, unless its steps
are used up. -/
theorem verified_code_stays_on_rails {u : TypeUnit} (verified : u.verify = .ok ())
    (short : ∀ m ∈ u.methods, m.code.length < UInt32.size / 2) {m : MethodDef}
    (derived : u.Derives m) (concrete : m.modifiers.isAbstract = false) (name : String)
    (access : Table MemberKey Modifiers) (c : ClassRef) {args : List Value}
    (fits : args.length = (Class.bind name access m).argCount) (machine : Machine) (e : Engine) :
    let method := Class.bind name access m
    let start : Moment := ⟨.enter c method args, e⟩
    (∀ now, machine.Visits start now → now.OnRails machine method) ∧
    (∀ steps value e', machine.run steps start.frame e = .ok value e' →
      ∃ last instr f', machine.Visits start last ∧ last.frame.instr? = some instr ∧
        machine.execute instr last.frame last.engine = .ok (.ret value, f') e' ∧
        (instr = (if method.returnsValue then .retValue else .ret) ∨
          ∃ id slot, instr = .entryCheck id slot)) ∧
    ∀ steps stop e', machine.run steps start.frame e = .error stop e' →
      stop = .outOfFuel ∨ ∃ last instr, machine.Visits start last ∧
        last.frame.instr? = some instr ∧
        machine.execute instr last.frame last.engine = .error stop e' := by
  intro method start
  have inside : StaysInside m.slotCount method.returnsValue method.code :=
    derived.staysInside verified short concrete
  have enough : m.slotCount ≤ max method.maxLocals.toNat args.length := by
    rw [fits]
    exact Nat.le_refl _
  have entered : start.frame.Inside method m.slotCount := Frame.inside_enter inside enough c
  have inCode {now : Moment} (visits : machine.Visits start now) :
      now.frame.Inside method m.slotCount := entered.visits inside visits
  have fetches {now : Moment} (visits : machine.Visits start now) :
      now.frame.instr? ≠ none := by
    rw [(inCode visits).instr?_eq, List.getElem?_eq_getElem (inCode visits).pc_lt]
    exact Option.some_ne_none _
  refine ⟨fun now visits => (inCode visits).onRails inside machine, fun steps value e' runs => ?_,
    fun steps stop e' runs => ?_⟩
  · rcases Machine.ends_of_run runs with ⟨e₁, out⟩ | ⟨last, visits, ends⟩
    · cases out
    · cases ends with
      | ranOut nothing => exact absurd nothing (fetches visits)
      | returned here does =>
        refine ⟨_, _, _, visits, here, does, ?_⟩
        have agrees := (inCode visits).fits inside here
        rcases Machine.follows_execute does with rfl | rfl | entry
        · have agrees : method.returnsValue = false := agrees
          exact .inl (by rw [agrees]; rfl)
        · have agrees : method.returnsValue = true := agrees
          exact .inl (by rw [agrees]; rfl)
        · exact .inr entry
  · rcases Machine.ends_of_run runs with ⟨e₁, out⟩ | ⟨last, visits, ends⟩
    · cases out
      exact .inl rfl
    · cases ends with
      | ranOut nothing => exact absurd nothing (fetches visits)
      | failed here does => exact .inr ⟨_, _, visits, here, does⟩

namespace Redirected

/-- A type with a method that leaves nothing but a number in a static field. -/
def unit (n : Int64) : TypeUnit :=
  ((TypeUnit.named "app.T").addField
    ⟨"x", .int, .publicBit ||| .staticBit, none, []⟩).addMethod
      (.make "m" .void (.publicBit ||| .staticBit)
        [.constInt n, .access .putStatic ⟨"app.T", "x", .int⟩, .ret])

def options : Options := { included := ["app.*"] }

def defined : Engine := (Engine.opened options).defining 4 (unit 1)

/-- The scope after the type was loaded again with another number. -/
def engine : Engine := defined.reloading 4 0 "later" (unit 2)

/-- The method as the host defines it. -/
def hosted : MethodDef :=
  { MethodDef.make "m" .void (.publicBit ||| .staticBit) [] with
    code := [.entryCheck 0 0, .constInt 1, .fieldCheck 0,
      .access .putStatic ⟨"app.T", "x", .int⟩, .ret] }

def method : Method := Class.bind "app.T" [] hosted

/-- Whether an instruction ends a call without a value. -/
def endsCall (outcome : EStateM.Result (Stop RunError) Engine (Flow × Frame)) : Bool :=
  match outcome with
  | .ok (flow, _) _ => flow = .ret .null
  | .error .. => false

set_option maxRecDepth 100000 in
theorem facts : 0 < defined.types.size ∧
    (engine.classAt 0).method? method.key = some method ∧
    hosted ∈
      (HostForm.ofUnit ((unit 1).withGuards options (engine.namesOf 0)) 0 none).unit.methods ∧
    endsCall ((Machine.of 0 4).execute (.entryCheck 0 0) (.enter 0 method []) engine) = true := by
  decide +kernel

theorem reachable : engine.Reachable :=
  ((Engine.reachable_opened _).defining 4 _ (by decide)).reloading 4 0 _ _ facts.1

theorem derived : (unit 1).Derives hosted := .guardedHosted _ _ _ _ facts.2.2.1

theorem of_endsCall {outcome : EStateM.Result (Stop RunError) Engine (Flow × Frame)}
    (ends : endsCall outcome = true) : ∃ f e, outcome = .ok (.ret .null, f) e := by
  unfold endsCall at ends
  split at ends
  next flow f e =>
    obtain rfl : flow = .ret .null := of_decide_eq_true ends
    exact ⟨f, e, rfl⟩
  · cases ends

theorem short : ∀ m ∈ (unit 1).methods, m.code.length < UInt32.size / 2 := by decide

end Redirected

open Redirected in
/-- The host's method of a redirected type stays on its rails, and its run ends at the entry
check. -/
theorem verified_code_stays_on_rails_redirected :
    (unit 1).verify = .ok () ∧ (unit 1).Derives hosted ∧ engine.Reachable ∧
    (⟨.enter 0 method [], engine⟩ : Moment).OnRails (Machine.of 0 4) method ∧
    ∃ (e' : Engine) (last : Moment) (instr : Instr) (f' : Frame),
      (Machine.of 0 4).run 1 (.enter 0 method []) engine = .ok .null e' ∧
      last.frame.instr? = some instr ∧
      (Machine.of 0 4).execute instr last.frame last.engine = .ok (.ret .null, f') e' ∧
      (instr = .ret ∨ ∃ id slot, instr = .entryCheck id slot) := by
  have verified : (unit 1).verify = .ok () := by rfl
  obtain ⟨moments, returns, -⟩ := verified_code_stays_on_rails verified short derived (by decide)
    "app.T" [] 0 (show ([] : List Value).length = _ from rfl) (Machine.of 0 4) engine
  obtain ⟨f', e', does⟩ := of_endsCall facts.2.2.2
  have runs : (Machine.of 0 4).run 1 (.enter 0 method []) engine = .ok .null e' := by
    rw [Machine.run_succ rfl, does]
  obtain ⟨last, instr, f', -, here, ends, kind⟩ := returns 1 _ _ runs
  exact ⟨verified, derived, reachable, moments _ .refl, e', last, instr, f', runs, here, ends, kind⟩

open Redirected in
/-- A method that leaves nothing may end elsewhere than at a return: at the check in front of its
body, when the type was loaded again. -/
theorem void_method_ends_at_check :
    ¬ ∀ (u : TypeUnit) (m : MethodDef) (name : String) (c : ClassRef) (e e' : Engine)
      (fuel steps : Nat) (value : Value), u.verify = .ok () →
      (∀ m ∈ u.methods, m.code.length < UInt32.size / 2) → u.Derives m →
      m.modifiers.isAbstract = false → m.sig.returnsValue = false →
      (Class.bind name [] m).argCount = 0 → e.Reachable →
      (Machine.of 0 fuel).run steps (.enter c (Class.bind name [] m) []) e = .ok value e' →
      ∃ last f', (Machine.of 0 fuel).Visits ⟨.enter c (Class.bind name [] m) [], e⟩ last ∧
        last.frame.instr? = some .ret ∧
        (Machine.of 0 fuel).execute .ret last.frame last.engine = .ok (.ret value, f') e' := by
  intro onlyReturns
  obtain ⟨f', e', does⟩ := of_endsCall facts.2.2.2
  have runs : (Machine.of 0 4).run 1 (.enter 0 method []) engine = .ok .null e' := by
    rw [Machine.run_succ rfl, does]
  obtain ⟨last, f'', visits, here, -⟩ := onlyReturns (unit 1) hosted "app.T" 0 engine e' 4 1 .null
    (by rfl) short derived (by decide) (by decide) rfl reachable runs
  -- The first instruction ends the run, so that its first moment is the only one.
  rcases visits.cases_head with same | ⟨next, goes, -⟩
  · subst same
    cases here
  · cases goes with
    | on first goes resumes =>
      cases first
      rw [show Frame.enter 0 (Class.bind "app.T" [] hosted) [] = .enter 0 method [] from rfl, does]
        at goes
      cases goes
      cases resumes

end LiveUpdate
