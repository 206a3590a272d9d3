import LiveUpdate.Proofs.Transfer

/-!
# A call with more fuel

The checks that the engine puts into code look at the code around them, and yet they complete
themselves where they are, as all other instructions do.  So a run with more steps completes
one with fewer, and by induction on the fuel a call with more of it completes one with less.
-/

set_option autoImplicit false

namespace LiveUpdate

open Exec

namespace Machine

variable {m : Machine} {call : ClassRef → Method → List Value → Run Value}

/-- An instruction that the engine did not write does the same in other code. -/
theorem transfers_execute (h : m.CompletedBy call) {instr : Instr}
    (plain : instr.isEngineOnly = false) :
    Step.Transfers ((m.withCall call).execute instr) (m.execute instr) := by
  cases instr with
  | entryCheck | invokeCheck | fieldCheck | liveAccess | liveSpecial | liveSuper | liveInit =>
    cases plain
  | jump target => exact Step.transfers_pure _
  | jumpIf cond target =>
    exact Step.transfers_bind Step.transfers_popBool fun _ => Step.transfers_pure _
  | ret => exact Step.transfers_pure _
  | retValue => exact Step.transfers_bind Step.transfers_pop fun _ => Step.transfers_pure _
  | _ =>
    exact Step.transfers_bind (transfers_executePlain h _) fun _ => Step.transfers_pure _

theorem completes_atDepth {x y : Run Value} (hx : Completes y x) (g : Nat → Nat) :
    Completes (atDepth g y) (atDepth g x) :=
  completes_bind (completes_refl _) fun _ => completes_bind (completes_refl _) fun _ =>
    completes_finally_modify hx _

theorem completes_counted {x y : Run Value} (hx : Completes y x) :
    Completes (counted y) (counted x) :=
  completes_bind (completes_refl _) fun _ => completes_finally_modify hx _

theorem completes_checkInvoke (h : m.CompletedBy call) (id : TypeId) :
    Step.Completes ((m.withCall call).checkInvoke id) (m.checkInvoke id) := by
  refine Step.completes_bind (Step.completes_refl _) fun instr => ?_
  cases instr with
  | invoke kind method =>
    refine Step.completes_bind (Step.completes_refl _) fun frame =>
      Step.completes_bind (Step.completes_lift (completes_refl _)) fun route => ?_
    cases route with
    | native => exact Step.completes_refl _
    | dynamic live =>
      exact Step.completes_bind (Step.completes_refl _) fun args =>
        Step.completes_bind (Step.completes_lift (completes_callDynamic h _ kind method live args))
          fun _ => Step.completes_refl _
  | _ => exact Step.completes_refl _

theorem completes_checkField (h : m.CompletedBy call) :
    Step.Completes (m.withCall call).checkField m.checkField := by
  refine Step.completes_bind (Step.completes_refl _) fun instr => ?_
  cases instr with
  | access access f =>
    refine Step.completes_bind (Step.completes_refl _) fun frame =>
      Step.completes_bind (Step.completes_lift (completes_refl _)) fun route => ?_
    cases route with
    | native => exact Step.completes_refl _
    | managed live =>
      -- the access does the same in any place, so it completes itself where it is
      have self := transfers_accessLive (m := m) (fun _ _ _ => completes_refl _) access f live
      exact Step.completes_bind ((transfers_accessLive h access f live).completes self)
        fun _ => Step.completes_refl _
  | _ => exact Step.completes_refl _

theorem completes_checkEntry (h : m.CompletedBy call) (id : TypeId) (slot : Nat) :
    Step.Completes ((m.withCall call).checkEntry id slot) (m.checkEntry id slot) := by
  refine Step.completes_bind (Step.completes_refl _) fun f =>
    Step.completes_bind (Step.completes_refl _) fun t => ?_
  cases t with
  | none => exact Step.completes_refl _
  | some t =>
    refine Step.completes_bind (Step.completes_refl _) fun type => ?_
    cases type.published with
    | none => exact Step.completes_refl _
    | some version =>
      dsimp only
      cases version.dispatch.entry? slot with
      | none => exact Step.completes_refl _
      | some entry =>
        cases entry with
        | host => exact Step.completes_refl _
        | abstract => exact Step.completes_refl _
        | executor method =>
          cases version.executor? with
          | none => exact Step.completes_refl _
          | some executor =>
            have entered : Step.Completes (do
                return .ret (← forwarding (call executor method f.arguments)) : Step Flow) (do
                return .ret (← forwarding (m.call executor method f.arguments))) :=
              Step.completes_bind (Step.completes_lift (completes_atDepth (h executor method _) _))
                fun _ => Step.completes_refl _
            dsimp only
            split
            · exact Step.completes_bind (Step.completes_refl _) fun _ => entered
            · exact entered
        | deleted =>
          have entered : Step.Completes (do
              return .ret (← forwarding
                ((m.withCall call).callInherited t f.method.key f.arguments)) : Step Flow) (do
              return .ret (← forwarding (m.callInherited t f.method.key f.arguments))) :=
            Step.completes_bind
              (Step.completes_lift (completes_atDepth (completes_callInherited h t _ _) _))
              fun _ => Step.completes_refl _
          dsimp only
          split
          · exact Step.completes_bind (Step.completes_refl _) fun _ => entered
          · exact entered

theorem completes_execute (h : m.CompletedBy call) (instr : Instr) :
    Step.Completes ((m.withCall call).execute instr) (m.execute instr) := by
  have executes : Step.Completes ((m.withCall call).executePlain instr) (m.executePlain instr) :=
    (transfers_executePlain h instr).completes
      (transfers_executePlain (m := m) (fun _ _ _ => completes_refl _) instr)
  cases instr with
  | jump | jumpIf | ret | retValue => exact Step.completes_refl _
  | entryCheck id slot => exact completes_checkEntry h id _
  | invokeCheck id => exact completes_checkInvoke h id
  | fieldCheck id => exact completes_checkField h
  | _ => exact Step.completes_bind executes fun _ => Step.completes_refl _

/-- A run with more steps completes one with fewer. -/
theorem completes_run (h : m.CompletedBy call) {n k : Nat} (le : n ≤ k) (frame : Frame) :
    Completes ((m.withCall call).run k frame) (m.run n frame) := by
  induction n generalizing k frame with
  | zero => exact completes_outOfFuel _
  | succ n ih =>
    obtain ⟨k, rfl⟩ := Nat.exists_eq_add_of_lt le
    have le : n ≤ n + k := Nat.le_add_right n k
    unfold run
    cases frame.instr? with
    | none => exact completes_refl _
    | some instr =>
      refine completes_bind (completes_execute h instr frame) fun next => ?_
      obtain ⟨flow, frame⟩ := next
      cases flow with
      | next | skip | jump _ => exact ih le _
      | ret value => exact completes_refl _

theorem completes_runDeeper (h : m.CompletedBy call) {n k : Nat} (le : n ≤ k) (frame : Frame) :
    Completes ((m.withCall call).runDeeper k frame) (m.runDeeper n frame) := by
  rw [runDeeper_eq, runDeeper_eq]
  refine completes_bind (completes_refl _) fun depth => completes_bind (completes_refl _)
    fun most => ?_
  split
  -- what stands behind the failure differs, and must go before the sides agree
  · rw [fail_bind, fail_bind]
    exact completes_refl _
  · exact completes_counted (completes_run h le frame)

theorem completes_enterBody (h : m.CompletedBy call) {n k : Nat} (le : n ≤ k) (c : ClassRef)
    (method : Method) (args : List Value) :
    Completes ((m.withCall call).enterBody k c method args) (m.enterBody n c method args) := by
  unfold enterBody
  split
  · exact completes_bind (completes_ensureInitialized h c) fun _ => completes_runDeeper h le _
  · exact completes_runDeeper h le _

theorem completes_enter (h : m.CompletedBy call) {n k : Nat} (le : n ≤ k) (c : ClassRef)
    (method : Method) (args : List Value) :
    Completes ((m.withCall call).enter k c method args) (m.enter n c method args) := by
  by_cases abstract : method.isAbstract = true
  · rw [enter_abstract k c args abstract, enter_abstract n c args abstract]
    exact completes_refl _
  · have concrete : method.isAbstract = false := by simpa using abstract
    by_cases fits : args.length = method.argCount
    · rw [enter_eq k c concrete fits, enter_eq n c concrete fits]
      exact completes_enterBody h le c method args
    · rw [enter_misfit k c concrete fits, enter_misfit n c concrete fits]
      exact completes_refl _

end Machine

/-- A call that comes to an end with some fuel comes to the same end with more. -/
theorem completes_invoke (s : ScopeRef) {n k : Nat} (le : n ≤ k) (c : ClassRef) (method : Method)
    (args : List Value) : Completes (invoke s k c method args) (invoke s n c method args) := by
  induction n generalizing k c method args with
  | zero => exact completes_outOfFuel _
  | succ n ih =>
    obtain ⟨k, rfl⟩ := Nat.exists_eq_add_of_lt le
    have le : n ≤ n + k := Nat.le_add_right n k
    have calls : (Machine.of s n).CompletedBy (invoke s (n + k)) := fun c method args =>
      ih le c method args
    exact Machine.completes_enter calls le c method args

end LiveUpdate
