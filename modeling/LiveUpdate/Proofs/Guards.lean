import LiveUpdate.Instrument.Guard
import LiveUpdate.Proofs.Completion
import LiveUpdate.Proofs.ExecutorEntries
import LiveUpdate.Proofs.Relocation

/-!
# Guards before the first reload

As long as nothing was reloaded a guard finds that the host's instruction is right and does
nothing else.  So a body with guards runs in step with the body that it was made from: every
instruction of the latter takes one step or two there, the frames differ in their code and in
the place where they are, and the two come to the same end or neither comes to one.
-/

set_option autoImplicit false

namespace LiveUpdate

open Exec

/-- The code with guards. -/
def guardCode (options : Options) (names : NameTable) (code : List Instr) : List Instr :=
  relocate [] (withGuard options names) code

/-- The place in code with guards where an instruction begins, with its guard if it has one. -/
def guardedPlace (options : Options) (names : NameTable) (code : List Instr) (pc : Nat) : Nat :=
  expansionStart [] (withGuard options names) code pc

section Places

variable (options : Options) (names : NameTable) {code : List Instr} {pc : Nat} {instr : Instr}

theorem length_withGuard_le (instr : Instr) : (withGuard options names instr).length ≤ 2 := by
  unfold withGuard
  split
  · exact Nat.le_refl _
  · exact Nat.le_succ _

theorem length_withGuard_pos (instr : Instr) : 0 < (withGuard options names instr).length := by
  unfold withGuard
  split <;> exact Nat.succ_pos _

/-- A jump with a guard in front of its target goes to the guard. -/
theorem retarget_guarded (short : code.length < UInt32.size / 2) (target : UInt32) :
    (UInt32.ofNat ((expansionPlaces 0 (code.map (withGuard options names))).getD target.toNat
      (0 + (code.flatMap (withGuard options names)).length))).toNat =
        guardedPlace options names code target.toNat := by
  rw [getD_expansionPlaces_map]
  have bound := expansionStart_le [] (withGuard options names)
    (length_withGuard_le options names) code target.toNat
  have fits : guardedPlace options names code target.toNat < UInt32.size := by
    have bound : guardedPlace options names code target.toNat ≤ 0 + 2 * code.length := bound
    have half : UInt32.size = 2 * (UInt32.size / 2) := rfl
    omega
  exact UInt32.toNat_ofNat_of_lt fits

end Places

/-- Code that the engine did not write and that is short enough to be relocated: it has fewer
than `2 ^ 31` instructions, and guards at most double it. -/
structure PlainCode (code : List Instr) : Prop where
  plain : ∀ instr ∈ code, instr.isEngineOnly = false
  short : code.length < UInt32.size / 2

/-- The frame in the code with guards. -/
def Frame.guarded (options : Options) (names : NameTable) (f : Frame) : Frame :=
  f.moved (guardCode options names f.method.code) (guardedPlace options names f.method.code f.pc)

/-- Where control goes on, with jumps to other places. -/
def Flow.retarget (place : Nat → Nat) : Flow → Flow
  | .jump target => .jump (place target)
  | other => other

namespace Machine

variable {m : Machine} {e : Engine} {f : Frame} {instr : Instr}

theorem transfers_execute_self (m : Machine) (plain : instr.isEngineOnly = false) :
    Step.Transfers (m.execute instr) (m.execute instr) :=
  transfers_execute (m := m) (fun _ _ _ => completes_refl _) plain

theorem settled_popBool (f : Frame) (e : Engine) : Settled (Step.popBool f e) := by
  unfold Step.popBool Step.pop
  rw [Step.onFrame_bind]
  cases f.pop with
  | error error => trivial
  | ok next =>
    have checked := Step.check_bind (f := next.2) (e := e) (g := fun e => next.1.asBool e)
      (pure : Bool → Step Bool)
    rw [bind_pure] at checked
    dsimp only
    rw [checked]
    cases next.1.asBool e <;> trivial

/-- An instruction that is no jump goes on behind itself or ends the call. -/
theorem execute_flow (plain : instr.isEngineOnly = false) (linear : instr.jumpTarget? = none)
    {flow : Flow} {f' : Frame} {e' : Engine} (run : m.execute instr f e = .ok (flow, f') e') :
    flow = .next ∨ ∃ value, flow = .ret value := by
  unfold execute at run
  cases instr with
  | jump | jumpIf => cases linear
  | entryCheck | invokeCheck | fieldCheck | liveAccess | liveSpecial | liveSuper | liveInit =>
    cases plain
  | ret =>
    cases run
    exact .inr ⟨_, rfl⟩
  | retValue =>
    dsimp only at run
    rw [Step.bind_apply] at run
    split at run
    · cases run
      exact .inr ⟨_, rfl⟩
    · cases run
  | _ =>
    dsimp only at run
    rw [Step.bind_apply] at run
    split at run
    · cases run
      exact .inl rfl
    · cases run

/-- A jump on a condition in terms of the condition. -/
theorem execute_jumpIf (cond : Bool) (target : UInt32) (f : Frame) (e : Engine) :
    m.execute (.jumpIf cond target) f e = match Step.popBool f e with
      | .ok (b, f') e' => .ok (if b = cond then .jump target.toNat else .next, f') e'
      | .error stop e' => .error stop e' := by
  show (Step.popBool >>= fun b =>
    (pure (if b = cond then .jump target.toNat else .next) : Step Flow)) f e = _
  rw [Step.bind_apply]
  cases Step.popBool f e <;> rfl

/-- Only the engine's own instructions are carried out by a guard. -/
theorem execute_ne_skip (plain : instr.isEngineOnly = false) {f' : Frame} {e' : Engine} :
    m.execute instr f e ≠ .ok (.skip, f') e' := by
  intro run
  cases target : instr.jumpTarget? with
  | none => rcases execute_flow plain target run with skip | ⟨value, skip⟩ <;> cases skip
  | some t =>
    cases instr with
    | jump t' => cases run
    | jumpIf cond t' =>
      rw [execute_jumpIf] at run
      split at run
      · obtain ⟨flow, -⟩ := Prod.mk.inj (EStateM.Result.ok.inj run).1
        split at flow <;> cases flow
      · cases run
    | _ => cases target

/-- An instruction with its jump adapted does the same at its place in other code, and jumps to
the new place. -/
theorem execute_relocated (plain : instr.isEngineOnly = false) {places : List Nat} {finish : Nat}
    {place : Nat → Nat} (targets : ∀ target, instr.jumpTarget? = some target →
      (UInt32.ofNat (places.getD target.toNat finish)).toNat = place target.toNat)
    {code : List Instr} {pc : Nat}
    (either : Settled (m.execute instr f e) ∨
      Settled (m.execute (relocateJump places finish instr) (f.moved code pc) e)) :
    m.execute (relocateJump places finish instr) (f.moved code pc) e =
      match m.execute instr f e with
      | .ok (flow, f') e' => .ok (flow.retarget place, f'.moved code pc) e'
      | .error stop e' => .error stop e' := by
  cases target : instr.jumpTarget? with
  | none =>
    rw [relocateJump_of_not_jump target] at either ⊢
    rw [(transfers_execute_self m plain).apply either]
    cases run : m.execute instr f e with
    | error stop e' => rfl
    | ok next e' =>
      obtain ⟨flow, f'⟩ := next
      rcases execute_flow plain target run with rfl | ⟨value, rfl⟩ <;> rfl
  | some t =>
    have moved := targets t target
    cases instr with
    | jump t' =>
      cases target
      show EStateM.Result.ok (Flow.jump _, _) _ = .ok (Flow.jump _, _) _
      rw [moved]
    | jumpIf cond t' =>
      cases target
      show m.execute (.jumpIf cond (UInt32.ofNat (places.getD t.toNat finish))) _ e = _
      have pops : Step.popBool (f.moved code pc) e =
          Step.movedOutcome code pc (Step.popBool f e) :=
        Step.transfers_popBool.apply (.inl (settled_popBool f e))
      rw [execute_jumpIf, execute_jumpIf, pops, moved]
      cases Step.popBool f e with
      | error stop e' => rfl
      | ok next e' =>
        obtain ⟨b, f'⟩ := next
        dsimp only [Step.movedOutcome]
        split <;> rfl
    | _ => cases target

end Machine

/-- The frame at the instruction itself, behind its guard if it has one. -/
def Frame.behindGuard (options : Options) (names : NameTable) (f : Frame) (instr : Instr) : Frame :=
  f.moved (guardCode options names f.method.code)
    (guardedPlace options names f.method.code f.pc + ((withGuard options names instr).length - 1))

namespace Machine

variable {m : Machine} {e : Engine} {f : Frame} {instr : Instr} (options : Options)
  (names : NameTable)

theorem instr?_behindGuard (here : f.instr? = some instr) :
    (f.behindGuard options names instr).instr? =
      some (relocateJump (expansionPlaces 0 (f.method.code.map (withGuard options names)))
        (0 + (f.method.code.flatMap (withGuard options names)).length) instr) := by
  have there : (withGuard options names instr)[(withGuard options names instr).length - 1]? =
      some instr := by
    unfold withGuard
    split <;> rfl
  exact getElem?_relocate_expanded [] (withGuard options names) here there

theorem routeInvoke_fresh (fresh : (e.scopeAt m.scope).epoch = 0) (caller : ClassRef) (id : TypeId)
    (kind : InvokeKind) (method : MethodRef) :
    m.routeInvoke caller id kind method e = .ok .native e := by
  unfold routeInvoke
  rw [bind_apply, ask_apply]
  dsimp only
  rw [if_pos fresh]
  rfl

theorem routeField_fresh (fresh : (e.scopeAt m.scope).epoch = 0) (caller : ClassRef)
    (access : FieldAccess) (field : FieldRef) :
    m.routeField caller access field e = .ok .native e := by
  unfold routeField
  rw [bind_apply, ask_apply]
  dsimp only
  rw [if_pos fresh]
  rfl

/-- Before the first reload a guard in front of its instruction does nothing. -/
theorem execute_guard_fresh (fresh : (e.scopeAt m.scope).epoch = 0) {name : String}
    (owner : instr.owner? = some name) (next : f.method.code[f.pc + 1]? = some instr)
    (id : TypeId) : m.execute (guardWith id instr) f e = .ok (.next, f) e := by
  cases instr with
  | invoke kind method =>
    show m.checkInvoke id f e = _
    unfold checkInvoke
    rw [Step.guarded_bind next]
    dsimp only
    rw [Step.get_bind, Step.lift_bind, routeInvoke_fresh fresh]
    rfl
  | access access field =>
    show m.checkField f e = _
    unfold checkField
    rw [Step.guarded_bind next]
    dsimp only
    rw [Step.get_bind, Step.lift_bind, routeField_fresh fresh]
    rfl
  | _ => cases owner

/-- Before the first reload a guard only goes on to the instruction that it stands in front
of. -/
theorem run_guard (fresh : (e.scopeAt m.scope).epoch = 0) (here : f.instr? = some instr)
    {owner : String} (guards : guardedOwner? options instr = some owner) (k : Nat) :
    m.run (k + 1) (f.guarded options names) e =
      m.run k (f.behindGuard options names instr) e := by
  have expansion : withGuard options names instr =
      [guardWith ((names.lookup owner).getD 0) instr, instr] := by
    unfold withGuard
    rw [guards]
  obtain ⟨owned, -⟩ := Option.filter_eq_some_iff.1 guards
  have unmoved : (guardWith ((names.lookup owner).getD 0) instr).jumpTarget? = none ∧
      instr.jumpTarget? = none := by
    cases instr with
    | invoke | access => exact ⟨rfl, rfl⟩
    | _ => cases owned
  have guard : (f.guarded options names).instr? =
      some (guardWith ((names.lookup owner).getD 0) instr) :=
    @getElem?_relocate [] (withGuard options names) _ _ _ here 0 _ (by rw [expansion]; rfl)
      unmoved.1
  have next : (f.guarded options names).method.code[(f.guarded options names).pc + 1]? =
      some instr :=
    @getElem?_relocate [] (withGuard options names) _ _ _ here 1 _ (by rw [expansion]; rfl)
      unmoved.2
  rw [run_succ guard, execute_guard_fresh fresh owned next]
  unfold Frame.behindGuard
  rw [expansion]
  rfl

/-- A frame with guards comes to its instruction in the steps that the guard takes. -/
theorem run_behindGuard (fresh : (e.scopeAt m.scope).epoch = 0) (here : f.instr? = some instr)
    (k : Nat) :
    m.run (k + (withGuard options names instr).length) (f.guarded options names) e =
      m.run (k + 1) (f.behindGuard options names instr) e := by
  cases guards : guardedOwner? options instr with
  | none =>
    have expansion : withGuard options names instr = [instr] := by
      unfold withGuard
      rw [guards]
    unfold Frame.behindGuard
    rw [expansion]
    rfl
  | some owner =>
    have expansion : (withGuard options names instr).length = 2 := by
      unfold withGuard
      rw [guards]
      rfl
    rw [expansion]
    exact run_guard options names fresh here guards (k + 1)

/-- A run that comes to an end has executed its first instruction. -/
theorem settled_execute_of_run (here : f.instr? = some instr) {k : Nat}
    (settled : Settled (m.run (k + 1) f e)) : Settled (m.execute instr f e) := by
  rw [run_succ here] at settled
  cases run : m.execute instr f e with
  | ok next e' => trivial
  | error stop e' =>
    rw [run] at settled
    exact settled_error_iff.1 settled

/-- One instruction takes a frame with guards to where it takes the frame without. -/
theorem run_guarded_succ (code : PlainCode f.method.code) (fresh : (e.scopeAt m.scope).epoch = 0)
    (here : f.instr? = some instr) {k : Nat}
    (either : Settled (m.execute instr f e) ∨
      Settled (m.run (k + (withGuard options names instr).length) (f.guarded options names) e)) :
    m.run (k + (withGuard options names instr).length) (f.guarded options names) e =
      match m.execute instr f e with
      | .ok (.next, f') e' => m.run k ((f'.goTo (f'.pc + 1)).guarded options names) e'
      | .ok (.skip, f') e' => m.run k ((f'.goTo (f'.pc + 2)).guarded options names) e'
      | .ok (.jump target, f') e' => m.run k ((f'.goTo target).guarded options names) e'
      | .ok (.ret value, _) e' => .ok value e'
      | .error stop e' => .error stop e' := by
  have plain := code.plain instr (List.mem_of_getElem? here)
  have there := instr?_behindGuard options names here
  rw [run_behindGuard options names fresh here] at either ⊢
  have executes := execute_relocated plain
    (fun target _ => retarget_guarded options names code.short target)
    (either.imp_right (settled_execute_of_run there))
  rw [run_succ there]
  unfold Frame.behindGuard
  rw [executes]
  cases run : m.execute instr f e with
  | error stop e' => rfl
  | ok next e' =>
    obtain ⟨flow, f'⟩ := next
    -- No instruction but a jump moves the frame, so the guarded frame moves along with it.
    obtain ⟨code_eq, pc_eq⟩ := (transfers_execute_self m plain).keeps_place run
    have guarded (pc : Nat) : (f'.goTo pc).guarded options names =
        f'.moved (guardCode options names f.method.code)
          (guardedPlace options names f.method.code pc) := by
      rw [← code_eq]
      rfl
    cases flow with
    | ret value => rfl
    | skip => exact absurd run (execute_ne_skip plain)
    | jump target =>
      dsimp only
      rw [guarded]
      rfl
    | next =>
      have positive := length_withGuard_pos options names instr
      have behind : guardedPlace options names f.method.code f.pc +
          ((withGuard options names instr).length - 1) + 1 =
            guardedPlace options names f.method.code (f.pc + 1) := by
        have next := expansionStart_succ [] (withGuard options names) here
        unfold guardedPlace
        omega
      dsimp only
      rw [guarded, pc_eq, ← behind]
      rfl

/-- Code that runs out runs out with guards, too. -/
theorem instr?_guarded_eq_none (out : f.instr? = none) :
    (f.guarded options names).instr? = none := by
  have beyond : f.method.code.length ≤ f.pc := List.getElem?_eq_none_iff.1 out
  have place : guardedPlace options names f.method.code f.pc =
      (guardCode options names f.method.code).length :=
    expansionStart_of_length_le [] (withGuard options names) beyond
  exact List.getElem?_eq_none_iff.2 (Nat.le_of_eq place.symm)

theorem run_eq_of_instr?_eq_none (out : f.instr? = none) (k k' : Nat) :
    m.run (k + 1) (f.guarded options names) e = m.run (k' + 1) f e := by
  unfold run
  rw [out, instr?_guarded_eq_none options names out]
  rfl

/-- After an instruction a frame has the code that it had, and the epoch is what it was. -/
theorem execute_stays (hm : m.KeepsSkeleton) (code : PlainCode f.method.code)
    (fresh : (e.scopeAt m.scope).epoch = 0) (here : f.instr? = some instr) {flow : Flow}
    {f' : Frame} {e' : Engine} (run : m.execute instr f e = .ok (flow, f') e') (pc : Nat) :
    PlainCode (f'.goTo pc).method.code ∧ (e'.scopeAt m.scope).epoch = 0 := by
  have plain := code.plain instr (List.mem_of_getElem? here)
  have same := keeps_execute hm here e
  unfold final at same
  rw [run] at same
  refine ⟨?_, ?_⟩
  · show PlainCode f'.method.code
    rw [((transfers_execute_self m plain).keeps_place run).1]
    exact code
  · exact (Engine.epoch_of_skeleton_eq same _).trans fresh

/-- What a run without guards comes to, the run with guards comes to in at most twice as many
steps. -/
theorem run_guarded (hm : m.KeepsSkeleton) {n : Nat} (code : PlainCode f.method.code)
    (fresh : (e.scopeAt m.scope).epoch = 0) (settled : Settled (m.run n f e)) :
    m.run (2 * n) (f.guarded options names) e = m.run n f e := by
  induction n generalizing f e with
  | zero => exact settled.elim
  | succ n ih =>
    cases here : f.instr? with
    | none => exact run_eq_of_instr?_eq_none options names here _ _
    | some instr =>
      -- The guard and its instruction take at most two steps, so enough are left for the rest.
      have most := length_withGuard_le options names instr
      obtain ⟨k, steps, enough⟩ : ∃ k, 2 * (n + 1) = k + (withGuard options names instr).length ∧
          2 * n ≤ k :=
        ⟨2 * (n + 1) - (withGuard options names instr).length, by omega, by omega⟩
      have goesOn {f' : Frame} {e' : Engine} {flow : Flow}
          (run : m.execute instr f e = .ok (flow, f') e') (pc : Nat)
          (settled : Settled (m.run n (f'.goTo pc) e')) :
          m.run k ((f'.goTo pc).guarded options names) e' = m.run n (f'.goTo pc) e' := by
        obtain ⟨code', fresh'⟩ := execute_stays hm code fresh here run pc
        have rest := ih code' fresh' settled
        rw [← rest] at settled ⊢
        exact completes_run (m := m) (fun _ _ _ => completes_refl _) enough _ e' settled
      have first := settled_execute_of_run here settled
      rw [steps, run_guarded_succ options names code fresh here (.inl first)]
      rw [run_succ here] at settled ⊢
      cases run : m.execute instr f e with
      | error stop e' => rfl
      | ok next e' =>
        obtain ⟨flow, f'⟩ := next
        rw [run] at settled
        cases flow with
        | ret value => rfl
        | skip => exact goesOn run _ settled
        | next => exact goesOn run _ settled
        | jump target => exact goesOn run _ settled

/-- What a run with guards comes to, the run without them comes to in as many steps. -/
theorem run_of_guarded (hm : m.KeepsSkeleton) {n : Nat} (code : PlainCode f.method.code)
    (fresh : (e.scopeAt m.scope).epoch = 0)
    (settled : Settled (m.run n (f.guarded options names) e)) :
    m.run n f e = m.run n (f.guarded options names) e := by
  -- An instruction with its guard takes two steps at once, so the rest may have two fewer.
  induction n using Nat.strongRecOn generalizing f e with
  | ind n ih =>
    cases n with
    | zero => exact settled.elim
    | succ n =>
      cases here : f.instr? with
      | none => exact (run_eq_of_instr?_eq_none options names here n n).symm
      | some instr =>
        -- A single step may not reach the instruction behind the guard.
        by_cases guardOnly : n + 1 < (withGuard options names instr).length
        · cases guards : guardedOwner? options instr with
          | none =>
            unfold withGuard at guardOnly
            rw [guards] at guardOnly
            cases Nat.lt_of_succ_lt_succ guardOnly
          | some owner =>
            have most := length_withGuard_le options names instr
            obtain rfl : n = 0 := by omega
            rw [run_guard options names fresh here guards] at settled
            exact settled.elim
        · obtain ⟨k, steps, fewer⟩ : ∃ k, n + 1 = k + (withGuard options names instr).length ∧
              k ≤ n := by
            have positive := length_withGuard_pos options names instr
            exact ⟨n + 1 - (withGuard options names instr).length, by omega, by omega⟩
          have goesOn {f' : Frame} {e' : Engine} {flow : Flow}
              (run : m.execute instr f e = .ok (flow, f') e') (pc : Nat)
              (settled : Settled (m.run k ((f'.goTo pc).guarded options names) e')) :
              m.run n (f'.goTo pc) e' = m.run k ((f'.goTo pc).guarded options names) e' := by
            obtain ⟨code', fresh'⟩ := execute_stays hm code fresh here run pc
            have rest := ih k (Nat.lt_succ_of_le fewer) code' fresh' settled
            rw [← rest] at settled ⊢
            exact completes_run (m := m) (fun _ _ _ => completes_refl _) fewer _ e' settled
          rw [steps] at settled
          have guardedRun := run_guarded_succ options names code fresh here (.inr settled)
          rw [← steps] at settled guardedRun
          rw [guardedRun] at settled ⊢
          rw [run_succ here]
          cases run : m.execute instr f e with
          | error stop e' => rfl
          | ok next e' =>
            obtain ⟨flow, f'⟩ := next
            rw [run] at settled
            cases flow with
            | ret value => rfl
            | skip => exact goesOn run _ settled
            | next => exact goesOn run _ settled
            | jump target => exact goesOn run _ settled

/-- Entering another body at some depth comes to the same when the run of the body does. -/
theorem runDeeper_withCode {n k : Nat} {c : ClassRef} {method : Method} {args : List Value}
    {code : List Instr} (fresh : (e.scopeAt m.scope).epoch = 0)
    (runs : ∀ e' : Engine, (e'.scopeAt m.scope).epoch = 0 →
      Settled (m.run n (.enter c method args) e') →
      m.run k (.enter c (method.withCode code) args) e' = m.run n (.enter c method args) e')
    (settled : Settled (m.runDeeper n (.enter c method args) e)) :
    m.runDeeper k (.enter c (method.withCode code) args) e =
      m.runDeeper n (.enter c method args) e := by
  unfold runDeeper at settled ⊢
  by_cases full : (e.scopeAt m.scope).options.maxCallDepth ≤ e.depth
  · rw [if_pos full, if_pos full]
  · rw [if_neg full, counted_apply] at settled
    rw [if_neg full, if_neg full, counted_apply, counted_apply,
      runs { e with depth := e.depth + 1 } fresh]
    cases run : m.run n (.enter c method args) { e with depth := e.depth + 1 } with
    | ok value e' => trivial
    | error stop e' =>
      rw [run] at settled
      exact settled_error_iff.1 settled

/-- The initialization in front of a static method is the same for another body. -/
theorem enterBody_withCode (hm : m.KeepsSkeleton) {n k : Nat} {c : ClassRef} {method : Method}
    {args : List Value} {code : List Instr} (fresh : (e.scopeAt m.scope).epoch = 0)
    (runs : ∀ e' : Engine, (e'.scopeAt m.scope).epoch = 0 →
      Settled (m.run n (.enter c method args) e') →
      m.run k (.enter c (method.withCode code) args) e' = m.run n (.enter c method args) e')
    (settled : Settled (m.enterBody n c method args e)) :
    m.enterBody k c (method.withCode code) args e = m.enterBody n c method args e := by
  have body (k : Nat) (method : Method) : m.enterBody k c method args =
      if method.isStatic && !method.key.isStaticInit then do
        m.ensureInitialized c
        m.runDeeper k (.enter c method args)
      else m.runDeeper k (.enter c method args) := rfl
  rw [body] at settled ⊢
  rw [body]
  show (if method.isStatic && !method.key.isStaticInit then _ else _ : Run Value) e = _
  split at settled
  next initializes =>
    rw [if_pos initializes, if_pos initializes]
    rw [bind_apply] at settled ⊢
    rw [bind_apply]
    have same := keeps_ensureInitialized hm c e
    unfold final at same
    cases run : m.ensureInitialized c e with
    | error stop e' => rfl
    | ok done e' =>
      rw [run] at settled same
      exact runDeeper_withCode ((Engine.epoch_of_skeleton_eq same _).trans fresh) runs settled
  next uninitialized =>
    rw [if_neg uninitialized, if_neg uninitialized]
    exact runDeeper_withCode fresh runs settled

/-- A call of a method with another body comes to the same when the run of the body does. -/
theorem enter_withCode (hm : m.KeepsSkeleton) {n k : Nat} {c : ClassRef} {method : Method}
    {args : List Value} {code : List Instr} (fresh : (e.scopeAt m.scope).epoch = 0)
    (runs : ∀ e' : Engine, (e'.scopeAt m.scope).epoch = 0 →
      Settled (m.run n (.enter c method args) e') →
      m.run k (.enter c (method.withCode code) args) e' = m.run n (.enter c method args) e')
    (settled : Settled (m.enter n c method args e)) :
    m.enter k c (method.withCode code) args e = m.enter n c method args e := by
  by_cases abstract : method.isAbstract = true
  · have fails : m.enter k c (method.withCode code) args = fail (.abstractMethod method.text) :=
      enter_abstract k c args abstract
    rw [fails, enter_abstract n c args abstract]
  · have concrete : method.isAbstract = false := by simpa using abstract
    by_cases fits : args.length = method.argCount
    · have entered : m.enter k c (method.withCode code) args =
          m.enterBody k c (method.withCode code) args := enter_eq k c concrete fits
      rw [enter_eq n c concrete fits] at settled ⊢
      rw [entered]
      exact enterBody_withCode hm fresh runs settled
    · have fails : m.enter k c (method.withCode code) args =
          fail (.malformed (.argumentCount method.text method.argCount args.length)) :=
        enter_misfit k c concrete fits
      rw [fails, enter_misfit n c concrete fits]

end Machine

/-- Before the first reload guards change nothing.  A call of a method comes to an end exactly
when the call of the method with guards does, and then both have the same result or the same
error and leave the same engine.  The same holds of a run of its body from its beginning,
whatever the local slots hold. -/
theorem guards_neutral_before_reload {e : Engine} {s : ScopeRef} (fresh : (e.scopeAt s).epoch = 0)
    (options : Options) (names : NameTable) {method : Method} (code : PlainCode method.code)
    (c : ClassRef) :
    (∀ (args : List Value) (outcome : EStateM.Result (Stop RunError) Engine Value),
      Settled outcome →
        ((∃ fuel, invoke s fuel c method args e = outcome) ↔ ∃ fuel,
          invoke s fuel c (method.withCode (guardCode options names method.code)) args e =
            outcome)) ∧
    ∀ (locals : List Value) (outcome : EStateM.Result (Stop RunError) Engine Value),
      Settled outcome →
        ((∃ fuel steps, (Machine.of s fuel).run steps ⟨c, method, locals, [], 0⟩ e = outcome) ↔
          ∃ fuel steps, (Machine.of s fuel).run steps
            ⟨c, method.withCode (guardCode options names method.code), locals, [], 0⟩ e =
              outcome) := by
  refine ⟨fun args outcome settled => ⟨?_, ?_⟩, fun locals outcome settled => ⟨?_, ?_⟩⟩
  · rintro ⟨fuel, rfl⟩
    cases fuel with
    | zero => exact settled.elim
    | succ n =>
      -- The calls that the body makes get the fuel that the run with guards needs.
      have calls : (Machine.of s n).CompletedBy (invoke s (2 * n)) := fun c method args =>
        completes_invoke s (by omega) c method args
      have same : (Machine.of s (2 * n)).enter n c method args e =
          (Machine.of s n).enter n c method args e :=
        Machine.completes_enter calls (Nat.le_refl n) c method args e settled
      have settled' : Settled ((Machine.of s (2 * n)).enter n c method args e) := by
        rw [same]
        exact settled
      refine ⟨2 * n + 1, ?_⟩
      show (Machine.of s (2 * n)).enter (2 * n) c _ args e =
        (Machine.of s n).enter n c method args e
      rw [← same]
      have keeps := keepsSkeleton_of s (2 * n)
      exact Machine.enter_withCode keeps fresh (fun e' fresh' settled =>
        Machine.run_guarded options names keeps code fresh' settled) settled'
  · rintro ⟨fuel, rfl⟩
    cases fuel with
    | zero => exact settled.elim
    | succ n =>
      have keeps := keepsSkeleton_of s n
      let guarded := method.withCode (guardCode options names method.code)
      have back : (Machine.of s n).enter n c (guarded.withCode method.code) args e =
          (Machine.of s n).enter n c guarded args e :=
        Machine.enter_withCode keeps fresh (fun e' fresh' settled =>
          Machine.run_of_guarded (f := .enter c method args) options names keeps code fresh'
            settled) settled
      exact ⟨n + 1, back⟩
  · rintro ⟨fuel, steps, rfl⟩
    exact ⟨fuel, 2 * steps, Machine.run_guarded options names (keepsSkeleton_of s fuel) code fresh
      settled⟩
  · rintro ⟨fuel, steps, rfl⟩
    exact ⟨fuel, steps, Machine.run_of_guarded (f := ⟨c, method, locals, [], 0⟩) options names
      (keepsSkeleton_of s fuel) code fresh settled⟩

namespace Calling

/-- A method that calls the static method of the overloaded type. -/
def method : Method where
  key := ⟨"use", ⟨[], .int⟩⟩
  modifiers := .publicBit ||| .staticBit
  declared := .publicBit ||| .staticBit
  declaring := "app.T"
  maxLocals := 0
  code := [.constNull, .invoke .static ⟨"app.T", "m", ⟨[.ref "app.T"], .int⟩⟩, .retValue]

/-- The value that a call has given. -/
def answer? (outcome : EStateM.Result (Stop RunError) Engine Value) : Option Value :=
  match outcome with
  | .ok value _ => some value
  | .error .. => none

set_option maxRecDepth 100000 in
theorem runs : (Overloaded.defined.scopeAt 0).epoch = 0 ∧
    answer? (invoke 0 5 0 method [] Overloaded.defined) = some (.int 2) ∧
    guardCode { included := ["app.*"] } (Overloaded.defined.namesOf 0) method.code =
      [.constNull, .invokeCheck 0, .invoke .static ⟨"app.T", "m", ⟨[.ref "app.T"], .int⟩⟩,
        .retValue] := by
  decide +kernel

end Calling

open Calling in
/-- A method that calls another one answers the same with a guard in front of the call. -/
theorem guards_neutral_before_reload_calling :
    ∃ e', (∃ fuel, invoke 0 fuel 0 method [] Overloaded.defined = .ok (.int 2) e') ∧
      ∃ fuel, invoke 0 fuel 0 (method.withCode [.constNull, .invokeCheck 0,
        .invoke .static ⟨"app.T", "m", ⟨[.ref "app.T"], .int⟩⟩, .retValue]) []
          Overloaded.defined = .ok (.int 2) e' := by
  obtain ⟨fresh, answers, guards⟩ := runs
  have plain : PlainCode method.code := ⟨by decide, by decide⟩
  rw [← guards]
  cases run : invoke 0 5 0 method [] Overloaded.defined with
  | error stop e' =>
    rw [run] at answers
    cases answers
  | ok value e' =>
    rw [run] at answers
    obtain rfl : value = .int 2 := Option.some.inj answers
    have same := (guards_neutral_before_reload fresh { included := ["app.*"] }
      (Overloaded.defined.namesOf 0) plain 0).1 [] (.ok (.int 2) e') trivial
    exact ⟨e', ⟨5, run⟩, same.1 ⟨5, run⟩⟩

end LiveUpdate
