import LiveUpdate.Proofs.Running

/-!
# Steps of a frame

How computations inside a frame are put together, and what the instructions that matter
here do: the check in front of a body, the calls that generated code makes, and the loads
and returns around them.
-/

set_option autoImplicit false

namespace LiveUpdate

open Exec

namespace Step

variable {α β : Type} {f : Frame} {e : Engine}

theorem bind_apply (x : Step α) (k : α → Step β) (f : Frame) (e : Engine) :
    (x >>= k) f e = match x f e with
      | .ok (a, f') e' => k a f' e'
      | .error stop e' => .error stop e' := by
  show (x f >>= fun next => k next.1 next.2) e = _
  rw [Exec.bind_apply]
  cases x f e <;> rfl

theorem get_bind (k : Frame → Step β) : (get >>= k : Step β) f e = k f f e := rfl

theorem ask_bind (g : Engine → α) (k : α → Step β) : (ask g >>= k) f e = k (g e) f e := rfl

theorem fail_bind (error : RunError) (k : α → Step β) :
    (fail error >>= k) f e = .error (.error error) e := rfl

theorem fail_apply (error : RunError) :
    (fail error : Step α) f e = .error (.error error) e := rfl

/-- A guard finds the instruction that it stands in front of. -/
theorem guarded_bind {instr : Instr} (next : f.method.code[f.pc + 1]? = some instr)
    (k : Instr → Step β) : (guarded >>= k) f e = k instr f e := by
  unfold guarded
  rw [bind_apply, get_bind, next]
  rfl

/-- A call made from a frame leaves the frame as it is. -/
theorem lift_apply (x : Run α) (f : Frame) (e : Engine) : (liftM x : Step α) f e = match x e with
    | .ok a e' => .ok (a, f) e'
    | .error stop e' => .error stop e' := by
  show (x >>= fun a => pure (a, f) : Run (α × Frame)) e = _
  rw [Exec.bind_apply]
  cases x e <;> rfl

theorem lift_bind (x : Run α) (k : α → Step β) : ((liftM x : Step α) >>= k) f e = match x e with
    | .ok a e' => k a f e'
    | .error stop e' => .error stop e' := by
  rw [bind_apply, lift_apply]
  cases x e <;> rfl

theorem check_bind {g : Engine → Except RunError α} (k : α → Step β) :
    (check g >>= k) f e = match g e with
      | .ok a => k a f e
      | .error error => .error (.error error) e := by
  show ((liftM (Exec.check g) : Step α) >>= k) f e = _
  rw [lift_bind, check_apply]
  cases g e <;> rfl

/-- A question about the frame changes the frame as its answer says. -/
theorem onFrame_apply (g : Frame → Except RunError (α × Frame)) :
    onFrame g f e = match g f with
      | .ok next => .ok next e
      | .error error => .error (.error error) e := by
  unfold onFrame
  rw [get_bind, lift_bind, ofResult_apply]
  cases g f <;> rfl

theorem onFrame_bind (g : Frame → Except RunError (α × Frame)) (k : α → Step β) :
    (onFrame g >>= k) f e = match g f with
      | .ok (a, f') => k a f' e
      | .error error => .error (.error error) e := by
  rw [bind_apply, onFrame_apply]
  cases g f <;> rfl

end Step

namespace Machine

variable {m : Machine} {e : Engine}

/-- What runs in the place of a body that begins with a check, if anything does. -/
def replacement? (m : Machine) (e : Engine) (id : TypeId) (slot : Nat) (host : Method)
    (args : List Value) : Option (Run Value) := do
  let t ← e.typeWithId? m.scope id
  let version ← (e.typeAt t).published
  match ← version.dispatch.entry? slot with
  | .host => none
  | .executor method =>
    match version.executor? with
    | none => some (fail (.link (.missingExecutor (e.typeAt t).name version.number)))
    | some executor =>
      if args.length ≠ method.argCount then
        some (fail (.classChange (.shape s!"{(e.typeAt t).name}.{host.key.text}")))
      else some (m.call executor method args)
  | .deleted =>
    if host.isStatic || host.isConstructor then
      some (fail (.memberMissing (e.typeAt t).name host.key))
    else some (m.callInherited t host.key args)
  | .abstract => some (fail (.abstractMethod s!"{(e.typeAt t).name}.{host.key.text}"))

/-- The depth at which what runs in the place of a body runs is that of its caller. -/
theorem atDepth_pred_succ {x : Run Value} (hx : Keeps Engine.skeleton x) (e : Engine) :
    atDepth (· + 1) (atDepth (· - 1) x) e = x e := by
  have same := hx e
  have back : { { e with depth := e.depth + 1 } with depth := e.depth + 1 - 1 } = e := rfl
  rw [atDepth_apply, atDepth_apply]
  dsimp only
  rw [back]
  unfold final at same
  cases run : x e with
  | ok value e' =>
    rw [run] at same
    rw [← Engine.depth_of_skeleton_eq same]
  | error stop e' =>
    rw [run] at same
    rw [← Engine.depth_of_skeleton_eq same]

theorem forwarding_fail (error : RunError) (e : Engine) :
    forwarding (fail error) e = .error (.error error) e := by
  rw [forwarding_eq, atDepth_apply]
  rfl

/-- The check in front of a body goes on with the body, or returns what runs in its place. -/
theorem checkEntry_apply (id : TypeId) (slot : Nat) (f : Frame) (e : Engine) :
    m.checkEntry id slot f e = match m.replacement? e id slot f.method f.arguments with
      | none => .ok (.next, f) e
      | some x => match forwarding x e with
        | .ok value e' => .ok (.ret value, f) e'
        | .error stop e' => .error stop e' := by
  unfold checkEntry replacement?
  rw [Step.get_bind, Step.ask_bind]
  cases e.typeWithId? m.scope id with
  | none => rfl
  | some t =>
    dsimp only [Option.bind_eq_bind, Option.bind_some]
    rw [Step.ask_bind]
    cases (e.typeAt t).published with
    | none => rfl
    | some version =>
      dsimp only [Option.bind_some]
      cases version.dispatch.entry? slot with
      | none => rfl
      | some entry =>
        dsimp only [Option.bind_some]
        cases entry with
        | host => rfl
        | executor method =>
          cases version.executor? with
          | none =>
            dsimp only
            rw [Step.fail_apply, forwarding_fail]
          | some executor =>
            dsimp only
            by_cases fits : f.arguments.length = method.argCount
            · simp only [fits, ne_eq, not_true_eq_false, if_false]
              rw [Step.lift_bind]
              cases forwarding (m.call executor method f.arguments) e <;> rfl
            · simp only [fits, ne_eq, not_false_eq_true, if_true]
              rw [Step.fail_bind, forwarding_fail]
        | deleted =>
          dsimp only
          by_cases own : (f.method.isStatic || f.method.isConstructor) = true
          · simp only [own, if_true]
            rw [Step.fail_bind, forwarding_fail]
          · simp only [own, Bool.false_eq_true, if_false]
            rw [Step.lift_bind]
            cases forwarding (m.callInherited t f.method.key f.arguments) e <;> rfl
        | abstract =>
          dsimp only
          rw [Step.fail_apply, forwarding_fail]

/-- What runs in the place of a body keeps the skeleton. -/
theorem keeps_replacement (hm : m.KeepsSkeleton) {id : TypeId} {slot : Nat} {host : Method}
    {args : List Value} {x : Run Value} (replaced : m.replacement? e id slot host args = some x) :
    Keeps Engine.skeleton x := by
  unfold replacement? at replaced
  obtain ⟨t, -, replaced⟩ := Option.bind_eq_some_iff.1 replaced
  obtain ⟨version, -, replaced⟩ := Option.bind_eq_some_iff.1 replaced
  obtain ⟨entry, -, replaced⟩ := Option.bind_eq_some_iff.1 replaced
  cases entry with
  | host => cases replaced
  | executor method =>
    dsimp only at replaced
    split at replaced
    · cases replaced
      exact keeps_fail _
    · split at replaced
      · cases replaced
        exact keeps_fail _
      · cases replaced
        exact hm _ _ _
  | deleted =>
    dsimp only at replaced
    split at replaced
    · cases replaced
      exact keeps_fail _
    · cases replaced
      exact keeps_callInherited hm _ _ _
  | abstract =>
    cases replaced
    exact keeps_fail _

/-- One instruction of a frame. -/
theorem run_succ {frame : Frame} {instr : Instr} (here : frame.instr? = some instr) (fuel : Nat)
    (e : Engine) : m.run (fuel + 1) frame e = match m.execute instr frame e with
      | .ok (.next, frame) e => m.run fuel (frame.goTo (frame.pc + 1)) e
      | .ok (.skip, frame) e => m.run fuel (frame.goTo (frame.pc + 2)) e
      | .ok (.jump target, frame) e => m.run fuel (frame.goTo target) e
      | .ok (.ret value, _) e => .ok value e
      | .error stop e => .error stop e := by
  rw [run, here]
  dsimp only
  rw [Exec.bind_apply]
  cases m.execute instr frame e with
  | ok next e' =>
    obtain ⟨flow, frame⟩ := next
    cases flow <;> rfl
  | error stop e' => rfl

/-- The arguments of a call that has just been entered. -/
theorem arguments_enter (c : ClassRef) {method : Method} {args : List Value}
    (fits : args.length = method.argCount) : (Frame.enter c method args).arguments = args := by
  show (args ++ _).take method.argCount = args
  rw [← fits, List.take_left]

/-- A body that begins with a check gives way to what replaces it, at the depth of the caller, or
else goes on behind the check. -/
theorem runDeeper_checked {s : ScopeRef} {c : ClassRef} {host : Method} {id : TypeId}
    {slot : UInt32} {rest : List Instr} {args : List Value}
    (code : host.code = .entryCheck id slot :: rest) (fits : args.length = host.argCount)
    (fuel : Nat) (e : Engine) :
    (Machine.of s (fuel + 1)).runDeeper (fuel + 1) (.enter c host args) e =
      if (e.scopeAt s).options.maxCallDepth ≤ e.depth then
        .error (.error (.stackOverflow e.depth)) e
      else match (Machine.of s (fuel + 1)).replacement? e id slot.toNat host args with
        | some x => x e
        | none => atDepth (· + 1) ((Machine.of s (fuel + 1)).run fuel
            ((Frame.enter c host args).goTo 1)) e := by
  let m := Machine.of s (fuel + 1)
  show m.runDeeper (fuel + 1) _ e = _
  rw [runDeeper_apply (keepsSkeleton_of s (fuel + 1))]
  by_cases full : (e.scopeAt s).options.maxCallDepth ≤ e.depth
  · have full' : (e.scopeAt m.scope).options.maxCallDepth ≤ e.depth := full
    rw [if_pos full, if_pos full']
  · have room : ¬ (e.scopeAt m.scope).options.maxCallDepth ≤ e.depth := full
    rw [if_neg full, if_neg room]
    have here : (Frame.enter c host args).instr? = some (.entryCheck id slot) := by
      show host.code[0]? = _
      rw [code]
      rfl
    have executes (e' : Engine) : m.execute (.entryCheck id slot) (.enter c host args) e' =
        match m.replacement? e' id slot.toNat host args with
        | none => .ok (.next, .enter c host args) e'
        | some x => match forwarding x e' with
          | .ok value e'' => .ok (.ret value, .enter c host args) e''
          | .error stop e'' => .error stop e'' := by
      have checks := checkEntry_apply (m := m) id slot.toNat (.enter c host args) e'
      rw [arguments_enter c fits] at checks
      exact checks
    have deeper : m.replacement? { e with depth := e.depth + 1 } id slot.toNat host args =
        m.replacement? e id slot.toNat host args := rfl
    rw [atDepth_apply, run_succ here, executes, deeper]
    cases replaced : m.replacement? e id slot.toNat host args with
    | none =>
      dsimp only
      rw [atDepth_apply]
      rfl
    | some x =>
      have same := atDepth_pred_succ (keeps_replacement (keepsSkeleton_of s _) replaced) e
      rw [atDepth_apply] at same
      dsimp only
      rw [← same, forwarding_eq]
      cases atDepth (· - 1) x { e with depth := e.depth + 1 } <;> rfl

/-- A call on an object whose body begins with a check runs what replaces the body, at the depth
of the caller, or else the body behind the check. -/
theorem call_checked {s : ScopeRef} {c : ClassRef} {host : Method} {id : TypeId} {slot : UInt32}
    {rest : List Instr} {args : List Value} (code : host.code = .entryCheck id slot :: rest)
    (concrete : host.isAbstract = false) (receives : host.isStatic = false)
    (fits : args.length = host.argCount) (fuel : Nat) (e : Engine) :
    (Machine.of s (fuel + 2)).call c host args e =
      if (e.scopeAt s).options.maxCallDepth ≤ e.depth then
        .error (.error (.stackOverflow e.depth)) e
      else match (Machine.of s (fuel + 1)).replacement? e id slot.toNat host args with
        | some x => x e
        | none => atDepth (· + 1) ((Machine.of s (fuel + 1)).run fuel
            ((Frame.enter c host args).goTo 1)) e := by
  show (Machine.of s (fuel + 1)).enter (fuel + 1) c host args e = _
  rw [enter_eq _ _ concrete fits]
  unfold enterBody
  simp only [receives, Bool.false_and, Bool.false_eq_true, if_false]
  exact runDeeper_checked code fits fuel e

end Machine

end LiveUpdate
