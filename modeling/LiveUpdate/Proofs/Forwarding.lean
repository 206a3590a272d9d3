import LiveUpdate.Instrument.Inherited
import LiveUpdate.Proofs.Bodies

/-!
# Forwarding code

A generated method forwards to an inherited one: its code loads the receiver and the
arguments, makes the call as the host links it, and returns.  So running the code is making
the call.
-/

set_option autoImplicit false

namespace LiveUpdate

open Exec

namespace Machine

variable {m : Machine} {e : Engine}

/-- The frame that has loaded the first few of its arguments. -/
def loaded (f : Frame) (args : List Value) (count : Nat) : Frame :=
  { f with pc := f.pc + count, stack := (args.take count).reverse }

/-- One load puts the next argument onto the stack. -/
theorem execute_load (f : Frame) {args : List Value} {i : Nat} (lt : i < args.length)
    (locals : args <+: f.locals) (small : args.length ≤ 65536) :
    m.execute (.load (UInt16.ofNat i)) (loaded f args i) e =
      .ok (.next, { loaded f args i with stack := (args.take (i + 1)).reverse }) e := by
  have slot : (UInt16.ofNat i).toNat = i := by
    rw [UInt16.toNat_ofNat']
    omega
  have found : f.locals[i]? = some args[i] := by
    obtain ⟨rest, same⟩ := locals
    rw [← same, List.getElem?_append_left lt]
    exact List.getElem?_eq_getElem lt
  have loads : (loaded f args i).load (UInt16.ofNat i).toNat = .ok args[i] := by
    have here : (loaded f args i).locals[i]? = some args[i] := found
    unfold Frame.load
    rw [slot, here]
  have pushed : (args.take (i + 1)).reverse = args[i] :: (args.take i).reverse := by
    rw [List.take_succ_eq_append_getElem lt, List.reverse_append]
    rfl
  show ((Step.onFrame (fun f => do return (← f.load (UInt16.ofNat i).toNat, f)) >>= Step.push) >>=
    fun _ => pure Flow.next) (loaded f args i) e = _
  rw [Step.bind_apply, Step.onFrame_bind, loads, pushed]
  rfl

/-- Running the loads puts all arguments onto the stack. -/
theorem run_loads (f : Frame) {args : List Value} (locals : args <+: f.locals)
    (small : args.length ≤ 65536)
    (code : ∀ i < args.length, f.method.code[f.pc + i]? = some (.load (UInt16.ofNat i)))
    (fuel : Nat) {left i : Nat} (total : i + left = args.length) :
    m.run (fuel + left) (loaded f args i) e = m.run fuel (loaded f args args.length) e := by
  induction left generalizing i with
  | zero =>
    have all : i = args.length := total
    rw [all]
    rfl
  | succ left ih =>
    have lt : i < args.length := by omega
    have here : (loaded f args i).instr? = some (.load (UInt16.ofNat i)) := code i lt
    rw [← Nat.add_assoc, run_succ here, execute_load f lt locals small]
    have next : i + 1 + left = args.length := by omega
    exact ih next

/-- A special call as the host links it, made on an object. -/
theorem calls_callNative_special {s : ScopeRef} {n : Nat} {c : ClassRef} {ref : MethodRef}
    {o : ObjectRef} {args : List Value} :
    (Machine.of s n).Calls e (.object o :: args)
      ((Machine.of s n).callNative c .special ref (.object o :: args) e)
      (e.forwardedBody s c ref) := by
  unfold callNative Engine.forwardedBody
  rw [bind_apply, check_apply, scope_of]
  unfold Engine.requireClass
  cases e.class? s ref.owner with
  | none => exact ⟨_, _, rfl⟩
  | some owner =>
    dsimp only
    rw [bind_apply, require_apply]
    cases e.hostMethod? owner ref.key with
    | none => exact ⟨_, _, rfl⟩
    | some host =>
      obtain ⟨declaring, found⟩ := host
      dsimp only
      rw [bind_apply, ofResult_apply, checkInvokeKind_of_receiver (by decide)]
      cases found.isStatic with
      | true => exact ⟨_, _, rfl⟩
      | false =>
        simp only [Bool.false_eq_true, if_false]
        rw [bind_apply, check_apply]
        cases e.checkAccess s c found.declaring found.declared ref.text with
        | error error => exact ⟨_, _, rfl⟩
        | ok permitted =>
          dsimp only
          rw [bind_apply, check_apply]
          cases e.checkNonVirtual s c ref with
          | error error => exact ⟨_, _, rfl⟩
          | ok inherited => exact rfl

/-- The instructions of forwarding code. -/
theorem getElem?_forwardingCode (owner : String) (key : MemberKey) :
    (∀ i < key.sig.arity + 1,
      (forwardingCode owner key)[i]? = some (.load (UInt16.ofNat i))) ∧
    (forwardingCode owner key)[key.sig.arity + 1]? =
      some (.invoke .special ⟨owner, key.name, key.sig⟩) ∧
    (forwardingCode owner key)[key.sig.arity + 2]? =
      some (if key.sig.returnsValue then .retValue else .ret) := by
  unfold forwardingCode
  refine ⟨fun i lt => ?_, ?_, ?_⟩
  · rw [List.getElem?_append_left (by simpa using lt), List.getElem?_map,
      List.getElem?_range lt]
    rfl
  · rw [List.getElem?_append_right (by simp)]
    simp
  · rw [List.getElem?_append_right (by simp)]
    simp

/-- Forwarding code returns the result of its call, or null if there is none. -/
theorem run_return {g : Frame} {returns : Bool} {value : Value}
    (last : g.instr? = some (if returns then .retValue else .ret))
    (stack : g.stack = if returns then [value] else []) (fuel : Nat) :
    m.run (fuel + 1) g e = .ok (if returns then value else .null) e := by
  cases returns with
  | true =>
    have popped : g.pop = .ok (value, { g with stack := [] }) := by
      unfold Frame.pop
      rw [stack]
      rfl
    have executes : m.execute .retValue g e = .ok (.ret value, { g with stack := [] }) e := by
      show (Step.onFrame Frame.pop >>= fun value => pure (Flow.ret value)) g e = _
      rw [Step.onFrame_bind, popped]
      rfl
    rw [run_succ last]
    simp only [if_true, executes]
  | false =>
    rw [run_succ last]
    rfl

/-- Running the code of a catcher is making the call that it forwards to. -/
theorem run_forwardingCode (f : Frame) {owner : String} {key : MemberKey} {args : List Value}
    (locals : args <+: f.locals) (count : args.length = key.sig.arity + 1)
    (small : args.length ≤ 65536) (fresh : f.stack = [])
    (code : f.method.code.drop f.pc = forwardingCode owner key) (fuel : Nat) :
    m.run (fuel + 2 + args.length) f e =
      match m.callNative f.cls .special ⟨owner, key.name, key.sig⟩ args e with
      | .ok value e' => .ok (if key.sig.returnsValue then value else .null) e'
      | .error stop e' => .error stop e' := by
  obtain ⟨loads, invokes, returns⟩ := getElem?_forwardingCode owner key
  have behind (i : Nat) : f.method.code[f.pc + i]? = (forwardingCode owner key)[i]? := by
    rw [← code, List.getElem?_drop]
  have first : f = loaded f args 0 := by
    unfold loaded
    rw [Nat.add_zero, List.take_zero, List.reverse_nil, ← fresh]
  have loading (i : Nat) (lt : i < args.length) :
      f.method.code[f.pc + i]? = some (.load (UInt16.ofNat i)) := by
    rw [behind, loads i (by omega)]
  have start : m.run (fuel + 2 + args.length) f e =
      m.run (fuel + 2) (loaded f args args.length) e := by
    have all := run_loads (m := m) (e := e) f locals small loading (fuel + 2)
      (i := 0) (Nat.zero_add args.length)
    rw [← first] at all
    exact all
  let ref : MethodRef := ⟨owner, key.name, key.sig⟩
  have invoke : (loaded f args args.length).instr? = some (.invoke .special ref) := by
    show f.method.code[f.pc + args.length]? = _
    rw [behind, count, invokes]
  have popped : (loaded f args args.length).popMany (InvokeKind.special.argCount ref) =
      .ok (args, { loaded f args args.length with stack := [] }) := by
    have all : InvokeKind.special.argCount ref = args.length := count.symm
    have whole : args.reverse.take args.length = args.reverse :=
      List.take_of_length_le (Nat.le_of_eq List.length_reverse)
    unfold Frame.popMany loaded
    rw [all, List.take_length]
    simp [whole]
  have executes : m.execute (.invoke .special ref) (loaded f args args.length) e =
      match m.callNative f.cls .special ref args e with
      | .ok value e' => .ok (.next, { loaded f args args.length with
          stack := if key.sig.returnsValue then [value] else [] }) e'
      | .error stop e' => .error stop e' := by
    show (m.invokeHost .special ref >>= fun _ => pure Flow.next) _ e = _
    unfold invokeHost Step.popMany
    rw [Step.bind_apply, Step.onFrame_bind, popped]
    dsimp only
    rw [Step.get_bind, Step.lift_bind]
    have cls : (loaded f args args.length).cls = f.cls := rfl
    have sig : ref.sig = key.sig := rfl
    dsimp only
    rw [cls, sig]
    cases m.callNative f.cls .special ref args e with
    | error stop e' => rfl
    | ok value e' =>
      unfold Step.pushResult
      cases key.sig.returnsValue <;> rfl
  rw [start, show fuel + 2 = fuel + 1 + 1 from rfl, run_succ invoke, executes]
  cases m.callNative f.cls .special ref args e with
  | error stop e' => rfl
  | ok value e' =>
    refine run_return ?_ rfl fuel
    show f.method.code[f.pc + args.length + 1]? = _
    rw [Nat.add_assoc, behind, count, returns]

end Machine

end LiveUpdate
