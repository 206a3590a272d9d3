import LiveUpdate.Proofs.Forwarding

/-!
# Redirection

The body that a call enters may not be the one that runs.  A check in front of it can call
something else in its place, and a catcher calls an inherited method.  This module follows
a call to the body that runs in the end, and proves that the machine runs that body.
-/

set_option autoImplicit false

namespace LiveUpdate

open Exec

/-- The reference that a generated catcher forwards to. -/
def Method.caughtRef? (m : Method) : Option MethodRef :=
  match m.code with
  | .entryCheck _ _ :: rest =>
    match rest[m.key.sig.arity + 1]? with
    | some (.invoke .special ref) =>
      if m.modifiers.contains .catcherBit ∧ rest = forwardingCode ref.owner m.key ∧
          m.key.sig.arity < 65536 then some ref
      else none
    | _ => none
  | _ => none

/-- How a call of a body goes on. -/
inductive Turn
  /-- With the body. -/
  | runs
  /-- With a method of an executor. -/
  | executes (b : Body)
  /-- With what the live version of a managed type inherits. -/
  | inherits (t : TypeRef)
  /-- With the method that a catcher forwards to. -/
  | forwards (ref : MethodRef)
  /-- Not at all. -/
  | fails
deriving DecidableEq

namespace Engine

variable (e : Engine) (s : ScopeRef)

/-- The managed type and the slot that the check in front of a body names, if the body stands
in the host class of the type. -/
def checkedSlot? (b : Body) : Option (TypeRef × Nat) :=
  match b.method.code with
  | .entryCheck id slot :: _ =>
    match e.typeWithId? s id with
    | some t => if (e.typeAt t).native = some b.cls then some (t, slot.toNat) else none
    | none => none
  | _ => none

/-- How a call goes on that the check lets pass.  What a catcher forwards to stands in a class
that was defined before its own. -/
def passedTurn (b : Body) : Turn :=
  match b.method.caughtRef? with
  | some ref => if (e.class? s ref.owner).any fun c => c < b.cls then .forwards ref else .runs
  | none => .runs

/-- How a call with a number of arguments goes on that has entered a body. -/
def enteredTurn (b : Body) (count : Nat) : Turn :=
  match e.checkedSlot? s b with
  | none => .runs
  | some (t, slot) =>
    match (e.typeAt t).published with
    | none => e.passedTurn s b
    | some version =>
      match version.dispatch.entry? slot with
      | none | some .host => e.passedTurn s b
      | some (.executor method) =>
        match version.executor? with
        | none => .fails
        | some executor => if method.argCount = count then .executes ⟨executor, method⟩ else .fails
      | some .deleted => if b.method.isConstructor then .fails else .inherits t
      | some .abstract => .fails

/-- How a call goes on that is made on an object, for a member with a signature. -/
def turn (sig : MethodSig) (b : Body) : Turn :=
  if b.method.isAbstract ∨ b.method.argCount ≠ sig.arity + 1 then .fails
  else if b.method.isStatic then .runs
  else e.enteredTurn s b (sig.arity + 1)

/-- Where a call ends that starts with a body, or with nothing: in the body that runs, or in
nothing. -/
inductive Arrives (sig : MethodSig) : Option Body → Option Body → Prop
  | nothing : Arrives sig none none
  | runs {b : Body} (turn : e.turn s sig b = .runs) : Arrives sig (some b) (some b)
  | executes {b b' : Body} {found : Option Body} (turn : e.turn s sig b = .executes b')
      (rest : Arrives sig (some b') found) : Arrives sig (some b) found
  | inherits {b : Body} {t : TypeRef} {found : Option Body} (turn : e.turn s sig b = .inherits t)
      (rest : Arrives sig (e.inheritedBody s t b.method.key) found) : Arrives sig (some b) found
  | forwards {b : Body} {ref : MethodRef} {found : Option Body}
      (turn : e.turn s sig b = .forwards ref) (named : ref.sig = sig)
      (rest : Arrives sig (e.forwardedBody s b.cls ref) found) : Arrives sig (some b) found
  | fails {b : Body} (turn : e.turn s sig b = .fails) : Arrives sig (some b) none

variable {e s}

/-- A call ends in one way. -/
theorem Arrives.unique {sig : MethodSig} {start found other : Option Body}
    (arrives : e.Arrives s sig start found) (again : e.Arrives s sig start other) :
    found = other := by
  induction arrives with
  | nothing =>
    cases again
    rfl
  | runs turn => cases again <;> simp_all
  | executes turn _ ih =>
    cases again with
    | executes turn' rest =>
      rw [turn] at turn'
      cases turn'
      exact ih rest
    | _ => simp_all
  | inherits turn _ ih =>
    cases again with
    | inherits turn' rest =>
      rw [turn] at turn'
      cases turn'
      exact ih rest
    | _ => simp_all
  | forwards turn _ _ ih =>
    cases again with
    | forwards turn' _ rest =>
      rw [turn] at turn'
      cases turn'
      exact ih rest
    | _ => simp_all
  | fails turn => cases again <;> simp_all

/-- A check in the host class of its type names the type and the slot. -/
theorem checkedSlot?_eq_some {b : Body} {t : TypeRef} {slot : Nat}
    (checked : e.checkedSlot? s b = some (t, slot)) : ∃ id slot' rest,
      b.method.code = .entryCheck id slot' :: rest ∧ slot'.toNat = slot ∧
        e.typeWithId? s id = some t ∧ (e.typeAt t).native = some b.cls := by
  unfold checkedSlot? at checked
  split at checked
  next id slot' rest code =>
    split at checked
    next t' registered =>
      split at checked
      next native =>
        cases checked
        exact ⟨id, slot', rest, code, rfl, registered, native⟩
      · cases checked
    · cases checked
  · cases checked

/-- A call that the check lets pass goes on with the body, or to what a catcher forwards to. -/
theorem passedTurn_cases (e : Engine) (s : ScopeRef) (b : Body) : e.passedTurn s b = .runs ∨
    ∃ ref, e.passedTurn s b = .forwards ref ∧ b.method.caughtRef? = some ref ∧
      ∃ owner, e.class? s ref.owner = some owner ∧ owner < b.cls := by
  unfold passedTurn
  cases caught : b.method.caughtRef? with
  | none => exact .inl rfl
  | some ref =>
    dsimp only
    split
    next earlier =>
      obtain ⟨owner, known, lt⟩ := (Option.any_eq_true _ _).1 earlier
      exact .inr ⟨ref, rfl, rfl, owner, known, by simpa using lt⟩
    · exact .inl rfl

/-- What the dispatch table says when a call goes on in a way of its own. -/
theorem enteredTurn_cases {b : Body} {count : Nat} {turn : Turn}
    (turns : e.enteredTurn s b count = turn) : turn = .runs ∨ ∃ id t slot,
      e.checkedSlot? s b = some (t, slot) ∧ e.typeWithId? s id = some t ∧
      (e.typeAt t).native = some b.cls ∧ (turn = e.passedTurn s b ∨
        ∃ version, (e.typeAt t).published = some version ∧
          ((∃ method executor, turn = .executes ⟨executor, method⟩ ∧
              version.dispatch.entry? slot = some (.executor method) ∧
              version.executor? = some executor ∧ method.argCount = count) ∨
            (turn = .inherits t ∧ version.dispatch.entry? slot = some .deleted ∧
              b.method.isConstructor = false) ∨ turn = .fails)) := by
  subst turns
  unfold enteredTurn
  cases checked : e.checkedSlot? s b with
  | none => exact .inl rfl
  | some found =>
    obtain ⟨t, slot⟩ := found
    obtain ⟨id, -, -, -, -, registered, native⟩ := checkedSlot?_eq_some checked
    refine .inr ⟨id, t, slot, rfl, registered, native, ?_⟩
    dsimp only
    cases published : (e.typeAt t).published with
    | none => exact .inl rfl
    | some version =>
      dsimp only
      cases entry : version.dispatch.entry? slot with
      | none => exact .inl rfl
      | some found =>
        cases found with
        | host => exact .inl rfl
        | abstract => exact .inr ⟨version, rfl, .inr (.inr rfl)⟩
        | deleted =>
          dsimp only
          cases constructs : b.method.isConstructor with
          | true => exact .inr ⟨version, rfl, .inr (.inr rfl)⟩
          | false => exact .inr ⟨version, rfl, .inr (.inl ⟨rfl, entry, rfl⟩)⟩
        | executor method =>
          dsimp only
          cases some_x : version.executor? with
          | none => exact .inr ⟨version, rfl, .inr (.inr rfl)⟩
          | some executor =>
            dsimp only
            by_cases fits : method.argCount = count
            · rw [if_pos fits]
              exact .inr ⟨version, rfl, .inl ⟨method, executor, rfl, entry, some_x, fits⟩⟩
            · rw [if_neg fits]
              exact .inr ⟨version, rfl, .inr (.inr rfl)⟩

/-- A call that goes on with what a type inherits has entered the host class of the type. -/
theorem enteredTurn_eq_inherits {b : Body} {count : Nat} {t : TypeRef}
    (turns : e.enteredTurn s b count = .inherits t) : b.method.isConstructor = false ∧
      (∃ id, e.typeWithId? s id = some t) ∧ (e.typeAt t).native = some b.cls := by
  rcases enteredTurn_cases turns with runs | ⟨id, t', slot, -, registered, native, passed | ⟨version,
      -, ⟨method, executor, executes, -⟩ | ⟨inherits, -, plain⟩ | fails⟩⟩
  · cases runs
  · rcases passedTurn_cases e s b with runs | ⟨ref, forwards, -⟩
    · cases passed.trans runs
    · cases passed.trans forwards
  · cases executes
  · cases inherits
    exact ⟨plain, ⟨id, registered⟩, native⟩
  · cases fails

/-- A call that goes on in an executor has met the method in a dispatch table. -/
theorem enteredTurn_eq_executes {b b' : Body} {count : Nat}
    (turns : e.enteredTurn s b count = .executes b') : ∃ id t version slot,
      e.typeWithId? s id = some t ∧ (e.typeAt t).native = some b.cls ∧
      (e.typeAt t).published = some version ∧
      version.dispatch.entry? slot = some (.executor b'.method) ∧
      version.executor? = some b'.cls := by
  rcases enteredTurn_cases turns with runs | ⟨id, t', slot, -, registered, native, passed | ⟨version,
      published, ⟨method, executor, executes, entry, some_x, -⟩ | ⟨inherits, -⟩ | fails⟩⟩
  · cases runs
  · rcases passedTurn_cases e s b with runs | ⟨ref, forwards, -⟩
    · cases passed.trans runs
    · cases passed.trans forwards
  · cases executes
    exact ⟨id, t', version, slot, registered, native, published, entry, some_x⟩
  · cases inherits
  · cases fails

/-- A call that is forwarded goes to a class that was defined before. -/
theorem enteredTurn_eq_forwards {b : Body} {count : Nat} {ref : MethodRef}
    (turns : e.enteredTurn s b count = .forwards ref) : b.method.caughtRef? = some ref ∧
      ∃ owner, e.class? s ref.owner = some owner ∧ owner < b.cls := by
  rcases enteredTurn_cases turns with runs | ⟨id, t', slot, -, registered, native, passed | ⟨version,
      published, ⟨method, executor, executes, -⟩ | ⟨inherits, -⟩ | fails⟩⟩
  · cases runs
  · rcases passedTurn_cases e s b with runs | ⟨ref', forwards, caught, earlier⟩
    · cases passed.trans runs
    · cases passed.trans forwards
      exact ⟨caught, earlier⟩
  · cases executes
  · cases inherits
  · cases fails

end Engine

namespace Machine

variable {s : ScopeRef} {n : Nat} {e : Engine}

/-- What runs in the place of a body with a check, when a call of the body goes on like
this. -/
def Replaces (m : Machine) (b : Body) (args : List Value) : Turn → Option (Run Value) → Prop
  | .runs, _ => True
  | .forwards ref, x => b.method.caughtRef? = some ref ∧ x = none
  | .executes b', x => x = some (m.call b'.cls b'.method args)
  | .inherits t, x => x = some (m.callInherited t b.method.key args)
  | .fails, x => ∃ error, x = some (fail error)

theorem replaces_passedTurn (m : Machine) (b : Body) (args : List Value) :
    m.Replaces b args (e.passedTurn s b) none := by
  unfold Engine.passedTurn
  cases caught : b.method.caughtRef? with
  | none => exact trivial
  | some ref =>
    dsimp only
    split
    · exact ⟨caught, rfl⟩
    · exact trivial

/-- A check calls in the place of the body behind it what the live version says. -/
theorem replaces_enteredTurn {m : Machine} {b : Body} {args : List Value} {id : TypeId}
    {slot : UInt32} {rest : List Instr} (code : b.method.code = .entryCheck id slot :: rest)
    (receives : b.method.isStatic = false) :
    m.Replaces b args (e.enteredTurn m.scope b args.length)
      (m.replacement? e id slot.toNat b.method args) := by
  unfold Engine.enteredTurn
  cases checked : e.checkedSlot? m.scope b with
  | none => exact trivial
  | some found =>
    obtain ⟨t, slot'⟩ := found
    obtain ⟨id', slot'', rest', code', rfl, registered, -⟩ := Engine.checkedSlot?_eq_some checked
    rw [code] at code'
    cases code'
    unfold replacement?
    rw [registered]
    dsimp only [Option.bind_eq_bind, Option.bind_some]
    cases (e.typeAt t).published with
    | none => exact replaces_passedTurn m b args
    | some version =>
      dsimp only [Option.bind_some]
      cases version.dispatch.entry? slot.toNat with
      | none => exact replaces_passedTurn m b args
      | some entry =>
        dsimp only [Option.bind_some]
        cases entry with
        | host => exact replaces_passedTurn m b args
        | abstract => exact ⟨_, rfl⟩
        | deleted =>
          dsimp only
          rw [receives, Bool.false_or]
          split
          · exact ⟨_, rfl⟩
          · exact rfl
        | executor method =>
          dsimp only
          cases version.executor? with
          | none => exact ⟨_, rfl⟩
          | some executor =>
            dsimp only
            by_cases fits : method.argCount = args.length
            · rw [if_pos fits, if_neg (not_not_intro fits.symm)]
              exact rfl
            · rw [if_neg fits, if_pos (Ne.symm fits)]
              exact ⟨_, rfl⟩

end Machine

/-- The code of a method that forwards is a check and forwarding code. -/
theorem Method.caughtRef?_eq_some {m : Method} {ref : MethodRef} (caught : m.caughtRef? = some ref) :
    ∃ id slot, m.code = .entryCheck id slot :: forwardingCode ref.owner m.key ∧
      ref = ⟨ref.owner, m.key.name, m.key.sig⟩ ∧ m.key.sig.arity < 65536 := by
  unfold caughtRef? at caught
  split at caught
  next id slot rest code =>
    split at caught
    next ref' invokes =>
      split at caught
      next generated =>
        obtain rfl : ref' = ref := Option.some.inj caught
        obtain ⟨-, forwards, small⟩ := generated
        obtain ⟨-, invokes', -⟩ := Machine.getElem?_forwardingCode ref'.owner m.key
        rw [forwards, invokes'] at invokes
        have same := (Instr.invoke.inj (Option.some.inj invokes)).2
        exact ⟨id, slot, by rw [code, forwards], same.symm, small⟩
      · cases caught
    · cases caught
  · cases caught

/-- A result as a caller takes it: null, if the method gives none. -/
def taken (sig : MethodSig) (made : EStateM.Result (Stop RunError) Engine Value) :
    EStateM.Result (Stop RunError) Engine Value :=
  match made with
  | .ok value e => .ok (if sig.returnsValue then value else .null) e
  | .error stop e => .error stop e

/-- A call as a catcher makes it. -/
def taking (sig : MethodSig) (x : Run Value) : Run Value := fun e => taken sig (x e)

/-- The first computation goes on as the second one, behind a number of catchers.  It is made
at another depth, and there must be room for the catchers. -/
structure GoesOn (e : Engine) (s : ScopeRef) (sig : MethodSig) (catchers : Nat)
    (x y : Run Value) : Prop where
  runs : ∀ depth, depth + catchers < (e.scopeAt s).options.maxCallDepth →
    taken sig (x { e with depth }) = taken sig (Machine.atDepth (· + catchers) y { e with depth })
  overflows : ∀ depth, (e.scopeAt s).options.maxCallDepth ≤ depth + catchers →
    Fails (x { e with depth })

namespace GoesOn

variable {e : Engine} {s : ScopeRef} {sig : MethodSig} {catchers : Nat} {x y z : Run Value}

/-- A check in front counts for nothing. -/
theorem checked (goes : GoesOn e s sig catchers y z)
    (check : ∀ depth, x { e with depth } =
      if (e.scopeAt s).options.maxCallDepth ≤ depth then
        .error (.error (.stackOverflow depth)) { e with depth }
      else y { e with depth }) : GoesOn e s sig catchers x z where
  runs depth room := by
    have open_ : ¬ (e.scopeAt s).options.maxCallDepth ≤ depth := by omega
    rw [check, if_neg open_]
    exact goes.runs depth room
  overflows depth full := by
    rw [check]
    split
    · exact ⟨_, _, rfl⟩
    · exact goes.overflows depth full

/-- A catcher in front counts for one. -/
theorem caught (goes : GoesOn e s sig catchers y z)
    (check : ∀ depth, x { e with depth } =
      if (e.scopeAt s).options.maxCallDepth ≤ depth then
        .error (.error (.stackOverflow depth)) { e with depth }
      else Machine.atDepth (· + 1) (taking sig y) { e with depth }) :
    GoesOn e s sig (catchers + 1) x z where
  runs depth room := by
    have open_ : ¬ (e.scopeAt s).options.maxCallDepth ≤ depth := by omega
    have inner := goes.runs (depth + 1) (by omega)
    rw [check, if_neg open_, Machine.atDepth_apply, Machine.atDepth_apply]
    rw [Machine.atDepth_apply] at inner
    dsimp only [taking] at inner ⊢
    rw [inner, show depth + (catchers + 1) = depth + 1 + catchers by omega]
    cases z { e with depth := depth + 1 + catchers } with
    | error stop e' => rfl
    | ok value e' =>
      unfold taken
      dsimp only
      cases sig.returnsValue <;> rfl
  overflows depth full := by
    rw [check]
    split
    · exact ⟨_, _, rfl⟩
    · obtain ⟨stop, e', fails⟩ := goes.overflows (depth + 1) (by omega)
      rw [Machine.atDepth_apply]
      dsimp only [taking]
      rw [fails]
      exact ⟨_, _, rfl⟩

end GoesOn

namespace Machine

variable {s : ScopeRef} {e : Engine}

/-- A computation at the depth at which it is made anyway. -/
theorem atDepth_of_eq {g : Nat → Nat} {x : Run Value} (hx : Keeps Engine.skeleton x)
    (same : g e.depth = e.depth) : atDepth g x e = x e := by
  have kept := hx e
  have back : { e with depth := e.depth } = e := rfl
  rw [atDepth_apply, same, back]
  unfold final at kept
  cases made : x e with
  | ok value e' =>
    rw [made] at kept
    rw [← Engine.depth_of_skeleton_eq kept]
  | error stop e' =>
    rw [made] at kept
    rw [← Engine.depth_of_skeleton_eq kept]

/-- No call is made when too many are running. -/
theorem fails_call_full (n : Nat) (c : ClassRef) (method : Method) (args : List Value)
    (full : (e.scopeAt s).options.maxCallDepth ≤ e.depth) :
    Fails ((Machine.of s n).call c method args e) := by
  cases n with
  | zero => exact ⟨_, _, rfl⟩
  | succ n =>
    have deeper (e' : Engine) (same : e'.skeleton = e.skeleton) (frame : Frame) :
        Fails ((Machine.of s n).runDeeper n frame e') := by
      have full' : (e'.scopeAt (Machine.of s n).scope).options.maxCallDepth ≤ e'.depth := by
        rw [scope_of, Engine.options_of_skeleton_eq same, Engine.depth_of_skeleton_eq same]
        exact full
      unfold runDeeper
      rw [if_pos full']
      exact ⟨_, _, rfl⟩
    show Fails ((Machine.of s n).enter n c method args e)
    by_cases abstract : method.isAbstract = true
    · rw [enter_abstract n c args abstract]
      exact ⟨_, _, rfl⟩
    have concrete : method.isAbstract = false := by simpa using abstract
    by_cases fits : args.length = method.argCount
    · rw [enter_eq n c concrete fits]
      unfold enterBody
      split
      · rw [bind_apply]
        have kept := keeps_ensureInitialized (keepsSkeleton_of s n) c e
        unfold final at kept
        cases made : (Machine.of s n).ensureInitialized c e with
        | error stop e' => exact ⟨_, _, rfl⟩
        | ok done e' =>
          rw [made] at kept
          exact deeper e' kept _
      · exact deeper e rfl _
    · rw [enter_misfit n c concrete fits]
      exact ⟨_, _, rfl⟩

/-- A call goes on as itself. -/
theorem goesOn_self (sig : MethodSig) (n : Nat) (b : Body) (args : List Value) :
    GoesOn e s sig 0 ((Machine.of s n).call b.cls b.method args)
      ((Machine.of s n).call b.cls b.method args) where
  runs depth _ := by rw [atDepth_of_eq (keepsSkeleton_of s n _ _ _) rfl]
  overflows depth full := fails_call_full n b.cls b.method args full

/-- With enough fuel a computation goes on as the call of a body, or it fails if there is
none. -/
def EndsIn (e : Engine) (s : ScopeRef) (sig : MethodSig) (args : List Value)
    (x : Nat → Run Value) : Option Body → Prop
  | none => ∀ k, sig.arity + 4 ≤ k → ∀ depth, Fails (x k { e with depth })
  | some last => ∃ catchers fuel, ∀ k, sig.arity + 4 ≤ k →
      GoesOn e s sig catchers (x k) ((Machine.of s (fuel + k)).call last.cls last.method args)

variable {sig : MethodSig} {args : List Value} {x y : Nat → Run Value} {found : Option Body}

theorem EndsIn.checked (ends : EndsIn e s sig args y found)
    (check : ∀ k, sig.arity + 4 ≤ k → ∀ depth, x k { e with depth } =
      if (e.scopeAt s).options.maxCallDepth ≤ depth then
        .error (.error (.stackOverflow depth)) { e with depth }
      else y k { e with depth }) : EndsIn e s sig args x found := by
  cases found with
  | none =>
    intro k enough depth
    rw [check k enough]
    split
    · exact ⟨_, _, rfl⟩
    · exact ends k enough depth
  | some last =>
    obtain ⟨catchers, fuel, goes⟩ := ends
    exact ⟨catchers, fuel, fun k enough => (goes k enough).checked (check k enough)⟩

theorem EndsIn.caught (ends : EndsIn e s sig args y found)
    (check : ∀ k, sig.arity + 4 ≤ k → ∀ depth, x k { e with depth } =
      if (e.scopeAt s).options.maxCallDepth ≤ depth then
        .error (.error (.stackOverflow depth)) { e with depth }
      else atDepth (· + 1) (taking sig (y k)) { e with depth }) :
    EndsIn e s sig args x found := by
  cases found with
  | none =>
    intro k enough depth
    rw [check k enough]
    split
    · exact ⟨_, _, rfl⟩
    · obtain ⟨stop, e', fails⟩ := ends k enough (depth + 1)
      rw [atDepth_apply]
      dsimp only [taking]
      rw [fails]
      exact ⟨_, _, rfl⟩
  | some last =>
    obtain ⟨catchers, fuel, goes⟩ := ends
    exact ⟨catchers + 1, fuel, fun k enough => (goes k enough).caught (check k enough)⟩

theorem EndsIn.congr (ends : EndsIn e s sig args y found)
    (same : ∀ k, sig.arity + 4 ≤ k → ∀ depth, x k { e with depth } = y k { e with depth }) :
    EndsIn e s sig args x found := by
  cases found with
  | none =>
    intro k enough depth
    rw [same k enough depth]
    exact ends k enough depth
  | some last =>
    obtain ⟨catchers, fuel, goes⟩ := ends
    refine ⟨catchers, fuel, fun k enough => ⟨fun depth room => ?_, fun depth full => ?_⟩⟩
    · rw [same k enough depth]
      exact (goes k enough).runs depth room
    · rw [same k enough depth]
      exact (goes k enough).overflows depth full

/-- A body that a call on an object enters behind its check. -/
structure Enters (sig : MethodSig) (b : Body) (id : TypeId) (slot : UInt32) (behind : List Instr) :
    Prop where
  code : b.method.code = .entryCheck id slot :: behind
  concrete : b.method.isAbstract = false
  receives : b.method.isStatic = false
  fits : b.method.argCount = sig.arity + 1

/-- A call on an object goes on with something else only behind a check. -/
theorem enters_of_turn {b : Body} {turn : Turn} (turns : e.turn s sig b = turn)
    (onward : turn ≠ .runs) : (b.method.isAbstract = true ∨ b.method.argCount ≠ sig.arity + 1) ∧
        turn = .fails ∨
      turn = e.enteredTurn s b (sig.arity + 1) ∧ ∃ id slot behind, Enters sig b id slot behind := by
  subst turns
  unfold Engine.turn at onward ⊢
  by_cases refused : b.method.isAbstract = true ∨ b.method.argCount ≠ sig.arity + 1
  · exact .inl ⟨refused, if_pos refused⟩
  · rw [if_neg refused] at onward ⊢
    obtain ⟨concrete, fits⟩ := not_or.mp refused
    cases receives : b.method.isStatic with
    | true =>
      rw [receives] at onward
      exact absurd rfl onward
    | false =>
      rw [receives] at onward
      simp only [Bool.false_eq_true, if_false] at onward ⊢
      refine .inr ⟨trivial, ?_⟩
      cases checked : e.checkedSlot? s b with
      | none =>
        unfold Engine.enteredTurn at onward
        rw [checked] at onward
        exact absurd rfl onward
      | some found =>
        obtain ⟨id, slot, behind, code, -, -, -⟩ := Engine.checkedSlot?_eq_some checked
        exact ⟨id, slot, behind, code, by simpa using concrete, receives,
          Decidable.not_not.mp fits⟩

variable {b : Body} {o : ObjectRef} {rest : List Value} {id : TypeId} {slot : UInt32}
  {behind : List Instr}

/-- What the machine does with a call of a body that begins with a check. -/
theorem Enters.call (enters : Enters sig b id slot behind) (count : rest.length = sig.arity)
    (n : Nat) {k : Nat} (enough : 1 ≤ k) (depth : Nat) :
    (Machine.of s (n + 1 + k)).call b.cls b.method (.object o :: rest) { e with depth } =
      if (e.scopeAt s).options.maxCallDepth ≤ depth then
        .error (.error (.stackOverflow depth)) { e with depth }
      else match (Machine.of s (n + k)).replacement? e id slot.toNat b.method
          (.object o :: rest) with
        | some x => x { e with depth }
        | none => atDepth (· + 1) ((Machine.of s (n + k)).run (n + k - 1)
            ((Frame.enter b.cls b.method (.object o :: rest)).goTo 1)) { e with depth } := by
  have length : (Value.object o :: rest).length = sig.arity + 1 := by rw [List.length_cons, count]
  have outer : n + 1 + k = n + k - 1 + 2 := by omega
  have inner : n + k - 1 + 1 = n + k := by omega
  have checked := call_checked (s := s) (c := b.cls) enters.code enters.concrete enters.receives
    (show (Value.object o :: rest).length = b.method.argCount by rw [length, enters.fits])
    (n + k - 1) { e with depth }
  rw [← outer, inner] at checked
  exact checked

/-- What the check calls in the place of the body. -/
theorem Enters.replaces (enters : Enters sig b id slot behind) (count : rest.length = sig.arity)
    {turn : Turn} (turns : turn = e.enteredTurn s b (sig.arity + 1)) (n k : Nat) :
    (Machine.of s (n + k)).Replaces b (.object o :: rest) turn
      ((Machine.of s (n + k)).replacement? e id slot.toNat b.method (.object o :: rest)) := by
  have length : (Value.object o :: rest).length = sig.arity + 1 := by rw [List.length_cons, count]
  have replaces : (Machine.of s (n + k)).Replaces b (.object o :: rest)
      (e.enteredTurn s b (Value.object o :: rest).length)
      ((Machine.of s (n + k)).replacement? e id slot.toNat b.method (.object o :: rest)) :=
    replaces_enteredTurn enters.code enters.receives
  rw [length] at replaces
  rw [turns]
  exact replaces

/-- Running a catcher is making its call. -/
theorem run_catcher (count : rest.length = sig.arity)
    {ref : MethodRef} (caught : b.method.caughtRef? = some ref) (named : ref.sig = sig)
    (n : Nat) {k : Nat} (enough : sig.arity + 4 ≤ k) (e' : Engine) :
    (Machine.of s (n + k)).run (n + k - 1)
        ((Frame.enter b.cls b.method (.object o :: rest)).goTo 1) e' =
      taking sig ((Machine.of s (n + k)).callNative b.cls .special ref (.object o :: rest)) e' := by
  obtain ⟨id', slot', forwards, same, small⟩ := Method.caughtRef?_eq_some caught
  have sigs : b.method.key.sig = sig := by
    rw [← named, same]
  have arity : b.method.key.sig.arity = sig.arity := by rw [sigs]
  have length : (Value.object o :: rest).length = sig.arity + 1 := by rw [List.length_cons, count]
  have behind : b.method.code.drop 1 = forwardingCode ref.owner b.method.key := by
    rw [forwards]
    rfl
  have count' : (Value.object o :: rest).length = b.method.key.sig.arity + 1 := by
    rw [length, arity]
  have fuel : n + k - 1 = n + k - sig.arity - 4 + 2 + (Value.object o :: rest).length := by
    rw [length]
    omega
  rw [fuel, run_forwardingCode _ (List.prefix_append _ _) count' (by omega) rfl behind, sigs,
    ← sigs, ← same]
  rfl

/-- What calls a body, or fails if there is none, ends where the call of the body ends. -/
theorem endsIn_of_arrives (statics : e.StaticsMisfit s) (count : rest.length = sig.arity)
    {start : Option Body} (arrives : e.Arrives s sig start found) :
    ∃ n, ∀ x : Nat → Run Value,
      (∀ k depth, (Machine.of s (n + k)).Calls { e with depth } (.object o :: rest)
        (x k { e with depth }) start) → EndsIn e s sig (.object o :: rest) x found := by
  induction arrives with
  | nothing => exact ⟨0, fun x calls k _ depth => calls k depth⟩
  | @runs b turn =>
    have itself : EndsIn e s sig (.object o :: rest)
        (fun k => (Machine.of s (0 + k)).call b.cls b.method (.object o :: rest)) (some b) :=
      ⟨0, 0, fun k _ => goesOn_self sig (0 + k) b _⟩
    exact ⟨0, fun x calls => itself.congr fun k _ depth => calls k depth⟩
  | @executes b b' found turn _ ih =>
    obtain ⟨n, ends⟩ := ih
    refine ⟨n + 1, fun x calls => ?_⟩
    obtain ⟨-, fails⟩ | ⟨turns, id, slot, behind, enters⟩ := enters_of_turn turn (by simp)
    · cases fails
    have inner := ends (fun k => (Machine.of s (n + k)).call b'.cls b'.method (.object o :: rest))
      fun k depth => rfl
    refine (inner.checked fun k enough depth => ?_).congr fun k _ depth => calls k depth
    have replaced : (Machine.of s (n + k)).replacement? e id slot.toNat b.method
        (.object o :: rest) = some _ := enters.replaces count turns n k
    rw [enters.call count n (by omega), replaced]
  | @inherits b t found turn _ ih =>
    obtain ⟨n, ends⟩ := ih
    refine ⟨n + 1, fun x calls => ?_⟩
    obtain ⟨-, fails⟩ | ⟨turns, id, slot, behind, enters⟩ := enters_of_turn turn (by simp)
    · cases fails
    have inner := ends (fun k => (Machine.of s (n + k)).callInherited t b.method.key
      (.object o :: rest)) fun k depth => ?_
    · refine (inner.checked fun k enough depth => ?_).congr fun k _ depth => calls k depth
      have replaced : (Machine.of s (n + k)).replacement? e id slot.toNat b.method
          (.object o :: rest) = some _ := enters.replaces count turns n k
      rw [enters.call count n (by omega), replaced]
    · have arity : (Value.object o :: rest).length = b.method.key.sig.arity + 1 := by
        have fits := enters.fits
        unfold Method.argCount at fits
        rw [enters.receives] at fits
        simp only [Bool.false_eq_true, if_false] at fits
        rw [List.length_cons, count, ← fits]
      have plain : b.method.key.isConstructor = false :=
        (Engine.enteredTurn_eq_inherits turns.symm).1
      have body : ({ e with depth } : Engine).inheritedBody s t b.method.key =
          e.inheritedBody s t b.method.key := e.inheritedBody_setDepth s depth _ t
      rw [← body]
      refine calls_callInherited fun _ id t registered => ?_
      rw [arity]
      exact statics id t registered _ plain
  | @forwards b ref found turn named _ ih =>
    obtain ⟨n, ends⟩ := ih
    refine ⟨n + 1, fun x calls => ?_⟩
    obtain ⟨-, fails⟩ | ⟨turns, id, slot, behind, enters⟩ := enters_of_turn turn (by simp)
    · cases fails
    have inner := ends (fun k => (Machine.of s (n + k)).callNative b.cls .special ref
      (.object o :: rest)) fun k depth => calls_callNative_special
    refine (inner.caught fun k enough depth => ?_).congr fun k _ depth => calls k depth
    obtain ⟨caught, replaced⟩ := enters.replaces (s := s) (o := o) count turns n k
    rw [enters.call count n (by omega), replaced]
    dsimp only
    rw [atDepth_apply, atDepth_apply, run_catcher count caught named n enough]
  | @fails b turn =>
    refine ⟨1, fun x calls k _ depth => ?_⟩
    have call : x k { e with depth } =
      (Machine.of s (0 + 1 + k)).call b.cls b.method (.object o :: rest) { e with depth } :=
        calls k depth
    rw [call]
    obtain ⟨refused, -⟩ | ⟨turns, id, slot, behind, enters⟩ := enters_of_turn turn (by simp)
    · refine fails_call_refused b.cls ?_ _
      rw [List.length_cons, count]
      exact refused
    · obtain ⟨error, replaced⟩ := enters.replaces (s := s) (o := o) count turns 0 k
      rw [enters.call count 0 (by omega), replaced]
      split
      · exact ⟨_, _, rfl⟩
      · exact ⟨_, _, rfl⟩

/-- A virtual call by live versions ends where the call of the body ends that they select. -/
theorem endsIn_callVirtual (statics : e.StaticsMisfit s) {c : ClassRef} {key : MemberKey}
    (plain : key.isConstructor = false) (count : rest.length = key.sig.arity)
    (arrives : e.Arrives s key.sig (e.selectedBody s c key) found) :
    ∃ n, EndsIn e s key.sig (.object o :: rest)
      (fun k => (Machine.of s (n + k)).callVirtual c key (.object o :: rest)) found := by
  obtain ⟨n, ends⟩ := endsIn_of_arrives (o := o) statics count arrives
  refine ⟨n, ends _ fun k depth => ?_⟩
  have selected : ({ e with depth } : Engine).selectedBody s c key = e.selectedBody s c key :=
    e.selectedBody_setDepth s depth c key
  rw [← selected]
  refine calls_callVirtual fun id t registered => ?_
  rw [List.length_cons, count]
  exact statics id t registered key plain

end Machine

end LiveUpdate
