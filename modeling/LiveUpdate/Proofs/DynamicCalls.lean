import LiveUpdate.Proofs.SameMethods

/-!
# Calls by live versions and calls as the host links them

Where a reference means one method, by the host and by live versions, a call as the host links it
and a call by live versions end alike, be the receiver null or an object of any class.  But both
take the receiver from the operand stack, where other values can be too.  Such a value is to the
host of another type than the named one if it selects the method, and else as good as an object.
To live versions it is as good as null.
-/

set_option autoImplicit false

namespace LiveUpdate

open Exec

/-- A call on a receiver is made on a value that is neither null nor an object. -/
def IsStray (kind : InvokeKind) (args : List Value) : Prop :=
  kind ≠ .static ∧ ∃ value rest, args = value :: rest ∧ value ≠ .null ∧ ∀ o, value ≠ .object o

/-- A computation fails for want of an object. -/
def MissesObject (r : EStateM.Result (Stop RunError) Engine Value) : Prop :=
  ∃ use e, r = .error (.error (.nullPointer use)) e

/-- What ends like a computation that fails for want of an object fails so too. -/
theorem endsAlike_nullPointer_iff {r : EStateM.Result (Stop RunError) Engine Value} {use : NullUse}
    {e : Engine} : EndsAlike r (.error (.error (.nullPointer use)) e) ↔ MissesObject r := by
  constructor
  · intro alike
    cases r with
    | ok value e' => exact alike.elim
    | error stop e' =>
      cases stop with
      | outOfFuel => exact alike.elim
      | error error =>
        cases error with
        | nullPointer use' => exact ⟨use', e', rfl⟩
        | _ => cases (alike : _ = _)
  · rintro ⟨use', e', rfl⟩
    rfl

/-- How the first argument of a call can be: there is none, or it is null, an object or a stray
value. -/
theorem receiver_cases {kind : InvokeKind} (receives : kind ≠ .static) (args : List Value) :
    (IsStray kind args ∧ args.head?.all Value.isNull = false) ∨ ¬ IsStray kind args ∧
      (args.head?.all Value.isNull = true ∨ ∃ o rest, args = .object o :: rest) := by
  have usual {value : Value} {rest : List Value} (fits : value = .null ∨ ∃ o, value = .object o) :
      ¬ IsStray kind (value :: rest) := by
    rintro ⟨-, value', rest', same, some_, strange⟩
    obtain ⟨rfl, -⟩ := List.cons.inj same
    exact fits.elim some_ fun ⟨o, is⟩ => strange o is
  cases args with
  | nil => exact .inr ⟨(fun ⟨_, _, _, same, _⟩ => nomatch same), .inl rfl⟩
  | cons value rest =>
    cases value with
    | null => exact .inr ⟨usual (.inl rfl), .inl rfl⟩
    | object o => exact .inr ⟨usual (.inr ⟨o, rfl⟩), .inr ⟨o, rest, rfl⟩⟩
    | _ => exact .inl ⟨⟨receives, _, rest, rfl, nofun, nofun⟩, rfl⟩

namespace Machine

/-- Run what a virtual call selected. -/
def callSelection (m : Machine) (key : MemberKey) (args : List Value) : Selection → Run Value
  | .live t => m.callLive t key args
  | .host c b => m.call c b args
  | .abstract c => do fail (.abstractMethod s!"{(← get).nameOf c}.{key.text}")

/-- A call by live versions that selects something runs it. -/
theorem callVirtual_selected {m : Machine} {e : Engine} {x : ClassRef} {key : MemberKey}
    {found : Selection} (selects : e.selectVirtual m.scope x key = .ok (some found))
    (args : List Value) : m.callVirtual x key args e = m.callSelection key args found e := by
  have answers (y : Run Value) (next : Option Value → Run Value)
      (passes : ∀ value, next (some value) = pure value) :
      ((some <$> y : Run (Option Value)) >>= next) e = y e := by
    rw [bind_apply, map_apply]
    cases y e with
    | ok value e' => exact congrFun (passes value) e'
    | error stop e' => rfl
  unfold callVirtual dispatchVirtual
  rw [bind_assoc, bind_apply, resolve_apply, selects]
  cases found with
  | live t => exact answers _ _ fun _ => rfl
  | host c b => exact answers _ _ fun _ => rfl
  | abstract c => rfl

end Machine

namespace Engine

variable {e e₀ : Engine} {s : ScopeRef} {caller c x : ClassRef} {kind : InvokeKind}
  {ref : MethodRef} {b : Method} {live : LiveMethod} {key : MemberKey}

/-- The class whose method the host finds for a class of a scope is in the scope. -/
theorem Layered.hostMethod?_homes (layered : e.Layered) (housed : e.Housed) (home : e.Homes s x)
    (found : e.hostMethod? x key = some (c, b)) :
    e.Homes s c ∧ e.ownHostMethod? key c = some (c, b) := by
  obtain ⟨d, mem, own⟩ := List.exists_of_findSome?_eq_some found
  obtain ⟨m, declares, same⟩ := Option.map_eq_some_iff.1 own
  obtain ⟨rfl, rfl⟩ : d = c ∧ m = b := by simpa using same
  refine ⟨?_, own⟩
  split at mem
  · obtain rfl := List.mem_singleton.1 mem
    exact home
  · exact layered.methodOrder_homes housed home d mem

/-- A reference to a method means the same one to the host and to live versions.  They have it
with the same modifiers, the kind of call fits it for both, and the caller may use it. -/
structure MeansOne (e : Engine) (s : ScopeRef) (caller : ClassRef) (kind : InvokeKind)
    (ref : MethodRef) (c : ClassRef) (b : Method) (live : LiveMethod) : Prop where
  found : ∃ owner, e.class? s ref.owner = some owner ∧
    e.hostMethod? owner ref.key = some (c, b) ∧ e.resolveMethod s owner ref.key = .ok (some live)
  host : live.host = some (c, b)
  modifiers : live.modifiers = b.declared
  fits : checkInvokeKind kind ref b.isStatic = .ok ()
  permitted : e.mayUse s caller b.declaring b.declared = true
  replaceable : ∀ t, live.managed = some t → (e.typeAt t).Replaceable ref.key

/-- So both have the method in one class. -/
theorem MeansOne.shares (means : e.MeansOne s caller kind ref c b live) (reachable : e₀.Reachable)
    (during : e₀.During e) : e.SharesMethod s ref.key c b live := by
  have housed := during.housed reachable.housed reachable.grounded
  have layered := during.layered reachable
  obtain ⟨owner, known, linked, resolved⟩ := means.found
  obtain ⟨home, own⟩ := layered.hostMethod?_homes housed ⟨_, known⟩ linked
  obtain ⟨m, declares, same⟩ := Option.map_eq_some_iff.1 own
  obtain rfl : m = b := congrArg Prod.snd same
  refine ⟨home, declares, ?_, means.modifiers, means.replaceable⟩
  rcases resolveMethod_cases resolved with ⟨d, here⟩ | inherited
  · obtain ⟨m', -, same'⟩ :=
      Option.map_eq_some_iff.1 ((host_of_ownLiveMethod? here).symm.trans means.host)
    obtain rfl : d = c := congrArg Prod.fst same'
    exact here
  · obtain ⟨d, m', linked', isInterface, rfl⟩ := interfaceMethod?_eq_some_iff.1 inherited
    obtain ⟨rfl, rfl⟩ : d = c ∧ m' = m := by simpa using linked'.symm.trans linked
    rw [layered.ownLiveMethod?_interface isInterface, declares]
    rfl

/-- Where the host selects a method with a body for receivers of a class, live versions select the
same one. -/
def SelectsSame (e : Engine) (s : ScopeRef) (key : MemberKey) (x : ClassRef) : Prop :=
  ∀ selected, (e.classAt x).vtable.get? key = some selected → selected.isAbstract = false →
    ∃ c live found, e.ancestor? x selected.declaring = some c ∧
      e.SharesMethod s key c selected live ∧ e.selectIn? s key c = some found ∧
      e.selectVirtual s x key = .ok (some found)

/-- What is found in a class where both have one method, with a body, is that, and it is called on
an object. -/
theorem SharesMethod.callVirtual_eq (shares : e.SharesMethod s key c b live)
    (reachable : e₀.Reachable) (during : e₀.During e) (bodied : b.isAbstract = false)
    {found : Selection} (here : e.selectIn? s key c = some found)
    (selects : e.selectVirtual s x key = .ok (some found)) {m : Machine} (scope : m.scope = s)
    (args : List Value) :
    live.isStatic = false ∧ m.callVirtual x key args e = m.callResolved live key args e := by
  subst scope
  obtain ⟨bodies, kinds, -⟩ := shares.modifiers_eq reachable during
  have concrete : live.isAbstract = false := bodies.symm.trans bodied
  have own := shares.own
  unfold ownLiveMethod? at own
  unfold selectIn? at here
  dsimp only at own here
  rw [shares.host] at own here
  rw [Machine.callVirtual_selected selects]
  unfold Machine.callResolved
  rw [concrete]
  cases managed : e.managedOf? m.scope c with
  | none =>
    rw [managed] at own here
    obtain rfl := Option.some.inj own
    obtain ⟨m', kept, rfl⟩ := Option.map_eq_some_iff.1 here
    obtain ⟨same, candidate⟩ := Option.filter_eq_some_iff.1 kept
    obtain rfl := Option.some.inj same
    rw [bodied]
    simp only [Bool.and_eq_true, Bool.not_eq_true'] at candidate
    exact ⟨kinds.symm.trans candidate.1, rfl⟩
  | some t =>
    rw [managed] at own here
    obtain ⟨shape, declares, rfl⟩ := Option.map_eq_some_iff.1 own
    obtain ⟨shape', kept, rfl⟩ := Option.map_eq_some_iff.1 here
    obtain ⟨same, candidate⟩ := Option.filter_eq_some_iff.1 kept
    obtain rfl := Option.some.inj (same.symm.trans declares)
    have bodied : shape'.isAbstract = false := concrete
    rw [bodied]
    simp only [Bool.and_eq_true, Bool.not_eq_true'] at candidate
    exact ⟨candidate.1, rfl⟩

/-- Where both select the same for receivers of a class, the calls that select end alike. -/
theorem SelectsSame.ends_alike (same : e.SelectsSame s key x) (reachable : e₀.Reachable)
    (during : e₀.During e) : ∃ k ≤ 1, ∀ (n : Nat) (args : List Value),
      EndsAlike ((Machine.of s (n + 1 + k)).callSelected x key args e)
        ((Machine.of s (n + 1)).callVirtual x key args e) := by
  have undecided (open_ : ∀ selected, (e.classAt x).vtable.get? key = some selected →
      selected.isAbstract = true) : ∃ k ≤ 1, ∀ (n : Nat) (args : List Value),
      EndsAlike ((Machine.of s (n + 1 + k)).callSelected x key args e)
        ((Machine.of s (n + 1)).callVirtual x key args e) :=
    ⟨0, Nat.zero_le _, fun n args =>
      .of_eq ((Machine.of s (n + 1)).callSelected_undecided open_ args)⟩
  cases entry : (e.classAt x).vtable.get? key with
  | none =>
    refine undecided fun selected selects => ?_
    rw [entry] at selects
    cases selects
  | some selected =>
    cases abstract : selected.isAbstract with
    | true =>
      refine undecided fun selected' selects => ?_
      rw [entry] at selects
      exact Option.some.inj selects ▸ abstract
    | false =>
      obtain ⟨c, live, found, ancestor, shares, here, selects⟩ := same selected entry abstract
      obtain ⟨k, le, alike⟩ := shares.ends_alike reachable during
      refine ⟨k, le, fun n args => ?_⟩
      have called := (Machine.of s (n + 1 + k)).callSelected_apply entry abstract ancestor args
      obtain ⟨receives, runs⟩ := shares.callVirtual_eq reachable during abstract here selects
        (Machine.scope_of s (n + 1)) args
      rw [called, runs]
      exact alike n args fun static => absurd (receives.symm.trans static) Bool.false_ne_true

section Means

variable (means : e.MeansOne s caller kind ref c b live)
include means

/-- The host refuses a stray receiver of a selecting call as being of another type. -/
theorem MeansOne.callNative_stray (selects : kind.isSelecting = true) {args : List Value}
    (stray : IsStray kind args) {m : Machine} (scope : m.scope = s) :
    ∃ found, m.callNative caller kind ref args e =
      .error (.error (.typeMismatch ref.owner found)) e := by
  subst scope
  obtain ⟨owner, known, linked, -⟩ := means.found
  obtain ⟨-, value, rest, rfl, some_, strange⟩ := stray
  refine ⟨value.typeName e, ?_⟩
  rw [Machine.callNative_linked known linked means.fits means.permitted]
  cases kind with
  | static | special => cases selects
  | virtual | interface =>
    cases value with
    | null => exact absurd rfl some_
    | object o => exact absurd rfl (strange o)
    | _ => rfl

/-- In a special call it takes a stray receiver like an object, if the caller may make the call. -/
theorem MeansOne.callNative_special (special : kind = .special) {args : List Value}
    (given : args.head?.all Value.isNull = false) {m : Machine} (scope : m.scope = s) :
    m.callNative caller kind ref args e = match e.checkNonVirtual s caller ref with
      | .ok _ => m.call c b args e
      | .error error => .error (.error error) e := by
  subst scope special
  obtain ⟨owner, known, linked, -⟩ := means.found
  rw [Machine.callNative_linked known linked means.fits means.permitted]
  dsimp only
  rw [bind_apply, check_apply, given]
  cases e.checkNonVirtual m.scope caller ref <;> rfl

end Means

/-- Live versions refuse a stray receiver like null. -/
theorem callDynamic_stray {args : List Value} (stray : IsStray kind args) {m : Machine}
    (scope : m.scope = s) : m.callDynamic caller kind ref live args e =
      match kind, e.checkNonVirtual s caller ref with
      | .special, .error error => .error (.error error) e
      | _, _ => .error (.error (.nullPointer (.receiver ref.text))) e := by
  subst scope
  obtain ⟨receives, value, rest, rfl, some_, strange⟩ := stray
  have refused : receiverOf (value :: rest) ref.text =
      .error (.nullPointer (.receiver ref.text)) := by
    cases value with
    | null => exact absurd rfl some_
    | object o => exact absurd rfl (strange o)
    | _ => rfl
  unfold Machine.callDynamic
  rw [refused]
  cases kind with
  | static => exact absurd rfl receives
  | virtual | interface => rfl
  | special =>
    dsimp only
    rw [bind_apply, check_apply]
    cases e.checkNonVirtual m.scope caller ref <;> rfl

variable {args : List Value}

/-- Where the receiver is stray the calls end alike only if the host's is a special one that is
refused, or that fails for want of an object. -/
theorem MeansOne.stray_iff (means : e.MeansOne s caller kind ref c b live)
    (stray : IsStray kind args) {m m' : Machine} (scope : m.scope = s) (scope' : m'.scope = s) :
    EndsAlike (m.callNative caller kind ref args e) (m'.callDynamic caller kind ref live args e) ↔
      kind = .special ∧ (e.checkNonVirtual s caller ref ≠ .ok () ∨
        MissesObject (m.call c b args e)) := by
  rw [callDynamic_stray stray scope']
  cases kind with
  | static => exact absurd rfl stray.1
  | virtual | interface =>
    obtain ⟨found, mistyped⟩ := means.callNative_stray rfl stray scope
    rw [mistyped, endsAlike_nullPointer_iff]
    exact iff_of_false nofun nofun
  | special =>
    obtain ⟨-, given⟩ | ⟨usual, -⟩ := receiver_cases stray.1 args
    · rw [means.callNative_special rfl given scope]
      cases inherits : e.checkNonVirtual s caller ref with
      | error error => exact iff_of_true (.refl _) ⟨rfl, .inl nofun⟩
      | ok u =>
        dsimp only
        rw [endsAlike_nullPointer_iff]
        simp
    · exact absurd stray usual

/-- Where there is no receiver both fail alike. -/
theorem MeansOne.missing_eq (means : e.MeansOne s caller kind ref c b live)
    (receives : kind ≠ .static) (missing : args.head?.all Value.isNull = true) {m m' : Machine}
    (scope : m.scope = s) (scope' : m'.scope = s) :
    m.callNative caller kind ref args e = m'.callDynamic caller kind ref live args e := by
  subst scope
  obtain ⟨owner, known, linked, -⟩ := means.found
  have refused : receiverOf args ref.text = .error (.nullPointer (.receiver ref.text)) ∧
      Machine.nativeReceiver ref args = fail (.nullPointer (.receiver ref.text)) := by
    cases args with
    | nil => exact ⟨rfl, rfl⟩
    | cons value rest =>
      cases value with
      | null => exact ⟨rfl, rfl⟩
      | _ => cases missing
  rw [Machine.callNative_linked known linked means.fits means.permitted]
  unfold Machine.callDynamic
  rw [refused.1, refused.2, missing, scope']
  cases kind with
  | static => exact absurd rfl receives
  | virtual | interface => rfl
  | special =>
    dsimp only
    rw [bind_apply, bind_apply, check_apply]
    cases e.checkNonVirtual m.scope caller ref <;> rfl

/-- Otherwise they end alike, if a static method is given the arguments that it takes and the
receiver's class selects the same for both. -/
theorem MeansOne.ends_alike (means : e.MeansOne s caller kind ref c b live)
    (reachable : e₀.Reachable) (during : e₀.During e) (usual : ¬ IsStray kind args)
    (count : kind = .static → args.length = kind.argCount ref)
    (selects : kind.isSelecting = true → b.modifiers.isPrivate = false →
      ∀ o rest, args = .object o :: rest → e.SelectsSame s ref.key (e.objectAt o).cls) :
    ∃ k ≤ 1, ∀ n : Nat, EndsAlike ((Machine.of s (n + 1 + k)).callNative caller kind ref args e)
      ((Machine.of s (n + 1)).callDynamic caller kind ref live args e) := by
  have shares := means.shares reachable during
  obtain ⟨-, kinds, access⟩ := shares.modifiers_eq reachable during
  obtain ⟨owner, known, linked, -⟩ := means.found
  obtain ⟨k, le, alike⟩ := shares.ends_alike reachable during
  by_cases static : kind = .static
  · subst static
    refine ⟨k, le, fun n => ?_⟩
    rw [Machine.callNative_linked (m := Machine.of _ _) known linked means.fits means.permitted]
    exact alike n args fun _ => count rfl
  -- A kind of call that takes a receiver does not fit a static method.
  have receives : live.isStatic = false := by
    have fits := means.fits
    rw [kinds, checkInvokeKind_of_receiver static] at fits
    cases is : live.isStatic with
    | false => rfl
    | true =>
      rw [is] at fits
      cases fits
  have alike (n : Nat) (args : List Value) := alike n args fun is =>
    absurd (receives.symm.trans is) Bool.false_ne_true
  rcases receiver_cases static args with ⟨stray, -⟩ | ⟨-, missing | ⟨o, rest, rfl⟩⟩
  · exact absurd stray usual
  · exact ⟨0, Nat.zero_le _, fun n => .of_eq
      (means.missing_eq static missing (Machine.scope_of s _) (Machine.scope_of s _))⟩
  by_cases special : kind = .special
  · -- Both check first whether the caller inherits from the owner, and fail alike if it does not.
    subst special
    refine ⟨k, le, fun n => ?_⟩
    rw [means.callNative_special rfl rfl (Machine.scope_of s _)]
    unfold Machine.callDynamic
    dsimp only
    rw [bind_apply, check_apply, Machine.scope_of]
    cases e.checkNonVirtual s caller ref with
    | error error => exact .refl _
    | ok u => exact alike n _
  have selecting : kind.isSelecting = true := by
    cases kind with
    | static => exact absurd rfl static
    | special => exact absurd rfl special
    | virtual | interface => rfl
  have both (n k : Nat) :
      (Machine.of s (n + 1 + k)).callNative caller kind ref (.object o :: rest) e = _ ∧
      (Machine.of s (n + 1)).callDynamic caller kind ref live (.object o :: rest) e = _ :=
    ⟨Machine.callNative_object (m := Machine.of _ _) known linked means.fits means.permitted
      selecting o rest, Machine.callDynamic_object selecting caller o rest⟩
  cases private_ : b.modifiers.isPrivate with
  | true =>
    refine ⟨k, le, fun n => ?_⟩
    rw [(both n k).1, (both n k).2, ← access, private_]
    split
    · exact alike n _
    · exact .refl _
  | false =>
    -- What is selected can be another method, which has its own bound on the fuel.
    obtain ⟨k, le, alike⟩ :=
      (selects selecting private_ o rest rfl).ends_alike reachable during
    refine ⟨k, le, fun n => ?_⟩
    rw [(both n k).1, (both n k).2, ← access, private_]
    split
    · exact alike n _
    · exact .refl _

end Engine

/-- Let a reference mean one method to the host and to live versions, in a reachable engine in
which code may be running.  A static method is given the arguments that it takes, and if the call
selects a method for an object then both select the same.  Then a call as the host links it ends
like a call by live versions, which may need one unit of fuel less, exactly if it is not made on a
value that is neither null nor an object, or is a special call which is refused or fails for want
of an object. -/
theorem dynamic_call_ends_as_linked_iff {e₀ e : Engine} (reachable : e₀.Reachable)
    (during : e₀.During e) {s : ScopeRef} {caller c : ClassRef} {kind : InvokeKind}
    {ref : MethodRef} {b : Method} {live : LiveMethod}
    (means : e.MeansOne s caller kind ref c b live) {args : List Value}
    (count : kind = .static → args.length = kind.argCount ref)
    (selects : kind.isSelecting = true → b.modifiers.isPrivate = false →
      ∀ o rest, args = .object o :: rest → e.SelectsSame s ref.key (e.objectAt o).cls) :
    ∃ k ≤ 1, ∀ n : Nat,
      EndsAlike ((Machine.of s (n + 1 + k)).callNative caller kind ref args e)
        ((Machine.of s (n + 1)).callDynamic caller kind ref live args e) ↔
      (IsStray kind args → kind = .special ∧ (e.checkNonVirtual s caller ref ≠ .ok () ∨
        MissesObject ((Machine.of s (n + 1 + k)).call c b args e))) := by
  by_cases stray : IsStray kind args
  · refine ⟨0, Nat.zero_le _, fun n => ?_⟩
    rw [means.stray_iff stray (Machine.scope_of s _) (Machine.scope_of s _)]
    exact ⟨fun ends _ => ends, fun ends => ends stray⟩
  · obtain ⟨k, le, alike⟩ := means.ends_alike reachable during stray count selects
    exact ⟨k, le, fun n => iff_of_true (alike n) fun is => absurd is stray⟩

namespace Receiving

/-- The call of a method that a type has. -/
def ref : MethodRef := ⟨"app.T", "m", ⟨[], .int⟩⟩

/-- A type with the method. -/
def answering (n : Int64) : TypeUnit :=
  (TypeUnit.named "app.T").addDefaultConstructor.addMethod
    (.make ref.name ref.sig .publicBit [.constInt n, .retValue])

/-- A scope in which the type was defined. -/
def defined : Engine := (Engine.opened { included := ["app.*"] }).defining 8 (answering 1)

/-- The scope after a reload in which the method answers something else. -/
def reloaded : Engine := defined.reloading 8 0 "later" (answering 2)

/-- The scope after an object of the type was made. -/
def engine : Engine := ((Scope.Use.newInstance "app.T" .void []).perform 60 0).final reloaded

/-- The method of the host class, behind a check. -/
def linked : Method where
  key := ref.key
  modifiers := .publicBit
  declared := .publicBit
  declaring := "app.T"
  maxLocals := 1
  code := [.entryCheck 0 1, .constInt 1, .retValue]

/-- The method of the live version. -/
def live : LiveMethod := ⟨"app.T", .publicBit, some 0, some (0, linked)⟩

set_option maxRecDepth 100000 in
theorem outcomes :
    (defined.types.size = 1 ∧ engine.class? 0 "app.T" = some 0) ∧
    (engine.hostMethod? 0 ref.key = some (0, linked) ∧
      engine.resolveMethod 0 0 ref.key = .ok (some live)) ∧
    engine.mayUse 0 0 linked.declaring linked.declared = true ∧
    ((engine.typeAt 0).slots.slots.length ≤ UInt32.size ∧
      (engine.typeAt 0).first.unit.method? ref.key =
        some (.make ref.name ref.sig .publicBit [.constInt 1, .retValue])) ∧
    ((engine.objectAt 0).cls = 0 ∧ (engine.classAt 0).vtable.get? ref.key = some linked ∧
      engine.ancestor? 0 linked.declaring = some 0) ∧
    engine.selectIn? 0 ref.key 0 = some (.live 0) ∧
    engine.selectVirtual 0 0 ref.key = .ok (some (.live 0)) := by
  decide +kernel

theorem reachable : engine.Reachable := by
  obtain ⟨⟨one, -⟩, -⟩ := outcomes
  have opened : (Engine.opened { included := ["app.*"] }).Reachable := Engine.reachable_opened _
  have first : defined.Reachable := opened.defining 8 (answering 1) (by decide)
  have later : reloaded.Reachable := first.reloading 8 0 "later" (answering 2)
    (by rw [one]; exact Nat.one_pos)
  exact later.step (.use 60 0 _)

theorem means : engine.MeansOne 0 0 .virtual ref 0 linked live := by
  obtain ⟨⟨-, known⟩, ⟨found, resolved⟩, permitted, ⟨few, declared⟩, -⟩ := outcomes
  refine ⟨⟨0, known, found, resolved⟩, rfl, rfl, rfl, permitted, fun t managed => ?_⟩
  obtain rfl : 0 = t := Option.some.inj managed
  exact ⟨few, by decide, _, declared, by decide, nofun⟩

theorem selects : engine.SelectsSame 0 ref.key (engine.objectAt 0).cls := by
  obtain ⟨-, -, -, -, ⟨cls, entry, ancestor⟩, here, selects⟩ := outcomes
  rw [cls]
  intro selected entry' concrete
  obtain rfl := Option.some.inj (entry'.symm.trans entry)
  exact ⟨0, live, .live 0, ancestor, means.shares reachable (.refl engine), here, selects⟩

end Receiving

open Receiving in
/-- The call of a method that was reloaded ends alike on an object of its type. -/
theorem dynamic_call_ends_as_linked_received :
    engine.MeansOne 0 0 .virtual ref 0 linked live ∧
    engine.SelectsSame 0 ref.key (engine.objectAt 0).cls ∧
    ∃ k ≤ 1, ∀ n : Nat,
      EndsAlike ((Machine.of 0 (n + 1 + k)).callNative 0 .virtual ref [.object 0] engine)
        ((Machine.of 0 (n + 1)).callDynamic 0 .virtual ref live [.object 0] engine) := by
  obtain ⟨reachable, means, selects⟩ := And.intro reachable (And.intro means selects)
  -- What matters about the engine is known; its definition is not to be unfolded.
  generalize engine = e at *
  have same (o : ObjectRef) (rest : List Value) (args : [Value.object 0] = .object o :: rest) :
      e.SelectsSame 0 ref.key (e.objectAt o).cls := by
    obtain rfl : (0 : ObjectRef) = o := Value.object.inj (List.cons.inj args).1
    exact selects
  obtain ⟨k, le, iff⟩ :=
    dynamic_call_ends_as_linked_iff reachable (.refl e) means nofun fun _ _ => same
  refine ⟨means, selects, k, le, fun n => (iff n).2 ?_⟩
  rintro ⟨-, value, rest, same, -, strange⟩
  exact absurd (List.cons.inj same).1.symm (strange 0)

open Receiving in
/-- On a number the two calls fail with different errors. -/
theorem dynamic_call_ends_unlike_linked :
    ¬ ∀ (e : Engine) (s : ScopeRef) (caller c : ClassRef) (kind : InvokeKind) (ref : MethodRef)
      (b : Method) (live : LiveMethod) (args : List Value), e.Reachable →
      e.MeansOne s caller kind ref c b live → args.length = kind.argCount ref →
      (∀ o rest, args = .object o :: rest → e.SelectsSame s ref.key (e.objectAt o).cls) →
      ∃ k ≤ 1, ∀ n : Nat, EndsAlike ((Machine.of s (n + 1 + k)).callNative caller kind ref args e)
        ((Machine.of s (n + 1)).callDynamic caller kind ref live args e) := by
  intro right
  obtain ⟨reachable, means⟩ := And.intro reachable means
  generalize engine = e at *
  obtain ⟨k, -, alike⟩ := right e 0 0 0 .virtual ref linked live [.int 5] reachable means rfl nofun
  have stray : IsStray .virtual [.int 5] := ⟨nofun, .int 5, [], rfl, nofun, nofun⟩
  obtain ⟨special, -⟩ :=
    (means.stray_iff stray (Machine.scope_of 0 _) (Machine.scope_of 0 _)).1 (alike 0)
  cases special

end LiveUpdate
