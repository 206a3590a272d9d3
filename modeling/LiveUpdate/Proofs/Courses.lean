import LiveUpdate.Proofs.Overriding
import LiveUpdate.Proofs.Turns

/-!
# Where virtual calls come out

A virtual call that a guard lets pass enters the method that the classes selected when they were
defined.  Checks and catchers lead it on, and it comes out at a body.  A virtual call by live
versions selects its body at once.  Here both bodies are read off the declarations: those of the
versions in force, those of the first versions, and those that the host has of unmanaged classes.
-/

set_option autoImplicit false

namespace LiveUpdate

open Exec

/-- A call on an object can run a body, for a member with a signature. -/
def Body.fits (sig : MethodSig) (b : Body) : Bool :=
  !b.method.isAbstract && b.method.argCount = sig.arity + 1

namespace Engine

variable (e : Engine) (s : ScopeRef) (key : MemberKey)

/-- Where a call comes out that enters the method of a host class.  A type that declares the
member now runs that.  A type that does not, and did at first, runs what its live version
inherits.  Where the type has never declared the member there is a catcher, which leads
further up. -/
def entered (above : Option Body) (d : ClassRef) (b : Method) : Option Body :=
  if (Body.mk d b).fits key.sig then
    match e.managedOf? s d with
    | none => some ⟨d, b⟩
    | some t =>
      if ((e.typeAt t).live.shape.method? key).isSome then
        (e.liveBody t key).filter (Body.fits key.sig)
      else if ((e.typeAt t).first.unit.method? key).isSome then
        (e.inheritedBody s t key).filter (Body.fits key.sig)
      else above
  else none

/-- Where the call comes out that a catcher of a class makes: it enters the nearest method of
these classes, if that has a receiver and the class may use it. -/
def caught (caller : ClassRef) : List ClassRef → Option Body
  | [] => none
  | d :: rest =>
    match (e.classAt d).method? key with
    | none => caught caller rest
    | some b =>
      if !b.isStatic && e.mayUse s caller b.declaring b.declared then
        e.entered s key (caught d rest) d b
      else none

/-- Where a call of the method of a class comes out. -/
def hostEnd (d : ClassRef) (b : Method) : Option Body :=
  e.entered s key (e.caught s key d (e.classAt d).superclasses) d b

/-- Where a call of a live method comes out. -/
def resolvedEnd (live : LiveMethod) : Option Body :=
  (e.resolvedBody live key).filter (Body.fits key.sig)

/-- Where a virtual call by live versions comes out, for a receiver of a class. -/
def selectedEnd (x : ClassRef) : Option Body :=
  (e.selectedBody s x key).filter (Body.fits key.sig)

/-- What is assumed of a member of the types of a scope: it is no constructor and no static
initializer, no type has more slots than a check can number, no two payloads of a type have one
digest, and no first version marks its method as the engine marks those that it generates. -/
structure Ordinary : Prop where
  plain : key.isConstructor = false
  early : key.isStaticInit = false
  few : ∀ id t, e.typeWithId? s id = some t → (e.typeAt t).slots.slots.length ≤ UInt32.size
  apart : ∀ id t, e.typeWithId? s id = some t → (e.typeAt t).DigestsApart
  unmarked : ∀ d t b, e.managedOf? s d = some t → (e.classAt d).method? key = some b →
    b.modifiers.contains .superDispatcherBit = false ∧
      (((e.typeAt t).first.unit.method? key).isSome → b.modifiers.contains .catcherBit = false)

variable {e s key}
variable {e₀ : Engine} {t : TypeRef} {native d x : ClassRef} {b : Method} {live : LiveMethod}

/-- It is enough to look at the types and the classes that there are. -/
theorem Ordinary.of_bounded (housed : e.Housed) (plain : key.isConstructor = false)
    (early : key.isStaticInit = false)
    (types : ∀ t < e.types.size,
      (e.typeAt t).slots.slots.length ≤ UInt32.size ∧ (e.typeAt t).DigestsApart)
    (classes : ∀ d < e.classes.size, ∀ b ∈ (e.classAt d).method? key,
      b.modifiers.contains .superDispatcherBit = false ∧
        b.modifiers.contains .catcherBit = false) : e.Ordinary s key where
  plain := plain
  early := early
  few id t registered := (types t (housed.types s id t registered).1.1).1
  apart id t registered := (types t (housed.types s id t registered).1.1).2
  unmarked d t b _ found := by
    have lt : d < e.classes.size :=
      lt_of_classAt (fun cls => cls.method? key = some b) found nofun
    obtain ⟨unmarked, uncaught⟩ := classes d lt b found
    exact ⟨unmarked, fun _ => uncaught⟩

/-! ### Turns that are told by the body alone -/

theorem turn_of_misfit {sig : MethodSig} {b : Body} (misfit : b.fits sig = false) :
    e.turn s sig b = .fails := by
  unfold Body.fits at misfit
  unfold turn
  refine if_pos ?_
  cases abstract : b.method.isAbstract with
  | true => exact .inl rfl
  | false =>
    rw [abstract] at misfit
    exact .inr (by simpa using misfit)

theorem turn_of_fits {sig : MethodSig} {b : Body} (fits : b.fits sig = true) :
    e.turn s sig b = if b.method.isStatic then .runs else e.enteredTurn s b (sig.arity + 1) := by
  unfold Body.fits at fits
  simp only [Bool.and_eq_true, Bool.not_eq_true', decide_eq_true_eq] at fits
  unfold turn
  rw [if_neg (by simp [fits.1, fits.2])]

/-- No check stands in the way in a class that belongs to no managed type of the scope. -/
theorem turn_of_unmanaged {sig : MethodSig} {b : Body} (housed : e.Housed)
    (fits : b.fits sig = true) (unmanaged : e.managedOf? s b.cls = none) :
    e.turn s sig b = .runs := by
  have unchecked : e.checkedSlot? s b = none := by
    refine Option.eq_none_iff_forall_ne_some.2 fun ⟨t, slot⟩ checked => ?_
    obtain ⟨id, -, -, -, -, registered, native⟩ := checkedSlot?_eq_some checked
    obtain ⟨managed, scope, numbered⟩ := housed.types s id t registered
    obtain ⟨c, hosted⟩ := housed.hosts t managed
    obtain rfl : c = b.cls := Option.some.inj (hosted.native.symm.trans native)
    unfold managedOf? at unmanaged
    rw [hosted.managed_eq, Option.bind_some, numbered, registered] at unmanaged
    cases unmanaged
  rw [turn_of_fits fits]
  unfold enteredTurn
  rw [unchecked]
  exact ite_self _

/-- A body that fits and runs is where a call comes out, and without one it fails. -/
theorem arrives_filter {sig : MethodSig} {start : Option Body}
    (runs : ∀ b, start = some b → b.fits sig = true → e.turn s sig b = .runs) :
    e.Arrives s sig start (start.filter (Body.fits sig)) := by
  cases start with
  | none => exact .nothing
  | some b =>
    cases fits : b.fits sig with
    | true =>
      rw [Option.filter_some, if_pos fits]
      exact .runs (runs b rfl fits)
    | false =>
      rw [Option.filter_some, if_neg (by simp [fits])]
      exact .fails (turn_of_misfit fits)

/-! ### Managed types of a scope -/

/-- A class is the host class of a managed type of a scope, for a member of which this is
assumed. -/
structure Governs (e : Engine) (s : ScopeRef) (key : MemberKey) (t : TypeRef) (native : ClassRef) :
    Prop where
  hosted : e.Hosted t native
  scope : (e.typeAt t).scope = s
  managed : e.managedOf? s native = some t
  chronicled : e.Chronicled t
  balanced : (e.typeAt t).Balanced
  few : (e.typeAt t).slots.slots.length ≤ UInt32.size
  apart : (e.typeAt t).DigestsApart

section Members

variable (reachable : e₀.Reachable) (during : e₀.During e) (ordinary : e.Ordinary s key)
include reachable during ordinary

theorem Ordinary.governs {id : TypeId} (registered : e.typeWithId? s id = some t) :
    ∃ native, e.Governs s key t native := by
  have housed := during.housed reachable.housed reachable.grounded
  obtain ⟨managed, scope, rfl⟩ := housed.types s id t registered
  obtain ⟨native, hosted⟩ := housed.hosts t managed
  refine ⟨native, hosted, scope, ?_, during.chronicled reachable managed,
    during.balanced reachable managed, ordinary.few _ t registered, ordinary.apart _ t registered⟩
  unfold managedOf?
  rw [hosted.managed_eq, Option.bind_some, registered]

theorem Ordinary.governs_home (home : e.Homes s d) (managed : e.managedOf? s d = some t) :
    e.Governs s key t d := by
  have housed := during.housed reachable.housed reachable.grounded
  obtain ⟨id, -, registered⟩ := Option.bind_eq_some_iff.1 managed
  obtain ⟨native, governs⟩ := ordinary.governs reachable during registered
  have hosted := housed.hosted_of_managedOf? home managed
  obtain rfl : native = d := Option.some.inj (governs.hosted.native.symm.trans hosted.native)
  exact governs

end Members

section Types

variable (governs : e.Governs s key t native) (ordinary : e.Ordinary s key)
include governs ordinary

/-- What the first version declares no catcher stands in for. -/
theorem Governs.passedTurn_declared {m : MethodDef}
    (declared : (e.typeAt t).first.unit.method? key = some m)
    (found : (e.classAt native).method? key = some b) :
    e.passedTurn s ⟨native, b⟩ = .runs := by
  have uncaught := (ordinary.unmarked native t b governs.managed found).2 (declared ▸ rfl)
  unfold passedTurn
  rw [Method.caughtRef?_eq_none uncaught]

/-- The live member of a managed type runs as it is called. -/
theorem Governs.arrives_liveBody {shape : MethodShape}
    (declares : (e.typeAt t).live.shape.method? key = some shape) :
    e.Arrives s key.sig (e.liveBody t key) ((e.liveBody t key).filter (Body.fits key.sig)) := by
  have scope := governs.scope
  refine arrives_filter fun b found fits => ?_
  rw [turn_of_fits fits]
  cases receives : b.method.isStatic with
  | true => rfl
  | false =>
  -- the methods of executors are static, so this one stands in the host class
  have leaves : (e.typeAt t).LeavesToHost key := by
    cases lookup : (e.typeAt t).live.dispatch.lookup key with
    | none => exact .inr lookup
    | some entry =>
      cases entry with
      | host => exact .inl lookup
      | abstract =>
        rw [governs.hosted.liveBody_none (.inl lookup)] at found
        cases found
      | deleted =>
        rw [governs.hosted.liveBody_none (.inr lookup)] at found
        cases found
      | executor target =>
        obtain ⟨a, shape, executes⟩ := governs.chronicled.executes governs.balanced lookup
        rw [executes.liveBody_eq governs.hosted lookup] at found
        split at found
        · cases found
        · cases found
          cases receives.symm.trans executes.static
  rw [governs.hosted.liveBody_leaves leaves] at found
  obtain ⟨m, own, rfl⟩ := Option.map_eq_some_iff.1 found
  obtain ⟨first, declared⟩ := governs.chronicled.declared_of_leaves governs.balanced governs.apart
    declares ordinary.early leaves
  obtain ⟨unmarked, -⟩ := ordinary.unmarked native t m governs.managed own
  have concrete : m.isAbstract = false := by
    unfold Body.fits at fits
    simp only [Bool.and_eq_true, Bool.not_eq_true'] at fits
    exact fits.1
  obtain ⟨slot, checks⟩ := governs.hosted.checks_declared governs.chronicled.verified declared own
    concrete unmarked ordinary.early
  have turns := checks.turn_leaves governs.hosted governs.balanced governs.few concrete receives
    leaves
  rw [scope, governs.passedTurn_declared ordinary declared own, turn_of_fits fits, receives] at turns
  exact turns

end Types

/-! ### What live versions mean -/

/-- The method that a class itself declares now is one of the version in force of its type, or the
host's own if the class belongs to none. -/
theorem ownLiveMethod?_cases (own : e.ownLiveMethod? s key d = some live) :
    (∃ t shape, e.managedOf? s d = some t ∧ (e.typeAt t).live.shape.method? key = some shape ∧
        live.managed = some t ∧ live.modifiers = shape.modifiers) ∨
      ∃ m, e.managedOf? s d = none ∧ (e.classAt d).method? key = some m ∧ live.managed = none ∧
        live.host = some (d, m) ∧ live.modifiers = m.declared := by
  unfold ownLiveMethod? at own
  dsimp only at own
  split at own
  next t managed =>
    obtain ⟨shape, declares, rfl⟩ := Option.map_eq_some_iff.1 own
    exact .inl ⟨t, shape, managed, declares, rfl, rfl⟩
  next unmanaged =>
    obtain ⟨m, found, rfl⟩ := Option.map_eq_some_iff.1 own
    refine .inr ⟨m, unmanaged, found, rfl, ?_, rfl⟩
    show ((e.classAt d).method? key).map _ = _
    rw [found]
    rfl

section Live

variable (reachable : e₀.Reachable) (during : e₀.During e) (ordinary : e.Ordinary s key)
include reachable during ordinary

/-- A method that live versions mean runs as it is called. -/
theorem Ordinary.arrives_resolvedBody {c : ClassRef}
    (resolved : e.resolveMethod s c key = .ok (some live)) :
    e.Arrives s key.sig (e.resolvedBody live key) (e.resolvedEnd key live) := by
  have housed := during.housed reachable.housed reachable.grounded
  have layered := during.layered reachable
  unfold resolvedEnd
  cases managed : live.managed with
  | some t =>
    obtain ⟨id, registered⟩ := registered_of_resolveMethod resolved managed
    obtain ⟨native, governs⟩ := ordinary.governs reachable during registered
    obtain ⟨shape, declares⟩ : ∃ shape, (e.typeAt t).live.shape.method? key = some shape := by
      rcases resolveMethod_cases resolved with ⟨d, own⟩ | inherited
      · rcases ownLiveMethod?_cases own with ⟨t', shape, -, declares, same, -⟩ | ⟨-, -, -, none_, -⟩
        · obtain rfl : t = t' := Option.some.inj (managed.symm.trans same)
          exact ⟨shape, declares⟩
        · cases managed.symm.trans none_
      · obtain ⟨d, m, -, -, rfl⟩ := interfaceMethod?_eq_some_iff.1 inherited
        cases managed
    unfold resolvedBody
    split
    · exact .nothing
    · rw [managed]
      exact governs.arrives_liveBody ordinary declares
  | none =>
    refine arrives_filter fun b found fits => turn_of_unmanaged housed fits ?_
    unfold resolvedBody at found
    split at found
    · cases found
    rw [managed] at found
    rcases resolveMethod_cases resolved with ⟨d, own⟩ | inherited
    · rcases ownLiveMethod?_cases own with ⟨t, -, -, -, same, -⟩ | ⟨m, unmanaged, -, -, host, -⟩
      · cases managed.symm.trans same
      · rw [host] at found
        cases found
        exact unmanaged
    · obtain ⟨d, m, -, isInterface, rfl⟩ := interfaceMethod?_eq_some_iff.1 inherited
      cases found
      unfold managedOf?
      rw [layered.unmanaged d isInterface]
      rfl

/-- What the live version of a type inherits runs as it is called. -/
theorem Ordinary.arrives_inheritedBody (t : TypeRef) :
    e.Arrives s key.sig (e.inheritedBody s t key)
      ((e.inheritedBody s t key).filter (Body.fits key.sig)) := by
  unfold inheritedBody
  cases (e.typeAt t).live.shape.superName.bind (e.class? s) with
  | none => exact .nothing
  | some parent =>
    dsimp only
    cases resolved : e.resolveMethod s parent key with
    | error stop => exact .nothing
    | ok found =>
      cases found with
      | none => exact .nothing
      | some live => exact ordinary.arrives_resolvedBody reachable during resolved

/-- What virtual calls by live versions select runs as it is called. -/
theorem Ordinary.arrives_selectedBody (x : ClassRef) :
    e.Arrives s key.sig (e.selectedBody s x key) (e.selectedEnd s key x) := by
  have housed := during.housed reachable.housed reachable.grounded
  unfold selectedEnd selectedBody
  cases selects : e.selectVirtual s x key with
  | error stop => exact .nothing
  | ok selection =>
    cases selection with
    | none => exact .nothing
    | some found =>
      obtain ⟨d, -, held⟩ := exists_of_findSome? selects
      unfold selectIn? at held
      dsimp only at held
      cases managed : e.managedOf? s d with
      | some t =>
        rw [managed] at held
        obtain ⟨shape, declares, rfl⟩ := Option.map_eq_some_iff.1 held
        cases abstract_ : shape.isAbstract with
        | true => exact .nothing
        | false =>
          obtain ⟨id, -, registered⟩ := Option.bind_eq_some_iff.1 managed
          obtain ⟨native, governs⟩ := ordinary.governs reachable during registered
          exact governs.arrives_liveBody ordinary (Option.filter_eq_some_iff.1 declares).1
      | none =>
        rw [managed] at held
        obtain ⟨m, there, rfl⟩ := Option.map_eq_some_iff.1 held
        cases abstract_ : m.isAbstract with
        | true => exact .nothing
        | false =>
          refine arrives_filter fun b found fits => turn_of_unmanaged housed fits ?_
          cases found
          exact managed

end Live

/-! ### What the host's methods lead to -/

/-- A catcher calls the nearest method above its class. -/
theorem caught_eq (housed : e.Housed) (home : e.Homes s d) (caller : ClassRef) :
    e.caught s key caller (d :: (e.classAt d).superclasses) =
      match e.nearest? d key with
      | none => none
      | some (c, b) =>
        if !b.isStatic && e.mayUse s caller b.declaring b.declared then e.hostEnd s key c b
        else none := by
  induction d using Nat.strong_induction_on with
  | _ d ih =>
    have own : e.ownHostMethod? key d = ((e.classAt d).method? key).map fun m => (d, m) := rfl
    unfold nearest?
    rw [List.findSome?_cons, own]
    unfold caught
    cases (e.classAt d).method? key with
    | some b => rfl
    | none =>
      dsimp only [Option.map_none]
      obtain ⟨superclasses, parents⟩ := housed.superclasses_eq home
      rw [superclasses]
      cases parent : (e.classAt d).parent with
      | none => rfl
      | some p =>
        obtain ⟨lt, home'⟩ := parents p parent
        exact ih p lt home'

/-- A host method that calls on objects can enter. -/
structure TakesObjects (e : Engine) (native : ClassRef) (key : MemberKey) (b : Method) : Prop where
  found : (e.classAt native).method? key = some b
  keyed : b.key = key
  concrete : b.isAbstract = false
  receives : b.isStatic = false

theorem Lineage.takesObjects (lineage : e.Lineage) (found : (e.classAt d).method? key = some b)
    (fits : (Body.mk d b).fits key.sig = true) : e.TakesObjects d key b := by
  have keyed := (lineage.method_eq found).2
  unfold Body.fits Method.argCount at fits
  simp only [Bool.and_eq_true, Bool.not_eq_true', decide_eq_true_eq, keyed] at fits
  refine ⟨found, keyed, fits.1, ?_⟩
  cases static : b.isStatic with
  | false => rfl
  | true =>
    rw [static] at fits
    simp at fits

section Entering

variable (governs : e.Governs s key t native) (ordinary : e.Ordinary s key)
  (takes : e.TakesObjects native key b)
include governs ordinary takes

/-- Before the first version of a type that declares a member there is a check. -/
theorem Governs.exists_checks : ∃ slot, e.Checks t key b slot := by
  obtain ⟨unmarked, -⟩ := ordinary.unmarked native t b governs.managed takes.found
  cases first : (e.typeAt t).first.unit.method? key with
  | some m =>
    exact governs.hosted.checks_declared governs.chronicled.verified first takes.found
      takes.concrete unmarked ordinary.early
  | none =>
    obtain ⟨-, slot, checks, -⟩ := governs.hosted.checks_generated governs.chronicled.verified
      governs.balanced first takes.found unmarked ordinary.early
    exact ⟨slot, checks⟩

/-- Where the version in force declares the member, a call of the host's method runs it. -/
theorem Governs.arrives_declared {shape : MethodShape}
    (declares : (e.typeAt t).live.shape.method? key = some shape) :
    e.Arrives s key.sig (some ⟨native, b⟩) ((e.liveBody t key).filter (Body.fits key.sig)) := by
  have live := governs.arrives_liveBody ordinary declares
  obtain ⟨slot, checks⟩ := governs.exists_checks ordinary takes
  have leaves (host : (e.typeAt t).LeavesToHost key) :
      e.Arrives s key.sig (some ⟨native, b⟩) ((e.liveBody t key).filter (Body.fits key.sig)) := by
    rw [governs.hosted.liveBody_leaves host, takes.found] at live ⊢
    exact live
  cases lookup : (e.typeAt t).live.dispatch.lookup key with
  | none => exact leaves (.inr lookup)
  | some entry =>
    cases entry with
    | host => exact leaves (.inl lookup)
    | deleted =>
      exact absurd lookup (governs.chronicled.lookup_ne_deleted governs.balanced governs.apart
        declares checks.known)
    | abstract =>
      have turns := checks.turn_abstract governs.hosted governs.balanced governs.few
        takes.concrete takes.receives
        (governs.chronicled.published_of_lookup lookup DispatchEntry.noConfusion) lookup
      rw [governs.scope] at turns
      rw [governs.hosted.liveBody_none (.inl lookup)]
      exact .fails turns
    | executor target =>
      obtain ⟨a, shape', executes⟩ := governs.chronicled.executes governs.balanced lookup
      obtain rfl : shape = shape' := Option.some.inj (declares.symm.trans executes.declares)
      have turns := checks.turn_executor governs.hosted governs.balanced governs.few
        takes.concrete takes.receives executes lookup
      have count := executes.count_eq ordinary.plain fun init =>
        absurd init (by rw [ordinary.early]; exact Bool.false_ne_true)
      rw [governs.scope, count] at turns
      rw [executes.liveBody_eq governs.hosted lookup] at live ⊢
      -- a static method takes one argument less, so the call does not fit it
      cases static : shape.isStatic with
      | true =>
        rw [static] at turns
        exact .fails (turns.trans (if_neg (by simp)))
      | false =>
        rw [static] at turns live
        exact .executes (turns.trans (if_pos rfl)) live

/-- Where only the first version declares it, the call goes on to what is inherited. -/
theorem Governs.arrives_deleted (reachable : e₀.Reachable) (during : e₀.During e)
    (gone : (e.typeAt t).live.shape.method? key = none) {m : MethodDef}
    (declared : (e.typeAt t).first.unit.method? key = some m) :
    e.Arrives s key.sig (some ⟨native, b⟩)
      ((e.inheritedBody s t key).filter (Body.fits key.sig)) := by
  obtain ⟨slot, checks⟩ := governs.exists_checks ordinary takes
  have lookup := governs.chronicled.lookup_deleted governs.balanced governs.apart gone declared
    ordinary.early
  have turns := checks.turn_deleted governs.hosted governs.balanced governs.few takes.concrete
    takes.receives ordinary.plain
    (governs.chronicled.published_of_lookup lookup DispatchEntry.noConfusion) lookup
  rw [governs.scope] at turns
  refine .inherits turns ?_
  show e.Arrives s key.sig (e.inheritedBody s t b.key) _
  rw [takes.keyed]
  exact ordinary.arrives_inheritedBody reachable during t

omit ordinary in
/-- A catcher stands below what is nearest above its class. -/
theorem Governs.exists_covers (reachable : e₀.Reachable) (during : e₀.During e)
    (catcher : e.HasCatcher t native key b) :
    ∃ p owner selected nearest, e.Catches t native p b selected ∧ e.nearest? p key = some nearest ∧
      e.Covers s native p key owner selected nearest := by
  have housed := during.housed reachable.housed reachable.grounded
  have lineage := during.lineage reachable.lineage
  obtain ⟨p, selected, -, catches⟩ := governs.hosted.catches lineage governs.chronicled.verified
    governs.chronicled.named catcher
  obtain ⟨owner, nearest, found, covers⟩ := catches.covers housed lineage governs.hosted
  rw [takes.keyed] at found covers
  rw [governs.scope] at covers
  exact ⟨p, owner, selected, nearest, catches, found, covers⟩

/-- Where neither declares it, the call goes on to what is nearest above the class. -/
theorem Governs.arrives_caught (reachable : e₀.Reachable) (during : e₀.During e)
    (gone : (e.typeAt t).live.shape.method? key = none)
    (free : (e.typeAt t).first.unit.method? key = none)
    (further : ∀ c < native, ∀ m, e.Homes s c → (e.classAt c).method? key = some m →
      e.Arrives s key.sig (some ⟨c, m⟩) (e.hostEnd s key c m)) :
    e.Arrives s key.sig (some ⟨native, b⟩)
      (e.caught s key native (e.classAt native).superclasses) := by
  have housed := during.housed reachable.housed reachable.grounded
  have hosted := governs.hosted
  have scope := governs.scope
  have home : e.Homes s native := scope ▸ ⟨_, hosted.known⟩
  obtain ⟨unmarked, -⟩ := ordinary.unmarked native t b governs.managed takes.found
  obtain ⟨catcher, slot, checks, origin⟩ := hosted.checks_generated governs.chronicled.verified
    governs.balanced free takes.found unmarked ordinary.early
  have leaves := governs.chronicled.lookup_caught governs.balanced governs.apart gone checks.known
    origin
  obtain ⟨p, owner, selected, nearest, catches, found, covers⟩ :=
    governs.exists_covers takes reachable during catcher
  obtain ⟨slot', code⟩ := catches.code
  have small := catches.arity_lt (during.allSeated reachable.allSeated)
  obtain ⟨superclasses, parents⟩ := housed.superclasses_eq home
  rw [catches.parent] at superclasses
  obtain ⟨lt, home'⟩ := parents p catches.parent
  have turns := checks.turn_leaves hosted governs.balanced governs.few takes.concrete
    takes.receives leaves
  rw [scope] at turns
  have forwards : e.turn s key.sig ⟨native, b⟩ = .forwards ⟨e.nameOf p, b.key.name, b.key.sig⟩ := by
    rw [turns]
    unfold passedTurn
    rw [Method.caughtRef?_eq code catcher.marked (Nat.lt_of_succ_lt small)]
    dsimp only
    rw [covers.known]
    exact if_pos (by simpa using lt)
  refine .forwards forwards (by rw [takes.keyed]) ?_
  rw [superclasses, caught_eq housed home', found]
  dsimp only
  obtain ⟨c, m⟩ := nearest
  have named : e.forwardedBody s native ⟨e.nameOf p, b.key.name, b.key.sig⟩ =
      if !m.isStatic && e.mayUse s native m.declaring m.declared then some ⟨c, m⟩ else none := by
    have means := covers.means
    have inherits := covers.inherits
    rw [takes.keyed]
    have key_eq : (MethodRef.mk (e.nameOf p) key.name key.sig).key = key := rfl
    unfold forwardedBody
    dsimp only
    rw [covers.known]
    dsimp only
    rw [key_eq, means]
    dsimp only
    rw [checkAccess_eq, inherits]
    cases m.isStatic with
    | true => rfl
    | false =>
      cases e.mayUse s native m.declaring m.declared <;> rfl
  rw [named]
  split
  · obtain ⟨place, mem, own⟩ := List.exists_of_findSome?_eq_some found
    obtain ⟨m', there, same⟩ := Option.map_eq_some_iff.1 own
    cases same
    obtain ⟨le, home''⟩ : c ≤ p ∧ e.Homes s c := by
      rcases List.mem_cons.1 mem with rfl | above
      · exact ⟨Nat.le_refl _, home'⟩
      · obtain ⟨lt', home''⟩ := (housed.superclasses_descend home').1 c above
        exact ⟨Nat.le_of_lt lt', home''⟩
    exact further c (Nat.lt_of_le_of_lt le lt) m home'' there
  · exact .nothing

end Entering

section Hosts

variable (reachable : e₀.Reachable) (during : e₀.During e) (ordinary : e.Ordinary s key)
include reachable during ordinary

/-- A call of the method of a class of a scope comes out where the declarations say. -/
theorem Ordinary.arrives_hostEnd (home : e.Homes s d)
    (found : (e.classAt d).method? key = some b) :
    e.Arrives s key.sig (some ⟨d, b⟩) (e.hostEnd s key d b) := by
  have housed := during.housed reachable.housed reachable.grounded
  have lineage := during.lineage reachable.lineage
  -- catchers lead to classes that were defined before
  induction d using Nat.strong_induction_on generalizing b with
  | _ d ih =>
    unfold hostEnd entered
    cases fits : (Body.mk d b).fits key.sig with
    | false =>
      rw [if_neg Bool.false_ne_true]
      exact .fails (turn_of_misfit fits)
    | true =>
      rw [if_pos rfl]
      have takes := lineage.takesObjects found fits
      cases managed : e.managedOf? s d with
      | none => exact .runs (turn_of_unmanaged housed fits managed)
      | some t =>
        have governs := ordinary.governs_home reachable during home managed
        dsimp only
        cases declares : (e.typeAt t).live.shape.method? key with
        | some shape => exact governs.arrives_declared ordinary takes declares
        | none =>
          cases first : (e.typeAt t).first.unit.method? key with
          | some m => exact governs.arrives_deleted ordinary takes reachable during declares first
          | none =>
            exact governs.arrives_caught ordinary takes reachable during declares first
              fun c lt m home' there => ih c lt home' there

end Hosts

end Engine

end LiveUpdate
