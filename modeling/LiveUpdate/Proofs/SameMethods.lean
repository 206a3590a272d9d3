import LiveUpdate.Proofs.CallDepth
import LiveUpdate.Proofs.InheritedMethods
import LiveUpdate.Proofs.Overriding
import LiveUpdate.Proofs.PrivateCalls

/-!
# Calls of one method by the host and by live versions

Where the host and the live versions have the same method for a key, a call of the host's method
and a call by live versions end alike: with a value, or with errors of one sort.  If there is room
for a call they do the same.  If there is none, or if the arguments are too many or too few, they
fail in different places, but with the same error.
-/

set_option autoImplicit false

namespace LiveUpdate

open Exec

/-- Two computations end alike: with values, with errors of one sort, or for want of fuel. -/
def EndsAlike : EStateM.Result (Stop RunError) Engine Value →
    EStateM.Result (Stop RunError) Engine Value → Prop
  | .ok _ _, .ok _ _ => True
  | .error (.error error) _, .error (.error error') _ => error.ctorIdx = error'.ctorIdx
  | .error .outOfFuel _, .error .outOfFuel _ => True
  | _, _ => False

@[refl] theorem EndsAlike.refl (r : EStateM.Result (Stop RunError) Engine Value) :
    EndsAlike r r := by
  cases r with
  | ok value e => trivial
  | error stop e => cases stop <;> trivial

theorem EndsAlike.of_eq {r r' : EStateM.Result (Stop RunError) Engine Value} (same : r = r') :
    EndsAlike r r' := same ▸ .refl r

/-- Where the same is done first, what follows decides. -/
theorem EndsAlike.bind {α : Type} {x : Run α} {f g : α → Run Value} {e : Engine}
    (rest : ∀ a e', x e = .ok a e' → EndsAlike (f a e') (g a e')) :
    EndsAlike ((x >>= f) e) ((x >>= g) e) := by
  rw [bind_apply, bind_apply]
  cases run : x e with
  | ok a e' => exact rest a e' run
  | error stop e' => exact .refl _

/-- No method of an executor stands under the key of a static initializer. -/
theorem isStaticInit_executorKey (typeName : String) (m : MethodShape) :
    (executorKey typeName m).isStaticInit = false := by
  unfold executorKey
  split
  · rfl
  split
  · rfl
  next other =>
    have other : m.isStaticInit = false := Bool.eq_false_iff.2 other
    split
    · exact other
    · exact other

namespace Machine

variable {m : Machine} {e : Engine} {s : ScopeRef} {c : ClassRef} {b : Method} {args : List Value}

/-- A class without superclasses and static initializer is initialized without running code. -/
theorem ensureInitialized_bare (m : Machine) (top : (e.classAt c).superclasses = [])
    (bare : (e.classAt c).method? .staticInit = none) :
    ∃ e', m.ensureInitialized c e = .ok () e' := by
  unfold ensureInitialized
  rw [bind_apply, ask_apply]
  dsimp only
  rw [top]
  by_cases done : e.progress c = .done
  · exact ⟨e, m.initializeAll_done done⟩
  rw [initializeAll_cons done]
  dsimp only [initializeAll]
  have begun := (e.evolves_beginInit c).during.method? c .staticInit
  have runs : m.runStaticInit c (e.beginInit c).2 = .ok () (e.beginInit c).2 := by
    unfold runStaticInit
    rw [bind_apply, ask_apply]
    dsimp only
    rw [begun, bare]
    rfl
  by_cases pending : e.progress c = .pending
  · refine ⟨(e.beginInit c).2.finishInit c, ?_⟩
    show (if e.progress c = .pending then _ else _) = _
    rw [if_pos pending, runs]
  · refine ⟨e, ?_⟩
    show (if e.progress c = .pending then _ else _) = _
    rw [if_neg pending]

/-- Before the body of a method runs, the class of a static one is initialized. -/
theorem prepare_eq (m : Machine) (c : ClassRef) (early : b.key.isStaticInit = false) :
    m.prepare c b = if b.isStatic then m.ensureInitialized c else pure () := by
  unfold prepare
  rw [early, Bool.not_false, Bool.and_true]

/-- A call that fits its method fails after that when too many calls are running. -/
theorem call_overflow (n : Nat) (concrete : b.isAbstract = false) (fits : args.length = b.argCount)
    (full : (e.scopeAt s).options.maxCallDepth ≤ e.depth) :
    (Machine.of s (n + 1)).call c b args e =
      ((Machine.of s n).prepare c b >>= fun _ => fail (.stackOverflow e.depth)) e := by
  rw [bind_apply]
  have kept := keeps_prepare (keepsSkeleton_of s n) c b e
  cases made : (Machine.of s n).prepare c b e with
  | error stop e' => exact call_unprepared n concrete fits made
  | ok u e' =>
    rw [final_of_ok made] at kept
    have full' : (e'.scopeAt s).options.maxCallDepth ≤ e'.depth := by
      rw [Engine.options_of_skeleton_eq kept, Engine.depth_of_skeleton_eq kept]
      exact full
    rw [call_prepared n concrete fits made, if_pos full', Engine.depth_of_skeleton_eq kept]
    rfl

/-- A live method runs as one of the managed type that has it, or else as the host's. -/
theorem callResolved_live {live : LiveMethod} {t : TypeRef} {key : MemberKey}
    (concrete : live.isAbstract = false) (managed : live.managed = some t) :
    m.callResolved live key args = m.callLive t key args := by
  unfold callResolved
  rw [concrete, managed]
  rfl

theorem callResolved_host {live : LiveMethod} {key : MemberKey}
    (concrete : live.isAbstract = false) (unmanaged : live.managed = none)
    (host : live.host = some (c, b)) : m.callResolved live key args = m.call c b args := by
  unfold callResolved
  rw [concrete, unmanaged, host]
  rfl

end Machine

namespace ManagedType

/-- Calls enter the method that the first version of a type has under a key through a check, and
the methods of executors that stand for it take the arguments that it takes. -/
structure Replaceable (t : ManagedType) (key : MemberKey) : Prop where
  few : t.slots.slots.length ≤ UInt32.size
  early : key.isStaticInit = false
  method : ∃ m, t.first.unit.method? key = some m ∧
    m.modifiers.contains .superDispatcherBit = false ∧
    (key.isConstructor = true → m.modifiers.isStatic = false)

end ManagedType

namespace Engine

variable {e : Engine} {s : ScopeRef} {t : TypeRef} {c : ClassRef} {b : Method} {key : MemberKey}
  {live : LiveMethod} {v : LiveVersion}

/-- The methods of executors are static and have bodies. -/
theorem CompiledFrom.static {w : LiveVersion} {source : MethodDef} {m : Method}
    (compiled : e.CompiledFrom t w source m) :
    m.isStatic = true ∧ m.isAbstract = false ∧ m.key.isStaticInit = false := by
  obtain ⟨native, names, number, -, -, rfl⟩ := compiled
  have modifiers : (Modifiers.publicBit ||| .staticBit ||| .syntheticBit).isStatic = true ∧
      (Modifiers.publicBit ||| .staticBit ||| .syntheticBit).isAbstract = false := by decide
  exact ⟨modifiers.1, modifiers.2, isStaticInit_executorKey _ _⟩

/-- An executor extends nothing, and has no static initializer. -/
theorem Recorded.executor_bare (recorded : e.Recorded t v) {a : Artifacts}
    (generated : v.artifacts = some a) : (e.classAt a.executor).superclasses = [] ∧
      (e.classAt a.executor).method? .staticInit = none := by
  obtain ⟨w, -, -, -, compiles, sources⟩ := recorded.sources generated
  obtain ⟨native, names, number, -, -, -, described⟩ := compiles.executor
  refine ⟨described.superclasses_eq, Option.eq_none_iff_forall_ne_some.2 fun m found => ?_⟩
  obtain ⟨source, -, last, -⟩ := sources _ _ found
  have stands : executorKey (e.typeAt t).name (.ofDef source) = .staticInit := by
    simpa using List.find?_some last
  have early := isStaticInit_executorKey (e.typeAt t).name (.ofDef source)
  rw [stands] at early
  exact absurd early (by decide)

/-- A call of the host's own method of a member ends as the engine's call of the live member, with
at most one unit of fuel more. -/
theorem MeetsOwn.ends_alike {m : MethodDef} {shape : MethodShape}
    (meets : e.MeetsOwn t c key m shape b) (hosted : e.Hosted t c)
    (recorded : e.Recorded t (e.typeAt t).live)
    (declares : (e.typeAt t).live.shape.method? key = some shape) :
    ∃ k ≤ 1, ∀ (n : Nat) (args : List Value),
      (shape.isStatic = true → args.length = shape.sig.arity) →
      EndsAlike ((Machine.of (e.typeAt t).scope (n + 1 + k)).call c b args e)
        ((Machine.of (e.typeAt t).scope (n + 1)).callLive t key args e) := by
  rcases meets.entry with host | ⟨a, target, id, slot, behind, generated, executes, found, count,
      code, replaced⟩
  · exact ⟨0, Nat.zero_le _, fun n args _ =>
      .of_eq (Machine.callLive_host hosted.native host meets.own args).symm⟩
  · obtain ⟨w, -, -, -, -, sources⟩ := recorded.sources generated
    obtain ⟨source, -, -, compiled⟩ := sources _ _ found
    obtain ⟨static, concrete, early⟩ := compiled.static
    refine ⟨1, Nat.le_refl _, fun n args statics => ?_⟩
    rw [Machine.callLive_executor hosted.native executes generated declares args]
    by_cases fits : args.length = b.argCount
    · by_cases room : e.depth < (e.scopeAt (e.typeAt t).scope).options.maxCallDepth
      · refine .of_eq ?_
        rw [Machine.call_replaced code meets.concrete meets.early fits
          (fun e' same => replaced n args e' same fits) room, meets.static]
      · -- the executor's method is refused as well, once its class is initialized
        have full := Nat.le_of_not_lt room
        rw [Machine.call_overflow (n + 1) meets.concrete fits full, ← meets.static,
          ← Machine.prepare_eq _ c meets.early]
        refine .bind fun _ e' prepared => ?_
        have same := Machine.keeps_prepare (keepsSkeleton_of (e.typeAt t).scope (n + 1)) c b e
        rw [final_of_ok prepared] at same
        have during : e.During e' := .of_skeleton_eq same
        have full' : (e'.scopeAt (e.typeAt t).scope).options.maxCallDepth ≤ e'.depth := by
          rw [options_of_skeleton_eq same, depth_of_skeleton_eq same]
          exact full
        obtain ⟨top, bare⟩ := recorded.executor_bare generated
        have top' : (e'.classAt a.executor).superclasses = [] :=
          (congrArg Class.superclasses (during.classAt a.executor) :).trans top
        obtain ⟨e'', made⟩ := (Machine.of (e.typeAt t).scope n).ensureInitialized_bare top'
          ((during.method? _ _).trans bare)
        rw [Machine.call_overflow n concrete (fits.trans count.symm) full',
          Machine.prepare_eq _ _ early, static, if_pos rfl, bind_apply, made]
        rfl
    · rw [Machine.call_refused (n + 1) c (Method.refusal?_of_misfit meets.concrete fits)]
      have misfit : args.length ≠ target.argCount := count ▸ fits
      cases kind : shape.isStatic with
      | true =>
        refine absurd ?_ fits
        rw [meets.count, statics kind, kind]
        rfl
      | false =>
        simp only [Bool.false_eq_true, if_false]
        rw [bind_apply]
        dsimp only [pure, EStateM.pure]
        rw [Machine.call_refused n _ (Method.refusal?_of_misfit concrete misfit)]
        rfl

/-- Before the first reload the table leaves every member to the host. -/
theorem Chronicled.lookup_first (chronicled : e.Chronicled t)
    (first : (e.typeAt t).live = (e.typeAt t).first) (key : MemberKey) :
    (e.typeAt t).live.dispatch.lookup key = some .host ∨
      (e.typeAt t).live.dispatch.lookup key = none := by
  obtain ⟨slots, -, made⟩ := chronicled.first
  have dispatch : (e.typeAt t).live.dispatch = .allHost slots := by
    rw [first, made]
    rfl
  rw [dispatch]
  cases lookup : (DispatchTable.allHost slots).lookup key with
  | none => exact .inr rfl
  | some entry =>
    obtain ⟨x, found, rfl⟩ := Option.map_eq_some_iff.1 lookup
    obtain ⟨slot, -, rfl⟩ := List.mem_map.1 (List.mem_of_find?_eq_some found)
    exact .inl rfl

/-- So the engine's call of the live member runs the host's own method. -/
theorem Chronicled.callLive_first (chronicled : e.Chronicled t) (hosted : e.Hosted t c)
    (first : (e.typeAt t).live = (e.typeAt t).first)
    (own : (e.classAt c).method? key = some b) (m : Machine) (args : List Value) :
    m.callLive t key args e = m.call c b args e := by
  rcases chronicled.lookup_first first key with lookup | lookup
  · exact Machine.callLive_host hosted.native lookup own args
  · unfold Machine.callLive
    rw [bind_apply, ask_apply]
    dsimp only
    rw [hosted.native, lookup]
    dsimp only
    rw [bind_apply, ask_apply]
    dsimp only
    rw [own]

/-- A host class has a method of the first version with or without a body, and privately or not, as
the version declares it. -/
theorem Hosted.modifiers_own (hosted : e.Hosted t c)
    (verified : (e.typeAt t).first.unit.verify = .ok ()) {m : MethodDef}
    (declared : (e.typeAt t).first.unit.method? key = some m)
    (own : (e.classAt c).method? key = some b) :
    b.isAbstract = m.modifiers.isAbstract ∧ b.modifiers.isPrivate = m.modifiers.isPrivate := by
  obtain ⟨b', own', represents⟩ := hosted.method?_declared verified declared
  obtain rfl : b' = b := Option.some.inj (own'.symm.trans own)
  obtain ⟨names, above, m', -, modifiers, -, -, bound⟩ := hosted.method?_placed verified declared
  let u := (e.typeAt t).first.unit.withGuards (e.optionsOf t) names
  let placed := Class.bind u.name (HostForm.ofUnit u (e.typeAt t).id above).declaredAccess
    (HostForm.place u (e.typeAt t).id above m')
  have widened : b'.modifiers = (HostForm.widen m').modifiers := by
    obtain rfl : b' = placed := Option.some.inj (own'.symm.trans bound)
    exact HostForm.modifiers_place u (e.typeAt t).id above m'
  constructor
  · show b'.modifiers.contains .abstractBit = m.modifiers.contains .abstractBit
    rw [widened, HostForm.contains_widen m' _ rfl rfl, modifiers]
  · cases private_ : m.modifiers.isPrivate with
    | true =>
      rw [widened]
      exact HostForm.isPrivate_widen (modifiers ▸ private_)
    | false => exact represents.isPrivate private_

/-- A call of a method of a host class ends as the engine's call of the live member, with at most
one unit of fuel more, where both are declared alike and have bodies. -/
theorem Chronicled.ends_alike (chronicled : e.Chronicled t) (hosted : e.Hosted t c)
    (balanced : (e.typeAt t).Balanced) (replaceable : (e.typeAt t).Replaceable key)
    {shape : MethodShape} (declares : (e.typeAt t).live.shape.method? key = some shape)
    (concrete : shape.isAbstract = false) (own : (e.classAt c).method? key = some b)
    (modifiers : shape.modifiers = b.declared) :
    ∃ k ≤ 1, ∀ (n : Nat) (args : List Value),
      (shape.isStatic = true → args.length = key.sig.arity) →
      EndsAlike ((Machine.of (e.typeAt t).scope (n + 1 + k)).call c b args e)
        ((Machine.of (e.typeAt t).scope (n + 1)).callLive t key args e) := by
  rcases chronicled.live_cases with ⟨-, first⟩ | ⟨published, recorded⟩
  · exact ⟨0, Nat.zero_le _, fun n args _ =>
      .of_eq (chronicled.callLive_first hosted first own _ args).symm⟩
  · obtain ⟨m, declared, unmarked, constructs⟩ := replaceable.method
    obtain ⟨b', own', represents⟩ := hosted.method?_declared chronicled.verified declared
    obtain rfl : b' = b := Option.some.inj (own'.symm.trans own)
    have same : shape.modifiers = m.modifiers := modifiers.trans represents.declared
    have static : shape.isStatic = m.modifiers.isStatic := congrArg Modifiers.isStatic same
    have keyed : shape.key = key := by simpa using List.find?_some declares
    have bodied : m.modifiers.isAbstract = false := same ▸ concrete
    obtain ⟨b'', meets⟩ := hosted.meets_own chronicled.verified recorded balanced published
      replaceable.few ⟨declared, bodied, replaceable.early, unmarked⟩ declares concrete
      (fun constructor => static ▸ constructs (keyed ▸ constructor)) static
    obtain rfl : b'' = b' := Option.some.inj (meets.own.symm.trans own)
    obtain ⟨k, le, alike⟩ := meets.ends_alike hosted recorded declares
    refine ⟨k, le, fun n args statics => alike n args fun kind => ?_⟩
    rw [statics kind, ← keyed]
    rfl

/-- Under a key a class of a scope has one method, by the host and by live versions. -/
structure SharesMethod (e : Engine) (s : ScopeRef) (key : MemberKey) (c : ClassRef) (b : Method)
    (live : LiveMethod) : Prop where
  home : e.Homes s c
  host : (e.classAt c).method? key = some b
  own : e.ownLiveMethod? s key c = some live
  modifiers : live.modifiers = b.declared
  replaceable : ∀ t, live.managed = some t → (e.typeAt t).Replaceable key

/-- Both say alike whether the method has a body, is static, and is private. -/
theorem SharesMethod.modifiers_eq {e₀ : Engine} (shares : e.SharesMethod s key c b live)
    (reachable : e₀.Reachable) (during : e₀.During e) : b.isAbstract = live.isAbstract ∧
      b.isStatic = live.isStatic ∧ b.modifiers.isPrivate = live.modifiers.isPrivate := by
  have housed := during.housed reachable.housed reachable.grounded
  have home := shares.home
  unfold LiveMethod.isAbstract LiveMethod.isStatic
  rw [shares.modifiers]
  cases managed : e.managedOf? s c with
  | none =>
    obtain ⟨name, known⟩ := home
    have lt : c < e₀.classes.size :=
      reachable.grounded.class_lt s name c (during.class? s name ▸ known)
    have plain : (e₀.classAt c).managed = none := by
      refine Eq.trans ?_ (housed.managed_eq_none ⟨name, known⟩ managed)
      exact (congrArg Class.managed (during.classAt c)).symm
    have own : (e₀.classAt c).method? key = some b := (during.method? c key).symm.trans shares.host
    rw [(reachable.bound lt).plain plain key b own]
    exact ⟨rfl, rfl, rfl⟩
  | some t =>
    have hosted := housed.hosted_of_managedOf? home managed
    have chronicled := during.chronicled reachable (housed.managed_of_managedOf? managed).1
    have own := shares.own
    unfold ownLiveMethod? at own
    rw [managed] at own
    obtain ⟨shape, -, same⟩ := Option.map_eq_some_iff.1 own
    obtain ⟨m, declared, -⟩ := (shares.replaceable t (same ▸ rfl)).method
    obtain ⟨b', own', represents⟩ := hosted.method?_declared chronicled.verified declared
    obtain rfl : b' = b := Option.some.inj (own'.symm.trans shares.host)
    obtain ⟨bodies, access⟩ := hosted.modifiers_own chronicled.verified declared own'
    rw [represents.declared]
    exact ⟨bodies, represents.isStatic, access⟩

/-- A call of the host's method ends as the call of the one that live versions have, with at most
one unit of fuel more.  A static method must be given the arguments that it takes, for only the
engine initializes the class before it counts them. -/
theorem SharesMethod.ends_alike {e₀ : Engine} (shares : e.SharesMethod s key c b live)
    (reachable : e₀.Reachable) (during : e₀.During e) :
    ∃ k ≤ 1, ∀ (n : Nat) (args : List Value),
      (live.isStatic = true → args.length = key.sig.arity) →
      EndsAlike ((Machine.of s (n + 1 + k)).call c b args e)
        ((Machine.of s (n + 1)).callResolved live key args e) := by
  have housed := during.housed reachable.housed reachable.grounded
  obtain ⟨bodies, -⟩ := shares.modifiers_eq reachable during
  cases abstract : live.isAbstract with
  | true =>
    refine ⟨0, Nat.zero_le _, fun n args _ => ?_⟩
    unfold Machine.callResolved
    rw [Nat.add_zero, if_pos abstract,
      Machine.call_refused n c (if_pos (bodies.trans abstract) : b.refusal? args = _)]
    rfl
  | false =>
    have own := shares.own
    unfold ownLiveMethod? at own
    dsimp only at own
    rw [shares.host] at own
    -- In a class that no type manages live versions run the host's method as well.
    cases managed : e.managedOf? s c with
    | none =>
      rw [managed] at own
      obtain rfl := Option.some.inj own
      exact ⟨0, Nat.zero_le _, fun n args _ =>
        .of_eq (congrFun (Machine.callResolved_host abstract rfl rfl).symm e)⟩
    | some t =>
      rw [managed] at own
      obtain ⟨shape, declares, rfl⟩ := Option.map_eq_some_iff.1 own
      have hosted := housed.hosted_of_managedOf? shares.home managed
      obtain ⟨isManaged, rfl⟩ := housed.managed_of_managedOf? managed
      obtain ⟨k, le, alike⟩ := (during.chronicled reachable isManaged).ends_alike hosted
        (during.balanced reachable isManaged) (shares.replaceable t rfl) declares abstract
        shares.host shares.modifiers
      refine ⟨k, le, fun n args statics => ?_⟩
      rw [Machine.callResolved_live abstract rfl]
      exact alike n args statics

end Engine

end LiveUpdate
