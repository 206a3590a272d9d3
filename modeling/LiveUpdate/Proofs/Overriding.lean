import LiveUpdate.Proofs.Books
import LiveUpdate.Proofs.HostMembers
import LiveUpdate.Proofs.Survival

/-!
# Overriding inherited methods

A host class does not override a final method of its parent, and a version that is published
under verification overrides no final method of the host's parent and does not narrow the
visibility of one.  What the host's parent has is what its supertypes were first defined with,
so the methods that their live versions declare are respected as far as those versions declare
them as the first ones did.
-/

set_option autoImplicit false

namespace LiveUpdate.Engine

open Exec

variable {e e' : Engine} {s : ScopeRef} {t : TypeRef} {c : ClassRef} {key : MemberKey}

/-! ### What is known of the methods of every class -/

/-- A class overrides no final method of its parent. -/
def Permits (e : Engine) (c : ClassRef) : Prop :=
  ∀ key m, (e.classAt c).method? key = some m → m.isSelectable = true →
    ∀ above, (e.inheritedVtable c).get? key = some above → above.modifiers.isFinal = false

/-- A class overrides no final method of its parent, and a class that is not a host has its
methods with the modifiers that they are declared with. -/
structure Bound (e : Engine) (c : ClassRef) : Prop where
  permitted : e.Permits c
  plain : (e.classAt c).managed = none → ∀ key m, (e.classAt c).method? key = some m →
    m.declared = m.modifiers

theorem Grows.method? (grows : e.Grows e') (lt : c < e.classes.size) :
    (e'.classAt c).method? = (e.classAt c).method? := by
  have methods : (e'.classAt c).skeleton.methods = (e.classAt c).skeleton.methods := by
    rw [grows.classAt c lt]
  have methods : (e'.classAt c).methods = (e.classAt c).methods := methods
  unfold Class.method?
  rw [methods]

theorem Permits.of_grows (permits : e.Permits c) (lt : c < e.classes.size) (grows : e.Grows e')
    (grounded : e.Grounded) : e'.Permits c := by
  unfold Permits
  rw [grows.method? lt, grows.inheritedVtable grounded.parent_lt lt]
  exact permits

theorem Bound.of_grows (bound : e.Bound c) (lt : c < e.classes.size) (grows : e.Grows e')
    (grounded : e.Grounded) : e'.Bound c := by
  have managed : (e'.classAt c).skeleton.managed = (e.classAt c).skeleton.managed := by
    rw [grows.classAt c lt]
  have managed : (e'.classAt c).managed = (e.classAt c).managed := managed
  refine ⟨bound.permitted.of_grows lt grows grounded, ?_⟩
  rw [grows.method? lt, managed]
  exact bound.plain

end LiveUpdate.Engine

namespace LiveUpdate

/-- A class that is defined overrides no final method. -/
theorem Class.permitted_of_define {place : ClassRef} {id : Nat} {spec : ClassSpec}
    {parent : Option Class} {interfaces : List Class} {cls : Class} {key : MemberKey}
    (defined : define place id spec parent interfaces = .ok cls) {m : Method}
    (found : (methodsOf spec).get? key = some m) (selectable : m.isSelectable = true)
    {above : Method} (inherited : ((parent.map Class.vtable).getD []).get? key = some above) :
    above.modifiers.isFinal = false := by
  unfold define at defined
  dsimp only at defined
  split at defined
  · cases defined
  · split at defined
    · cases defined
    · split at defined
      · cases defined
      next permitted =>
        have permitted := Option.eq_none_iff_forall_ne_some.2 permitted
        have listed : (key, m) ∈ (methodsOf spec).filter fun entry => entry.2.isSelectable :=
          List.mem_filter.2 ⟨Table.mem_of_get?_eq_some found, selectable⟩
        have silent := List.findSome?_eq_none_iff.1 permitted _ listed
        have keyed : m.key = key := key_of_methodsOf found
        unfold overrideFault? at silent
        rw [keyed, inherited] at silent
        simpa using silent

end LiveUpdate

namespace LiveUpdate.Engine

variable {e e' : Engine} {s : ScopeRef} {t : TypeRef} {c : ClassRef} {key : MemberKey}

theorem Describes.method?_eq {spec : ClassSpec} (described : e.Describes c spec)
    (key : MemberKey) : (e.classAt c).method? key = (Class.methodsOf spec).get? key := by
  unfold Class.method?
  rw [described.methods_eq]

/-- A class that was defined below what is there now overrides no final method. -/
theorem Describes.permits {spec : ClassSpec} {place : ClassRef} {id : Nat} {cls : Class}
    (described : e'.Describes c spec)
    (defined : Class.define place id spec (spec.parent.map e.classAt)
      (spec.interfaces.map e.classAt) = .ok cls)
    (before : ∀ p ∈ spec.parent, (e'.classAt p).skeleton = (e.classAt p).skeleton) :
    e'.Permits c := by
  have inherited : e'.inheritedVtable c =
      ((spec.parent.map e.classAt).map Class.vtable).getD [] := by
    unfold inheritedVtable
    rw [described.parent_eq]
    cases parent : spec.parent with
    | none => rfl
    | some p =>
      have vtable : (e'.classAt p).skeleton.vtable = (e.classAt p).skeleton.vtable := by
        rw [before p parent]
      exact vtable
  intro key m found selectable above selected
  rw [described.method?_eq] at found
  rw [inherited] at selected
  exact Class.permitted_of_define defined found selectable selected

/-- The class that an edit adds is bound. -/
theorem Admits.bound {spec : ClassSpec} {cls : Class} (admits : e.Admits s spec cls)
    (described : e'.Describes e.classes.size spec)
    (before : ∀ p ∈ spec.parent, (e'.classAt p).skeleton = (e.classAt p).skeleton)
    (plain : spec.managed = none → spec.declaredAccess = []) : e'.Bound e.classes.size := by
  obtain ⟨id, defined⟩ := admits.defined
  refine ⟨described.permits defined before, fun unmanaged key m found => ?_⟩
  rw [described.method?_eq, Class.get?_methodsOf] at found
  obtain ⟨own, -, rfl⟩ := Option.map_eq_some_iff.1 found
  have empty := plain (described.managed_eq.symm.trans unmanaged)
  unfold Class.bind
  rw [empty]
  rfl

/-- A class that is not a host widens nothing. -/
theorem PlainOrigin.declaredAccess {spec : ClassSpec} (origin : e.PlainOrigin s spec) :
    spec.declaredAccess = [] := by
  cases origin <;> rfl

theorem Edit.bound (edit : e.Edit e') (grounded : e.Grounded)
    (all : ∀ c < e.classes.size, e.Bound c) : ∀ c < e'.classes.size, e'.Bound c := by
  have grows := edit.grows
  have old (c : ClassRef) (lt : c < e.classes.size) : e'.Bound c :=
    (all c lt).of_grows lt grows grounded
  have either (size : e'.classes.size = e.classes.size + 1) (last : e'.Bound e.classes.size) :
      ∀ c < e'.classes.size, e'.Bound c := by
    intro c lt
    by_cases new : c = e.classes.size
    · exact new ▸ last
    · rw [size] at lt
      exact old c (Nat.lt_of_le_of_ne (Nat.le_of_lt_succ lt) new)
  rcases edit.adds with same | ⟨s, spec, cls, admits, origin, rfl⟩ |
      ⟨s, type, form, parent, interfaces, cls, manages, admits, rfl⟩
  · exact fun c lt => old c (same ▸ lt)
  · exact either (size_addClass e s cls) (admits.bound admits.describes
      (fun p mem => grows.classAt p (admits.parent_lt p mem)) fun _ => origin.declaredAccess)
  · exact either (size_addClass (e.addType s type) s cls)
      (admits.bound (admits.describes.of_classes_eq rfl)
        (fun p mem => grows.classAt p (admits.parent_lt p mem)) fun managed => nomatch managed)

/-- Every class of a reachable engine is bound. -/
theorem Reachable.bound (reachable : e.Reachable) (lt : c < e.classes.size) : e.Bound c := by
  obtain ⟨edits, -⟩ := reachable.edits
  clear reachable
  have both : e.Grounded ∧ ∀ c < e.classes.size, e.Bound c := by
    clear lt
    induction edits with
    | refl => exact ⟨grounded_empty, fun c lt => by cases lt⟩
    | tail _ edit ih => exact ⟨edit.grounded ih.1, edit.bound ih.1 ih.2⟩
  exact both.2 c lt

/-! ### The live supertypes under verification -/

/-- A scope publishes no version that it has not verified against the host. -/
def Verifies (e : Engine) (s : ScopeRef) : Prop := (e.scopeAt s).options.verifyReloads = true

section Chains

variable (reachable : e.Reachable) (verifies : e.Verifies s)
include reachable verifies

/-- A version that was published under verification is safe, and the first one keeps its
supertype by being the first. -/
theorem Reachable.superName_live (hosted : e.Hosted t c) (scope : (e.typeAt t).scope = s) :
    (e.typeAt t).live.shape.superName = (e.typeAt t).first.unit.superName := by
  subst scope
  have chronicled := reachable.chronicled ⟨hosted.type_lt, by rw [hosted.native]; rfl⟩
  have first : (e.typeAt t).first.shape.superName = (e.typeAt t).first.unit.superName := by
    rw [TypeShape.eq_ofUnit chronicled.shaped]
    rfl
  cases published : (e.typeAt t).published with
  | none =>
    unfold ManagedType.live
    rw [published]
    exact first
  | some v =>
    have safe := (chronicled.recorded published).safe verifies c hosted.native
    unfold ShapeDiff.isSafe at safe
    simp only [Bool.and_eq_true, Bool.not_eq_true', ShapeDiff.between, decide_eq_false_iff_not,
      ne_eq, Decidable.not_not] at safe
    unfold ManagedType.live
    rw [published]
    exact safe.1.1.symm.trans first

/-- Under verification the live parent of a class is the parent that the host knows. -/
theorem Reachable.liveParent_eq (home : e.Homes s c) :
    e.liveParent s c = .ok (e.classAt c).parent := by
  refine reachable.housed.liveParent_of_keeps home fun t managed => ?_
  have hosted := reachable.housed.hosted_of_managedOf? home managed
  exact reachable.superName_live verifies hosted (reachable.housed.managed_of_managedOf? managed).2

/-- Under verification the live chain of a class consists of the class and its superclasses. -/
theorem Reachable.liveChain_eq (home : e.Homes s c) :
    e.liveChain s c = ⟨c :: (e.classAt c).superclasses, .top⟩ := by
  refine reachable.housed.liveChain_of_parents home fun d mem => ?_
  refine reachable.liveParent_eq verifies ?_
  rcases List.mem_cons.1 mem with rfl | above
  · exact home
  · exact ((reachable.housed.superclasses_descend home).1 d above).2

end Chains

/-! ### Methods that live supertypes declare as they first did -/

/-- The live versions of the superclasses of a class declare a method with the modifiers with
which the first ones did, or like those do not declare it. -/
def KeepsAbove (e : Engine) (s : ScopeRef) (key : MemberKey) (c : ClassRef) : Prop :=
  ∀ d ∈ (e.classAt c).superclasses, ∀ t, e.managedOf? s d = some t →
    ((e.typeAt t).live.shape.method? key).map MethodShape.modifiers =
      ((e.typeAt t).first.shape.method? key).map MethodShape.modifiers

end LiveUpdate.Engine

namespace LiveUpdate

/-- A method that virtual calls select stands for a declaration: it is final if that is, and
declared at most as narrow. -/
structure Method.Upholds (m : Method) (declared : Modifiers) : Prop where
  isFinal : declared.isFinal = true → m.modifiers.isFinal = true ∧ m.declared.isFinal = true
  visibility : m.declared.visibility.rank ≤ declared.visibility.rank

theorem Method.Represents.upholds {m : Method} {declared : Modifiers}
    (represents : m.Represents declared) : m.Upholds declared where
  isFinal final := ⟨represents.isFinal.trans final, represents.declared ▸ final⟩
  visibility := Nat.le_of_eq (by rw [represents.declared])

end LiveUpdate

namespace LiveUpdate.Engine

variable {e e' : Engine} {s : ScopeRef} {t : TypeRef} {c : ClassRef} {key : MemberKey}

/-- A class of a scope that belongs to none of its managed types belongs to none. -/
theorem Housed.managed_eq_none (housed : e.Housed) (home : e.Homes s c)
    (unmanaged : e.managedOf? s c = none) : (e.classAt c).managed = none := by
  obtain ⟨name, known⟩ := home
  obtain ⟨spec, described, -, -, types⟩ := housed.classes s name c known
  cases managed : spec.managed with
  | none => exact described.managed_eq.trans managed
  | some id =>
    obtain ⟨t, registered, -⟩ := types id managed
    unfold managedOf? at unmanaged
    rw [described.managed_eq, managed] at unmanaged
    cases registered.symm.trans unmanaged

section Inherited

variable (reachable : e.Reachable) (home : e.Homes s c)
include reachable home

/-- What a class itself declares now, and neither statically nor privately, virtual calls select
in it, if it declares it as it first did. -/
theorem Reachable.upholds_own (plain : key.isConstructor = false ∧ key.isStaticInit = false)
    {above : LiveMethod} (own : e.ownLiveMethod? s key c = some above)
    (inheritable : above.modifiers.isStatic = false ∧ above.modifiers.isPrivate = false)
    (keeps : ∀ t, e.managedOf? s c = some t →
      ((e.typeAt t).live.shape.method? key).map MethodShape.modifiers =
        ((e.typeAt t).first.shape.method? key).map MethodShape.modifiers) :
    ∃ m, (e.classAt c).vtable.get? key = some m ∧ m.Upholds above.modifiers := by
  have housed := reachable.housed
  obtain ⟨m, found, represents⟩ : ∃ m, (e.classAt c).method? key = some m ∧
      m.Represents above.modifiers := by
    unfold ownLiveMethod? at own
    dsimp only at own
    cases managed : e.managedOf? s c with
    | none =>
      rw [managed] at own
      obtain ⟨m, found, rfl⟩ := Option.map_eq_some_iff.1 own
      obtain ⟨name, known⟩ := home
      have bound := reachable.bound (reachable.grounded.class_lt s name c known)
      have same := bound.plain (housed.managed_eq_none ⟨name, known⟩ managed) key m found
      exact ⟨m, found, rfl, by rw [same], by rw [same], fun open_ => same ▸ open_⟩
    | some t =>
      rw [managed] at own
      obtain ⟨live, declared, rfl⟩ := Option.map_eq_some_iff.1 own
      have hosted := housed.hosted_of_managedOf? home managed
      have chronicled := reachable.chronicled ⟨hosted.type_lt, by rw [hosted.native]; rfl⟩
      have first := keeps t managed
      rw [declared, TypeShape.eq_ofUnit chronicled.shaped, TypeShape.method?_ofUnit] at first
      obtain ⟨shape, some_shape, same⟩ := Option.map_eq_some_iff.1 first.symm
      obtain ⟨m, some_m, rfl⟩ := Option.map_eq_some_iff.1 some_shape
      obtain ⟨b, found, represents⟩ := hosted.method?_declared chronicled.verified some_m
      have same : m.modifiers = live.modifiers := same
      exact ⟨b, found, same ▸ represents⟩
  obtain ⟨name, known⟩ := home
  obtain ⟨spec, described, -, -, -⟩ := housed.classes s name c known
  have keyed : m.key = key := by
    unfold Class.method? at found
    rw [described.methods_eq] at found
    exact Class.key_of_methodsOf found
  have selectable : m.isSelectable = true := by
    unfold Method.isSelectable Method.isStatic Method.isConstructor
    rw [keyed, plain.1, plain.2, represents.isStatic, inheritable.1,
      represents.isPrivate inheritable.2]
    rfl
  refine ⟨m, ?_, represents.upholds⟩
  rw [described.get?_vtable, found, Option.filter_some, if_pos selectable, Option.some_or]

/-- Where a class does not declare a method, neither now nor first, what stands for the
declaration above stands for it below. -/
theorem Reachable.upholds_inherited {declared : Modifiers}
    (unowned : e.ownLiveMethod? s key c = none)
    (keeps : ∀ t, e.managedOf? s c = some t →
      ((e.typeAt t).live.shape.method? key).map MethodShape.modifiers =
        ((e.typeAt t).first.shape.method? key).map MethodShape.modifiers)
    {m : Method} (inherited : (e.inheritedVtable c).get? key = some m)
    (upholds : m.Upholds declared) :
    ∃ m, (e.classAt c).vtable.get? key = some m ∧ m.Upholds declared := by
  have housed := reachable.housed
  obtain ⟨name, known⟩ := home
  obtain ⟨spec, described, -, -, -⟩ := housed.classes s name c known
  rw [described.get?_vtable, inherited]
  cases selected : ((e.classAt c).method? key).filter Method.isSelectable with
  | none => exact ⟨m, rfl, upholds⟩
  | some b =>
    obtain ⟨found, selectable⟩ := Option.filter_eq_some_iff.1 selected
    refine ⟨b, rfl, ?_⟩
    have bound := reachable.bound (reachable.grounded.class_lt s name c known)
    have final : m.modifiers.isFinal = false :=
      bound.permitted key b found selectable m inherited
    unfold ownLiveMethod? at unowned
    dsimp only at unowned
    cases managed : e.managedOf? s c with
    | none =>
      rw [managed, Option.map_eq_none_iff] at unowned
      cases unowned.symm.trans found
    | some t =>
      rw [managed, Option.map_eq_none_iff] at unowned
      have hosted := housed.hosted_of_managedOf? ⟨name, known⟩ managed
      have chronicled := reachable.chronicled ⟨hosted.type_lt, by rw [hosted.native]; rfl⟩
      have first := keeps t managed
      rw [unowned, TypeShape.eq_ofUnit chronicled.shaped, TypeShape.method?_ofUnit, Option.map_map,
        Option.map_none, eq_comm, Option.map_eq_none_iff] at first
      have generated := hosted.method?_generated chronicled.verified reachable.lineage first found
      rw [inherited] at generated
      refine ⟨fun final' => ?_, ?_⟩
      · exact absurd (final.symm.trans (upholds.isFinal final').1) Bool.false_ne_true
      · rcases generated.declared with open_ | ⟨m', some_m', same⟩
        · rw [open_]
          exact Nat.zero_le _
        · obtain rfl : m = m' := Option.some.inj some_m'
          rw [same]
          exact upholds.visibility

end Inherited

/-- What the nearest class of a chain declares, virtual calls select in the lowest one, if all
classes of the chain declare it as they first did. -/
theorem Reachable.upholds_nearest (reachable : e.Reachable) (home : e.Homes s c)
    (plain : key.isConstructor = false ∧ key.isStaticInit = false) {above : LiveMethod}
    (nearest : (c :: (e.classAt c).superclasses).findSome? (e.ownLiveMethod? s key) = some above)
    (inheritable : above.modifiers.isStatic = false ∧ above.modifiers.isPrivate = false)
    (keeps : ∀ d ∈ c :: (e.classAt c).superclasses, ∀ t, e.managedOf? s d = some t →
      ((e.typeAt t).live.shape.method? key).map MethodShape.modifiers =
        ((e.typeAt t).first.shape.method? key).map MethodShape.modifiers) :
    ∃ m, (e.classAt c).vtable.get? key = some m ∧ m.Upholds above.modifiers := by
  induction c using Nat.strongRecOn with
  | ind c ih =>
    have here := keeps c List.mem_cons_self
    rw [List.findSome?_cons] at nearest
    cases own : e.ownLiveMethod? s key c with
    | some found =>
      rw [own] at nearest
      cases nearest
      exact reachable.upholds_own home plain own inheritable here
    | none =>
      rw [own] at nearest
      obtain ⟨above_eq, parents⟩ := reachable.housed.superclasses_eq home
      cases parent : (e.classAt c).parent with
      | none =>
        rw [above_eq, parent] at nearest
        cases nearest
      | some p =>
        rw [above_eq, parent] at nearest keeps
        obtain ⟨lt, home_p⟩ := parents p parent
        obtain ⟨m, selected, upholds⟩ := ih p lt home_p nearest fun d mem =>
          keeps d (List.mem_cons_of_mem _ mem)
        have inherited : (e.inheritedVtable c).get? key = some m := by
          unfold inheritedVtable
          rw [parent]
          exact selected
        exact reachable.upholds_inherited home own here inherited upholds

/-- A version in force that was published under verification overrides no final method that the
nearest live supertype declares as it first did, and narrows none. -/
theorem Reachable.live_respects (reachable : e.Reachable)
    (verifies : e.Verifies (e.typeAt t).scope) {v : LiveVersion}
    (published : (e.typeAt t).published = some v) {native parent : ClassRef}
    (hosted : e.Hosted t native)
    (below : e.liveParent (e.typeAt t).scope native = .ok (some parent)) {m : MethodShape}
    (mem : m ∈ v.shape.plainMethods) (kind : m.isStatic = false)
    (open_ : m.modifiers.isPrivate = false) {above : LiveMethod}
    (nearest : (e.liveChain (e.typeAt t).scope parent).findSome?
      (e.ownLiveMethod? (e.typeAt t).scope m.key) = .ok (some above))
    (inheritable : above.modifiers.isStatic = false ∧ above.modifiers.isPrivate = false)
    (keeps : e.KeepsAbove (e.typeAt t).scope m.key native) :
    above.modifiers.isFinal = false ∧
      m.modifiers.visibility.rank ≤ above.modifiers.visibility.rank := by
  have home : e.Homes (e.typeAt t).scope native := ⟨_, hosted.known⟩
  rw [reachable.liveParent_eq verifies home] at below
  have parent_eq : (e.classAt native).parent = some parent := Except.ok.inj below
  obtain ⟨superclasses, parents⟩ := reachable.housed.superclasses_eq home
  have home_p := (parents parent parent_eq).2
  rw [parent_eq] at superclasses
  rw [reachable.liveChain_eq verifies home_p] at nearest
  have plain : m.key.isConstructor = false ∧ m.key.isStaticInit = false := by
    simpa [MethodShape.isPlain, MethodShape.isConstructor, MethodShape.isStaticInit] using
      (List.mem_filter.1 mem).2
  obtain ⟨inherited, selected, upholds⟩ := reachable.upholds_nearest home_p plain
    (LiveChain.findSome?_eq_ok nearest) inheritable fun d mem => keeps d (superclasses ▸ mem)
  have chronicled := reachable.chronicled ⟨hosted.type_lt, by rw [hosted.native]; rfl⟩
  have safe := (chronicled.recorded published).safe verifies native hosted.native
  unfold ShapeDiff.isSafe at safe
  rw [Bool.and_eq_true, List.all_eq_true] at safe
  have permitted := safe.2 m mem
  have selected' : (e.inheritedVtable native).get? m.key = some inherited := by
    unfold inheritedVtable
    rw [parent_eq]
    exact selected
  rw [kind, open_, selected'] at permitted
  simp only [mayOverride, Bool.false_or, Bool.and_eq_true, Bool.not_eq_true',
    decide_eq_true_eq] at permitted
  refine ⟨Bool.eq_false_iff.2 fun final => ?_, permitted.2.trans upholds.visibility⟩
  exact Bool.false_ne_true (permitted.1.symm.trans (upholds.isFinal final).2)

/-- An accepted reload publishes a version. -/
theorem Reachable.published_of_accepted (reachable : e.Reachable) {fuel : Nat} {stamp : String}
    {data : List UInt8} (accepted : ManagedType.load fuel t stamp data e = .ok true e') :
    e'.Reachable ∧ e.Grows e' ∧ (e'.typeAt t).published = some (e'.typeAt t).live := by
  have managed := ManagedType.isManaged_of_accepted accepted
  have final : (ManagedType.load fuel t stamp data).final e = e' := by
    unfold Exec.final
    rw [accepted]
  have step : e.Operation e' := final ▸ .load fuel t stamp data managed.1
  have reachable' := reachable.step step
  have grows := reachable.grows (Relation.ReflTransGen.single step)
  have kept := grows.typeAt t managed.1
  have managed' : e'.IsManaged t :=
    ⟨Nat.lt_of_lt_of_le managed.1 grows.types, by rw [kept.native]; exact managed.2⟩
  refine ⟨reachable', grows, ?_⟩
  obtain ⟨v, publishes⟩ := (ManagedType.ends_load reachable.grounded managed.1 fuel stamp
    data).ok accepted
  obtain ⟨versions, -⟩ := publishes.versions managed.1
  obtain ⟨before, versions_before, -, -⟩ := (reachable.chronicled managed).later
  obtain ⟨later, versions_after, last, -⟩ := (reachable'.chronicled managed').later
  have later_eq : later = before ++ [v] := by
    rw [versions_after, versions_before] at versions
    exact (List.cons.inj versions).2
  rw [later_eq, List.getLast?_concat] at last
  exact ManagedType.published_eq_live (by rw [last]; rfl)

end LiveUpdate.Engine

namespace LiveUpdate

open Engine

/-- An accepted reload respects the live supertypes that are as they were first defined.  In the
new version no method that is neither static nor private overrides a final method of the nearest
live supertype that declares one, and none is less visible than that, provided that what is
declared there is inherited, and that the live supertypes declare the method with the modifiers
that their first versions gave it. -/
theorem accepted_reload_respects_supertypes {e e' : Engine} (reachable : e.Reachable) {t : TypeRef}
    (verifies : e.Verifies (e.typeAt t).scope) {fuel : Nat} {stamp : String} {data : List UInt8}
    (accepted : ManagedType.load fuel t stamp data e = .ok true e') {native parent : ClassRef}
    (hosted : (e'.typeAt t).native = some native)
    (below : e'.liveParent (e'.typeAt t).scope native = .ok (some parent)) {m : MethodShape}
    (mem : m ∈ (e'.typeAt t).live.shape.plainMethods) (kind : m.isStatic = false)
    (open_ : m.modifiers.isPrivate = false) {above : LiveMethod}
    (nearest : (e'.liveChain (e'.typeAt t).scope parent).findSome?
      (e'.ownLiveMethod? (e'.typeAt t).scope m.key) = .ok (some above))
    (inheritable : above.modifiers.isStatic = false ∧ above.modifiers.isPrivate = false)
    (keeps : e'.KeepsAbove (e'.typeAt t).scope m.key native) :
    above.modifiers.isFinal = false ∧
      m.modifiers.visibility.rank ≤ above.modifiers.visibility.rank := by
  obtain ⟨reachable', grows, published⟩ := reachable.published_of_accepted accepted
  have managed := ManagedType.isManaged_of_accepted accepted
  have kept := grows.typeAt t managed.1
  have verifies' : e'.Verifies (e'.typeAt t).scope := by
    obtain ⟨native', hosted'⟩ := Option.isSome_iff_exists.1 managed.2
    have options := grows.optionsOf reachable.grounded managed.1 hosted'
    unfold Verifies
    rw [show (e'.scopeAt (e'.typeAt t).scope).options = e'.optionsOf t from rfl, options]
    exact verifies
  have managed' : e'.IsManaged t :=
    ⟨Nat.lt_of_lt_of_le managed.1 grows.types, by rw [hosted]; rfl⟩
  obtain ⟨native', hosted'⟩ := reachable'.housed.hosts t managed'
  obtain rfl : native' = native := Option.some.inj (hosted'.native.symm.trans hosted)
  exact reachable'.live_respects verifies' published hosted' below mem kind open_ nearest
    inheritable keeps

namespace Overridden

/-- The method under which the types below answer a number. -/
def answer : MemberKey := ⟨"m", ⟨[], .int⟩⟩

/-- A type with one method. -/
def answering (u : TypeUnit) (modifiers : Modifiers) (n : Int64) : TypeUnit :=
  u.addMethod (.make answer.name answer.sig modifiers [.constInt n, .retValue])

def above (modifiers : Modifiers) (n : Int64) : TypeUnit := answering (.named "app.P") modifiers n

def below (n : Int64) : TypeUnit :=
  answering ((TypeUnit.named "app.C").extending "app.P") .publicBit n

/-- A scope in which both types were defined. -/
def defined : Engine :=
  ((Engine.opened { included := ["app.*"] }).defining 4 (above .publicBit 1)).defining 4 (below 2)

/-- The scope after a reload of the supertype. -/
def changed (modifiers : Modifiers) : Engine := defined.reloading 4 0 "later" (above modifiers 3)

/-- The scope after a reload of the subtype too. -/
def engine (modifiers : Modifiers) : Engine := (changed modifiers).reloading 4 1 "later" (below 4)

/-- Whether a reload was accepted. -/
def isAccepted (outcome : EStateM.Result (Stop ReloadError) Engine Bool) : Bool :=
  match outcome with
  | .ok accepted _ => accepted
  | .error .. => false

theorem eq_ok_of_isAccepted {x : Exec ReloadError Bool} {e : Engine}
    (accepted : isAccepted (x e) = true) : x e = .ok true (x.final e) := by
  unfold Exec.final
  cases run : x e with
  | ok loaded e' =>
    rw [run] at accepted
    exact congrArg (EStateM.Result.ok · e') accepted
  | error stop e' =>
    rw [run] at accepted
    cases accepted

/-- The modifiers with which the supertype declares the method now. -/
def modifiersAbove (e : Engine) : Option Modifiers :=
  ((e.liveChain 0 0).findSome? (e.ownLiveMethod? 0 answer)).toOption.join.map LiveMethod.modifiers

/-- The reload of the subtype is accepted after that of the supertype, and the supertype declares
the method with the new modifiers. -/
def Accepts (modifiers : Modifiers) : Prop :=
  (((Engine.opened { included := ["app.*"] }).defining 4 (above .publicBit 1)).scopes.size = 1 ∧
      defined.types.size = 2) ∧
    isAccepted (ManagedType.load 4 1 "later" (below 4).encode (changed modifiers)) = true ∧
    (((changed modifiers).typeAt 1).scope, ((engine modifiers).typeAt 1).scope) = (0, 0) ∧
    ((changed modifiers).scopeAt 0).options.verifyReloads = true ∧
    ((engine modifiers).typeAt 1).native = some 1 ∧
    ((engine modifiers).liveParent 0 1).toOption = some (some 0) ∧
    (((engine modifiers).typeAt 1).live.shape.plainMethods.find? fun m => m.key = answer).map
      MethodShape.modifiers = some .publicBit ∧
    modifiersAbove (engine modifiers) = some modifiers

theorem Accepts.reachable {modifiers : Modifiers} (accepts : Accepts modifiers) :
    (changed modifiers).Reachable := by
  obtain ⟨one, two⟩ := accepts.1
  have first := (Engine.reachable_opened { included := ["app.*"] }).defining 4 (above .publicBit 1)
    (by decide)
  have second : defined.Reachable := first.defining 4 (below 2) (one ▸ Nat.one_pos)
  exact second.reloading 4 0 _ _ (two ▸ Nat.zero_lt_two)

theorem Accepts.nearest {modifiers : Modifiers} (accepts : Accepts modifiers) :
    ∃ live, ((engine modifiers).liveChain 0 0).findSome?
        ((engine modifiers).ownLiveMethod? 0 answer) = .ok (some live) ∧
      live.modifiers = modifiers := by
  obtain ⟨-, -, -, -, -, -, -, declared⟩ := accepts
  unfold modifiersAbove at declared
  obtain ⟨live, found, same⟩ := Option.map_eq_some_iff.1 declared
  cases search : ((engine modifiers).liveChain 0 0).findSome?
      ((engine modifiers).ownLiveMethod? 0 answer) with
  | error stop =>
    rw [search] at found
    cases found
  | ok found' =>
    rw [search] at found
    obtain rfl : found' = some live := found
    exact ⟨live, rfl, same⟩

theorem Accepts.below_eq {modifiers : Modifiers} (accepts : Accepts modifiers) :
    (engine modifiers).liveParent 0 1 = .ok (some 0) := by
  obtain ⟨-, -, -, -, -, parent, -, -⟩ := accepts
  cases found : (engine modifiers).liveParent 0 1 with
  | error name =>
    rw [found] at parent
    cases parent
  | ok p =>
    rw [found] at parent
    exact congrArg Except.ok (Option.some.inj parent)

/-- The new version of the subtype declares a method that the supertype declares as well. -/
structure Overrides (e e' : Engine) (m : MethodShape) (live : LiveMethod) : Prop where
  reachable : e.Reachable
  verifies : e.Verifies (e.typeAt 1).scope
  run : ManagedType.load 4 1 "later" (below 4).encode e = .ok true e'
  native : (e'.typeAt 1).native = some 1
  parent : e'.liveParent (e'.typeAt 1).scope 1 = .ok (some 0)
  mem : m ∈ (e'.typeAt 1).live.shape.plainMethods
  modifiers : m.modifiers = .publicBit
  nearest : (e'.liveChain (e'.typeAt 1).scope 0).findSome?
    (e'.ownLiveMethod? (e'.typeAt 1).scope m.key) = .ok (some live)

theorem Accepts.overrides {modifiers : Modifiers} (accepts : Accepts modifiers) :
    ∃ m live, Overrides (changed modifiers) (engine modifiers) m live ∧ m.key = answer ∧
      live.modifiers = modifiers := by
  obtain ⟨live, nearest, same⟩ := accepts.nearest
  have parent := accepts.below_eq
  have reachable := accepts.reachable
  obtain ⟨-, accepted, scopes, verifies, native, -, declared, -⟩ := accepts
  obtain ⟨scope, scope'⟩ := Prod.mk.inj scopes
  obtain ⟨m, found, public_⟩ := Option.map_eq_some_iff.1 declared
  have key : m.key = answer := by simpa using List.find?_some found
  refine ⟨m, live, ⟨reachable, ?_, eq_ok_of_isAccepted accepted, native, ?_,
    List.mem_of_find?_eq_some found, public_, ?_⟩, key, same⟩
  · rw [scope]
    exact verifies
  · rw [scope']
    exact parent
  · rw [scope', key]
    exact nearest

set_option maxRecDepth 100000 in
/-- The supertype is reloaded with the modifiers that it first had. -/
theorem accepts_public : Accepts .publicBit ∧ ((engine .publicBit).typeAt 1).scope = 0 ∧
    ((engine .publicBit).classAt 1).superclasses = [0] ∧
    (engine .publicBit).managedOf? 0 0 = some 0 ∧
    (((engine .publicBit).typeAt 0).live.shape.method? answer).map MethodShape.modifiers =
      (((engine .publicBit).typeAt 0).first.shape.method? answer).map MethodShape.modifiers := by
  unfold Accepts
  decide +kernel

set_option maxRecDepth 100000 in
/-- The supertype's method is made final. -/
theorem accepts_final : Accepts (.publicBit ||| .finalBit) := by
  unfold Accepts
  decide +kernel

end Overridden

open Overridden in
/-- After a reload that leaves the modifiers of the supertype's method alone, a reload of the
subtype overrides no final method. -/
theorem accepted_reload_respects_overridden : ∃ m live,
    Overrides (changed .publicBit) (engine .publicBit) m live ∧ live.modifiers.isFinal = false ∧
      m.modifiers.visibility.rank ≤ live.modifiers.visibility.rank := by
  obtain ⟨accepts, scope, superclasses, managed, kept⟩ := accepts_public
  obtain ⟨m, live, overrides, key, same⟩ := accepts.overrides
  have keeps : (engine .publicBit).KeepsAbove ((engine .publicBit).typeAt 1).scope m.key 1 := by
    intro d mem t managed'
    rw [superclasses] at mem
    obtain rfl := List.mem_singleton.1 mem
    rw [scope] at managed'
    cases managed.symm.trans managed'
    rw [key]
    exact kept
  have kind : m.isStatic = false := by
    unfold MethodShape.isStatic
    rw [overrides.modifiers]
    rfl
  have open_ : m.modifiers.isPrivate = false := by
    rw [overrides.modifiers]
    rfl
  have inheritable : live.modifiers.isStatic = false ∧ live.modifiers.isPrivate = false := by
    rw [same]
    exact ⟨rfl, rfl⟩
  exact ⟨m, live, overrides, accepted_reload_respects_supertypes overrides.reachable
    overrides.verifies overrides.run overrides.native overrides.parent overrides.mem kind open_
    overrides.nearest inheritable keeps⟩

open Overridden in
/-- After a reload that makes the supertype's method final, a reload of the subtype overrides the
final method and is accepted. -/
theorem accepted_reload_overrides_final : ∃ m live,
    Overrides (changed (.publicBit ||| .finalBit)) (engine (.publicBit ||| .finalBit)) m live ∧
      m.isStatic = false ∧ m.modifiers.isPrivate = false ∧ live.modifiers.isFinal = true := by
  obtain ⟨m, live, overrides, -, same⟩ := accepts_final.overrides
  refine ⟨m, live, overrides, ?_, ?_, ?_⟩
  · unfold MethodShape.isStatic
    rw [overrides.modifiers]
    rfl
  · rw [overrides.modifiers]
    rfl
  · rw [same]
    rfl

end LiveUpdate
