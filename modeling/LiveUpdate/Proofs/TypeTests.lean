import LiveUpdate.Proofs.PrivateCalls
import LiveUpdate.Proofs.Searching
import LiveUpdate.Proofs.SpecialCalls
import LiveUpdate.Proofs.Survival

/-!
# Tests of types

A class gets the names of all types above it when it is defined, and tests of its objects only
look there.  The host class of a managed type is defined from the first version and stays, so the
interfaces and the modifiers that a later version declares change no test, and reflection alone
shows them.
-/

set_option autoImplicit false

namespace LiveUpdate

open Exec

namespace Engine

variable {e e' : Engine} {s : ScopeRef} {t : TypeRef} {c d j : ClassRef} {name : String}

/-- The way up from a class, through what classes extend and implement, leads to a class. -/
def Reaches (e : Engine) : ClassRef → ClassRef → Prop :=
  Relation.ReflTransGen fun c d => d ∈ e.placesAbove c

/-- The way up from one of the types with these names leads to a class. -/
def ReachedFrom (e : Engine) (s : ScopeRef) (names : List String) (j : ClassRef) : Prop :=
  ∃ name ∈ names, ∃ i, e.class? s name = some i ∧ e.Reaches i j

theorem Describes.typeNames_eq {spec : ClassSpec} (described : e.Describes c spec) :
    (e.classAt c).typeNames = SearchOrder.joined ([e.nameOf c] ::
      ((e.placesAbove c).map e.classAt).map Class.typeNames) := by
  obtain ⟨id, fresh⟩ := described.fresh
  have names : (e.classAt c).typeNames = SearchOrder.joined ([spec.unit.name] ::
      (spec.interfaces.map e.classAt ++ (spec.parent.map e.classAt).toList).map
        Class.typeNames) := congrArg Class.typeNames fresh
  unfold placesAbove
  rw [names, described.nameOf_eq, described.interfaces_eq, described.parent_eq, Option.toList_map,
    ← List.map_append]

/-- A class has the name of every class that the way up leads to. -/
theorem Described.mem_typeNames (described : e.Described) (lt : c < e.classes.size) :
    name ∈ (e.classAt c).typeNames ↔ ∃ d, e.Reaches c d ∧ e.nameOf d = name := by
  induction c using Nat.strongRecOn with
  | ind c ih =>
    obtain ⟨spec, here⟩ := described c lt
    have above {p : ClassRef} (mem : p ∈ e.placesAbove c) : p < c := by
      unfold placesAbove at mem
      rw [here.interfaces_eq, here.parent_eq] at mem
      rcases List.mem_append.1 mem with implemented | extended
      · exact here.interface_lt p implemented
      · exact here.parent_lt p (Option.mem_toList.1 extended)
    rw [here.typeNames_eq, SearchOrder.mem_joined, List.flatten_cons, List.mem_append,
      List.mem_singleton, List.map_map, ← List.flatMap_def, List.mem_flatMap]
    constructor
    · rintro (rfl | ⟨p, mem, named⟩)
      · exact ⟨c, .refl, rfl⟩
      · obtain ⟨d, reaches, named⟩ := (ih p (above mem) (Nat.lt_trans (above mem) lt)).1 named
        exact ⟨d, .head mem reaches, named⟩
    · rintro ⟨d, reaches, named⟩
      rcases reaches.cases_head with rfl | ⟨p, mem, reaches⟩
      · exact .inl named.symm
      · exact .inr ⟨p, mem, (ih p (above mem) (Nat.lt_trans (above mem) lt)).2 ⟨d, reaches, named⟩⟩

/-- The way up stays in the scope. -/
theorem Layered.reaches_homes (layered : e.Layered) (housed : e.Housed) (home : e.Homes s c)
    (reaches : e.Reaches c d) : e.Homes s d := by
  induction reaches with
  | refl => exact home
  | tail _ above ih => exact ((layered.fieldOrder_eq housed ih).2 _ above).2

/-- An object of a class is of a type of the scope if the way up leads there, and every object is
of the root type. -/
theorem Layered.isSubtypeOf_iff (layered : e.Layered) (housed : e.Housed) (described : e.Described)
    (home : e.Homes s c) (lt : c < e.classes.size) (known : e.class? s name = some j) :
    (e.classAt c).isSubtypeOf name = true ↔ name = rootClass ∨ e.Reaches c j := by
  unfold Class.isSubtypeOf
  rw [Bool.or_eq_true, decide_eq_true_iff, List.contains_iff_mem, described.mem_typeNames lt]
  refine or_congr_right ⟨fun ⟨d, reaches, named⟩ => ?_, fun reaches => ?_⟩
  · obtain rfl : d = j := housed.eq_of_nameOf_eq (layered.reaches_homes housed home reaches)
      ⟨name, known⟩ (named.trans (housed.name_eq known).symm)
    exact reaches
  · exact ⟨j, reaches, housed.name_eq known⟩

/-- The host class of a managed type implements what the first version names. -/
theorem Hosted.mem_interfaces (hosted : e.Hosted t c) (chronicled : e.Chronicled t) :
    d ∈ (e.classAt c).interfaces ↔ ∃ name ∈ (e.typeAt t).first.shape.interfaces,
      e.class? (e.typeAt t).scope name = some d := by
  obtain ⟨names, parent, interfaces, -, -, links, described, -⟩ := hosted.form
  have implemented : (e.classAt c).interfaces = interfaces := described.interfaces_eq
  have found : d ∈ interfaces ↔
      some d ∈ (e.typeAt t).first.unit.interfaces.map (e.class? (e.typeAt t).scope) := by
    rw [links.interfaces, List.mem_map_of_injective (Option.some_injective _)]
  rw [implemented, found, List.mem_map, TypeShape.eq_ofUnit chronicled.shaped]
  unfold TypeShape.ofUnit MethodShape.sorted
  simp only [List.mem_mergeSort]

/-- From the host class of a managed type the way leads up to an interface through what the first
version names, if not through the superclass. -/
theorem Hosted.reaches_iff (hosted : e.Hosted t c) (chronicled : e.Chronicled t)
    (layered : e.Layered) (isInterface : (e.classAt j).isInterface = true)
    (foreign : ∀ p ∈ (e.classAt c).parent, ¬ e.Reaches p j) :
    e.Reaches c j ↔
      e.ReachedFrom (e.typeAt t).scope (e.typeAt t).first.shape.interfaces j := by
  constructor
  · intro reaches
    rcases reaches.cases_head with rfl | ⟨p, above, reaches⟩
    · have unmanaged := layered.unmanaged c isInterface
      rw [hosted.managed_eq] at unmanaged
      cases unmanaged
    · rcases List.mem_append.1 above with implemented | extended
      · obtain ⟨name, mem, known⟩ := (hosted.mem_interfaces chronicled).1 implemented
        exact ⟨name, mem, p, known, reaches⟩
      · exact absurd reaches (foreign p (Option.mem_toList.1 extended))
  · rintro ⟨name, mem, i, known, reaches⟩
    exact .head (List.mem_append_left _ ((hosted.mem_interfaces chronicled).2 ⟨name, mem, known⟩))
      reaches

/-- The host class of a managed type is abstract if the first version is. -/
theorem Hosted.isAbstract_eq (hosted : e.Hosted t c) (chronicled : e.Chronicled t)
    (layered : e.Layered) :
    (e.classAt c).isAbstract = (e.typeAt t).first.shape.modifiers.isAbstract := by
  have plain : (e.classAt c).isInterface = false := by
    refine Bool.eq_false_iff.2 fun isInterface => ?_
    have unmanaged := layered.unmanaged c isInterface
    rw [hosted.managed_eq] at unmanaged
    cases unmanaged
  obtain ⟨names, parent, interfaces, -, -, -, described, -⟩ := hosted.form
  unfold Class.isAbstract
  rw [plain, Bool.or_false, described.unit_eq, TypeShape.eq_ofUnit chronicled.shaped]
  rfl

/-- How an object comes out of the tests against a type: of the instruction that asks, of the one
that insists, and of calls that name the type, whether the host makes them or live versions do. -/
structure Tests (e : Engine) (o : ObjectRef) (typeName : String) (passes : Bool) : Prop where
  instanceOf : ∀ (m : Machine) (f : Frame),
    m.execute (.instanceOf typeName) (f.push (.object o)) e = .ok (.next, f.push (.bool passes)) e
  checkCast : ∀ (m : Machine) (f : Frame),
    m.execute (.checkCast typeName) (f.push (.object o)) e =
      if passes then .ok (.next, f.push (.object o)) e
      else .error (.error (.classCast (e.classOf o).name typeName)) e
  native : ∀ (m : Machine) (caller : ClassRef) (kind : InvokeKind) (ref : MethodRef)
    (owner declaring : ClassRef) (b : Method) (rest : List Value), kind.isSelecting = true →
    ref.owner = typeName → e.class? m.scope ref.owner = some owner →
    e.hostMethod? owner ref.key = some (declaring, b) →
    checkInvokeKind kind ref b.isStatic = .ok () →
    e.mayUse m.scope caller b.declaring b.declared = true →
    m.callNative caller kind ref (.object o :: rest) e =
      if passes then
        if b.modifiers.isPrivate then m.call declaring b (.object o :: rest) e
        else m.callSelected (e.objectAt o).cls ref.key (.object o :: rest) e
      else .error (.error (.classCast (e.classOf o).name typeName)) e
  dynamic : ∀ (m : Machine) (caller : ClassRef) (kind : InvokeKind) (ref : MethodRef)
    (live : LiveMethod) (rest : List Value), kind.isSelecting = true → ref.owner = typeName →
    m.callDynamic caller kind ref live (.object o :: rest) e =
      if passes then
        if live.modifiers.isPrivate then m.callResolved live ref.key (.object o :: rest) e
        else m.callVirtual (e.objectAt o).cls ref.key (.object o :: rest) e
      else .error (.error (.classCast (e.classOf o).name typeName)) e

/-- Every test asks whether the class of the object is of the type. -/
theorem tests_isSubtypeOf (e : Engine) (o : ObjectRef) (typeName : String) :
    e.Tests o typeName ((e.classOf o).isSubtypeOf typeName) where
  instanceOf m f := rfl
  checkCast m f := by
    show (Step.check (fun e => if (e.classOf o).isSubtypeOf typeName then .ok ()
      else .error (.classCast (e.classOf o).name typeName)) >>= fun _ => pure Flow.next)
        (f.push (.object o)) e = _
    rw [Step.check_bind]
    cases (e.classOf o).isSubtypeOf typeName <;> rfl
  native m caller kind ref owner declaring b rest selects named known linked fits permitted := by
    subst named
    exact Machine.callNative_object known linked fits permitted selects o rest
  dynamic m caller kind ref live rest selects named := by
    subst named
    exact Machine.callDynamic_object selects caller o rest

/-- An object comes out of the tests in one way only. -/
theorem Tests.eq {o : ObjectRef} {passes : Bool} (tests : e.Tests o name passes) :
    passes = (e.classOf o).isSubtypeOf name := by
  have one := (tests.instanceOf ⟨0, fun _ _ _ => pure .null⟩ default).symm.trans
    ((e.tests_isSubtypeOf o name).instanceOf _ default)
  have pushed : (Value.bool passes :: (default : Frame).stack) =
      .bool ((e.classOf o).isSubtypeOf name) :: (default : Frame).stack :=
    congrArg (fun next : Flow × Frame => next.2.stack) (EStateM.Result.ok.inj one).1
  exact Value.bool.inj (List.cons.inj pushed).1

/-- Objects are allocated of an initialized class unless it is abstract. -/
theorem execute_new_done {m : Machine} (known : e.class? m.scope name = some c)
    (done : (e.classAt c).init = .done) (f : Frame) :
    m.execute (.new name) f e = if (e.classAt c).isAbstract then
        .error (.error (.instantiation name)) e
      else .ok (.next, f.push (.object (e.newObject c).1)) (e.newObject c).2 := by
  have instantiates : m.instantiate name e = if (e.classAt c).isAbstract then
      .error (.error (.instantiation name)) e else .ok (e.newObject c).1 (e.newObject c).2 := by
    unfold Machine.instantiate
    rw [bind_apply, check_apply, requireClass_of_class? known]
    dsimp only
    rw [bind_apply, ask_apply]
    dsimp only
    cases (e.classAt c).isAbstract with
    | true => rfl
    | false =>
      show (m.ensureInitialized c >>= fun _ => modifyGet fun e => e.newObject c) e = _
      rw [bind_apply, m.ensureInitialized_done done]
      rfl
  show ((liftM (m.instantiate name) >>= fun o => Step.push (.object o)) >>= fun _ =>
    (pure .next : Step Flow)) f e = _
  rw [Step.bind_apply, Step.lift_bind, instantiates]
  cases (e.classAt c).isAbstract <;> rfl

end Engine

/-- An object of a managed type, below no superclass that is of an interface, passes the tests
against that interface exactly if the interfaces of the first version lead there, or if every
object does, and the type has new objects exactly if the first version is not abstract.  This is so
whatever version is in force, and reflection shows that one. -/
theorem type_tests_by_first_version {e e' : Engine} {t : TypeRef} {c j : ClassRef}
    {typeName : String} (reachable : e.Reachable) (evolves : e.Evolves e') (hosted : e.Hosted t c)
    (known : e.class? (e.typeAt t).scope typeName = some j)
    (isInterface : (e.classAt j).isInterface = true)
    (foreign : ∀ p ∈ (e.classAt c).parent, ¬ e.Reaches p j) :
    (∃ passes : Bool, (passes = true ↔ typeName = rootClass ∨
        e.ReachedFrom (e.typeAt t).scope (e.typeAt t).first.shape.interfaces j) ∧
      ∀ o, (e'.objectAt o).cls = c → e'.Tests o typeName passes) ∧
    (∀ (m : Machine) (f : Frame), m.scope = (e.typeAt t).scope →
      m.execute (.new (e.typeAt t).name) f e' =
        if (e.typeAt t).first.shape.modifiers.isAbstract then
          .error (.error (.instantiation (e.typeAt t).name)) e'
        else .ok (.next, f.push (.object (e'.newObject c).1)) (e'.newObject c).2) ∧
    ∃ e₁, Reflect.metadata (e.typeAt t).scope (e.typeAt t).name e =
        .ok (.ofShape (e.typeAt t).live.shape (e.typeAt t).live.number) e₁ ∧
      e₁.skeleton = e.skeleton := by
  have layered := reachable.layered
  have described := reachable.lineage.described
  have managed : e.IsManaged t := ⟨hosted.type_lt, by rw [hosted.native]; rfl⟩
  have chronicled := reachable.chronicled managed
  have lt := (reachable.grounded.hosted t hosted.type_lt c hosted.native).1
  refine ⟨⟨(e.classAt c).isSubtypeOf typeName, ?_, fun o cls => ?_⟩, fun m f scope => ?_, ?_⟩
  · rw [layered.isSubtypeOf_iff reachable.housed described ⟨_, hosted.known⟩ lt known,
      hosted.reaches_iff chronicled layered isInterface foreign]
  · have tests := e'.tests_isSubtypeOf o typeName
    unfold Engine.classOf at tests
    rw [cls, evolves.during.isSubtypeOf] at tests
    exact tests
  · have known' : e'.class? m.scope (e.typeAt t).name = some c := by
      rw [evolves.during.class?, scope]
      exact hosted.known
    have same : (e'.classAt c).isAbstract = (e.classAt c).isAbstract :=
      evolves.during.grows.class_eq lt Class.isAbstract fun _ => rfl
    rw [Engine.execute_new_done known' (evolves.done c (hosted.done reachable.settled)), same,
      hosted.isAbstract_eq chronicled layered]
  · have managedOf := hosted.host.1
    obtain ⟨e₁, answers, -, same⟩ :=
      reachable.metadata_eq hosted.known (Engine.shapeOf_of_managed managedOf)
    refine ⟨e₁, ?_, same⟩
    rw [answers]
    unfold Reflect.versionOf
    rw [managedOf]

namespace Retyped

/-- A type that implements nothing. -/
def first : TypeUnit := (TypeUnit.named "app.T").addDefaultConstructor

/-- A version that is abstract and implements an interface. -/
def second : TypeUnit :=
  (first.implementing "lib.J").withModifiers (.publicBit ||| .abstractBit)

/-- A scope in which the interface was defined and the type. -/
def defined : Engine :=
  ((Engine.opened { included := ["app.*"] }).defining 4 (.interfaceNamed "lib.J")).defining 8 first

/-- The scope in which the version was then loaded. -/
def reloaded : Engine := defined.reloading 8 0 "later" second

/-- The scope after an object of the type was made. -/
def engine : Engine :=
  ((Scope.Use.newInstance "app.T" .void []).perform 60 0).final reloaded

set_option maxRecDepth 100000 in
theorem outcomes :
    ((((Engine.opened { included := ["app.*"] }).defining 4
        (.interfaceNamed "lib.J")).scopes.size = 1 ∧ defined.types.size = 1) ∧
      engine.types.size = 1 ∧ (engine.typeAt 0).native = some 1) ∧
    ((engine.typeAt 0).scope = 0 ∧ (engine.typeAt 0).name = "app.T") ∧
    ((engine.typeAt 0).first.shape.interfaces = [] ∧
      (engine.typeAt 0).first.shape.modifiers.isAbstract = false) ∧
    ((engine.typeAt 0).live.shape.interfaces = ["lib.J"] ∧
      (engine.typeAt 0).live.shape.modifiers.isAbstract = true) ∧
    (engine.class? 0 "lib.J" = some 0 ∧ (engine.classAt 0).isInterface = true) ∧
    ((engine.classAt 1).parent = none ∧ (engine.classAt 1).init = .done ∧
      (engine.classAt 1).isSubtypeOf "lib.J" = false ∧ (engine.classAt 1).isAbstract = false) ∧
    engine.class? 0 "app.T" = some 1 ∧ (engine.objectAt 0).cls = 1 := by
  decide +kernel

theorem reachable : engine.Reachable := by
  obtain ⟨⟨⟨one, one'⟩, -⟩, -⟩ := outcomes
  have opened : (Engine.opened { included := ["app.*"] }).Reachable := Engine.reachable_opened _
  have all : defined.Reachable := (opened.defining 4 _ (by decide)).defining 8 _
    (by rw [one]; exact Nat.one_pos)
  have later : reloaded.Reachable := all.reloading 8 0 "later" second
    (by rw [one']; exact Nat.one_pos)
  exact later.step (.use 60 0 _)

theorem hosted : engine.Hosted 0 1 := by
  obtain ⟨⟨-, size, native⟩, -⟩ := outcomes
  have managed : engine.IsManaged 0 := ⟨by rw [size]; exact Nat.one_pos, by rw [native]; rfl⟩
  obtain ⟨c, hosted⟩ := reachable.housed.hosts 0 managed
  obtain rfl : c = 1 := Option.some.inj (hosted.native.symm.trans native)
  exact hosted

theorem known : engine.class? (engine.typeAt 0).scope "lib.J" = some 0 := by
  obtain ⟨-, ⟨scope, -⟩, -, -, ⟨known, -⟩, -⟩ := outcomes
  rw [scope]
  exact known

/-- There is no superclass from which the way could lead up to the interface. -/
theorem foreign : ∀ p ∈ (engine.classAt 1).parent, ¬ engine.Reaches p 0 := by
  obtain ⟨-, -, -, -, -, ⟨top, -⟩, -⟩ := outcomes
  rw [top]
  exact fun _ above => nomatch above

end Retyped

open Retyped in
/-- An object of a type that was reloaded as an abstract one with an interface is not of the
interface, and the type still has new objects. -/
theorem type_tests_by_first_version_retyped :
    (engine.class? (engine.typeAt 0).scope "lib.J" = some 0 ∧
      (engine.classAt 0).isInterface = true ∧
      ∀ p ∈ (engine.classAt 1).parent, ¬ engine.Reaches p 0) ∧
    engine.Tests 0 "lib.J" false ∧
    (∀ n f, ∃ next e, (Machine.of 0 n).execute (.new "app.T") f engine = .ok next e) ∧
    ∃ shape n e, Reflect.metadata 0 "app.T" engine = .ok (.ofShape shape n) e ∧
      shape.interfaces = ["lib.J"] ∧ shape.modifiers.isAbstract = true := by
  obtain ⟨-, ⟨scope, name⟩, ⟨none_, concrete⟩, ⟨shown, abstract⟩, ⟨-, isInterface⟩, -, -, cls⟩ :=
    outcomes
  obtain ⟨⟨reachable, hosted⟩, known, foreign⟩ :=
    And.intro (And.intro reachable hosted) (And.intro known foreign)
  -- What matters about the engine is known; its definition is not to be unfolded.
  generalize engine = e at *
  obtain ⟨⟨passes, iff, tests⟩, news, e₁, answers, -⟩ :=
    type_tests_by_first_version reachable (.refl e) hosted known isInterface foreign
  rw [none_] at iff
  rw [scope, name] at answers
  have fails : passes = false := by
    refine Bool.eq_false_iff.2 fun passed => ?_
    rcases iff.1 passed with root | ⟨_, mem, -⟩
    · exact absurd root (by decide)
    · cases mem
  subst fails
  refine ⟨⟨known, isInterface, foreign⟩, tests 0 cls, fun n f => ?_,
    _, _, e₁, answers, shown, abstract⟩
  have made := news (Machine.of 0 n) f scope.symm
  rw [concrete, if_neg Bool.false_ne_true, name] at made
  exact ⟨_, _, made⟩

open Retyped in
/-- The version in force decides neither of the two. -/
theorem type_tests_not_by_live_version :
    (¬ ∀ (e : Engine) (t : TypeRef) (c j : ClassRef) (typeName : String) (o : ObjectRef),
      e.Reachable → e.Hosted t c → e.class? (e.typeAt t).scope typeName = some j →
      (e.classAt j).isInterface = true → (∀ p ∈ (e.classAt c).parent, ¬ e.Reaches p j) →
      (e.objectAt o).cls = c → ∃ passes : Bool, (passes = true ↔
        e.ReachedFrom (e.typeAt t).scope (e.typeAt t).live.shape.interfaces j) ∧
        e.Tests o typeName passes) ∧
    ¬ ∀ (e : Engine) (t : TypeRef) (c : ClassRef) (n : Nat) (f : Frame),
      e.Reachable → e.Hosted t c →
      ((∃ e', (Machine.of (e.typeAt t).scope n).execute (.new (e.typeAt t).name) f e =
          .error (.error (.instantiation (e.typeAt t).name)) e') ↔
        (e.typeAt t).live.shape.modifiers.isAbstract = true) := by
  obtain ⟨-, ⟨scope, name⟩, -, ⟨shown, abstract⟩, ⟨-, isInterface⟩, ⟨-, done, stranger, concrete⟩,
    named, cls⟩ := outcomes
  obtain ⟨⟨reachable, hosted⟩, known, foreign⟩ :=
    And.intro (And.intro reachable hosted) (And.intro known foreign)
  generalize engine = e at *
  refine ⟨fun right => ?_, fun right => ?_⟩
  · obtain ⟨passes, iff, tests⟩ :=
      right e 0 1 0 "lib.J" 0 reachable hosted known isInterface foreign cls
    have passed : passes = true :=
      iff.2 ⟨"lib.J", by rw [shown]; exact List.mem_cons_self, 0, known, .refl⟩
    have failed := tests.eq
    unfold Engine.classOf at failed
    rw [cls, stranger, passed] at failed
    cases failed
  · obtain ⟨e', fails⟩ := (right e 0 1 0 default reachable hosted).2 abstract
    have made := Engine.execute_new_done (m := Machine.of 0 0) named done default
    rw [concrete, if_neg Bool.false_ne_true] at made
    rw [scope, name, made] at fails
    cases fails

end LiveUpdate
