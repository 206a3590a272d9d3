import LiveUpdate.Proofs.Enrolling
import LiveUpdate.Proofs.Insertion
import LiveUpdate.Proofs.Reachable

/-!
# Where code comes from

Code enters an engine with definitions and reloads only.  If no unit that is handed in says of
itself that the engine wrote it, then every instruction of the engine in any class is one that
the engine has put there.
-/

set_option autoImplicit false

namespace LiveUpdate

open Exec

namespace Engine

/-- What decides what the code of an engine is and what the numbers in it mean: the classes, what
the scopes know of them, and the tables of names. -/
structure Library where
  classes : Array Class
  shelves : Array (RegistryRef × Table String ClassRef)
  registries : Array NameTable

def library (e : Engine) : Library where
  classes := e.classes.map Class.skeleton
  shelves := e.scopes.map fun scope => (scope.registry, scope.classes)
  registries := e.registries

variable {e e' e'' : Engine} {s : ScopeRef}

section Library

theorem library_updateScope (e : Engine) (s : ScopeRef) {f : Scope → Scope}
    (kept : ∀ scope, ((f scope).registry, (f scope).classes) = (scope.registry, scope.classes)) :
    (e.updateScope s f).library = e.library := by
  have shelves : (e.scopes.modify s f).map (fun scope => (scope.registry, scope.classes)) =
      e.scopes.map fun scope => (scope.registry, scope.classes) := map_modify_of_eq _ _ _ _ kept
  show (⟨_, (e.scopes.modify s f).map _, _⟩ : Library) = _
  rw [shelves]
  rfl

theorem library_of_skeleton_eq (same : e'.skeleton = e.skeleton) : e'.library = e.library := by
  have of_skeleton (e : Engine) : e.library = ⟨e.skeleton.classes,
      e.skeleton.scopes.map fun scope => (scope.registry, scope.classes),
      e.skeleton.registries⟩ := by
    show (⟨_, _, _⟩ : Library) = ⟨_, (e.scopes.map _).map _, _⟩
    rw [Array.map_map]
    rfl
  rw [of_skeleton, of_skeleton, same]

variable (same : e'.library = e.library)
include same

theorem size_of_library_eq : e'.classes.size = e.classes.size := by
  have size : e'.library.classes.size = e.library.classes.size := by rw [same]
  simpa [library] using size

theorem classAt_of_library_eq (c : ClassRef) :
    (e'.classAt c).skeleton = (e.classAt c).skeleton := by
  have classes : e'.classes.map Class.skeleton = e.classes.map Class.skeleton :=
    congrArg Library.classes same
  rw [← classAt_skeleton, ← classAt_skeleton]
  unfold classAt skeleton
  rw [classes]

theorem shelf_of_library_eq (s : ScopeRef) :
    ((e'.scopeAt s).registry, (e'.scopeAt s).classes) =
      ((e.scopeAt s).registry, (e.scopeAt s).classes) := by
  have shelves : e'.scopes.map (fun scope => (scope.registry, scope.classes)) =
      e.scopes.map fun scope => (scope.registry, scope.classes) := congrArg Library.shelves same
  have shelf (e : Engine) : (e.scopes.map fun scope => (scope.registry, scope.classes)).getD s
      ((default : Scope).registry, (default : Scope).classes) =
        ((e.scopeAt s).registry, (e.scopeAt s).classes) :=
    getD_map e.scopes (fun scope : Scope => (scope.registry, scope.classes)) s default
  rw [← shelf, ← shelf, shelves]

theorem class?_of_library_eq (s : ScopeRef) (name : String) :
    e'.class? s name = e.class? s name := by
  unfold class?
  rw [(Prod.mk.inj (shelf_of_library_eq same s)).2]

theorem namesOf_of_library_eq (s : ScopeRef) : e'.namesOf s = e.namesOf s := by
  have registries : e'.registries = e.registries := congrArg Library.registries same
  unfold namesOf
  rw [(Prod.mk.inj (shelf_of_library_eq same s)).1, registries]

end Library

/-- Every class is one that some scope knows, and the engine's instructions in its code are where
the engine puts them. -/
def AllGenuine (e : Engine) : Prop :=
  ∀ c < e.classes.size, ∃ s, e.Homes s c ∧ (e.classAt c).Genuine (e.namesOf s)

/-- The classes that came to an engine are known to some scope, and the engine's instructions in
their code are where the engine puts them. -/
structure Gains (e e' : Engine) : Prop where
  size : e.classes.size ≤ e'.classes.size
  added : ∀ c, e.classes.size ≤ c → c < e'.classes.size →
    ∃ s, e'.Homes s c ∧ (e'.classAt c).Genuine (e'.namesOf s)

/-- Nothing came. -/
theorem Gains.of_size_eq (same : e'.classes.size = e.classes.size) : e.Gains e' where
  size := Nat.le_of_eq same.symm
  added c old new := by omega

theorem Gains.of_library_eq (same : e'.library = e.library) : e.Gains e' :=
  .of_size_eq (size_of_library_eq same)

/-- What came first counts for the number of classes only. -/
theorem Gains.after (gains : e'.Gains e'') (same : e'.classes.size = e.classes.size) :
    e.Gains e'' where
  size := same ▸ gains.size
  added c old new := gains.added c (same ▸ old) new

theorem Gains.before (gains : e.Gains e') (same : e''.library = e'.library) : e.Gains e'' where
  size := by
    rw [size_of_library_eq same]
    exact gains.size
  added c old new := by
    rw [size_of_library_eq same] at new
    obtain ⟨s, ⟨name, known⟩, genuine⟩ := gains.added c old new
    refine ⟨s, ⟨name, (class?_of_library_eq same s name).trans known⟩, ?_⟩
    rw [namesOf_of_library_eq same]
    exact genuine.of_skeleton_eq (classAt_of_library_eq same c)

/-- A class that has come stays what it is. -/
theorem genuine_of_grows (grows : e.Grows e') (grounded : e.Grounded) {c : ClassRef}
    (lt : c < e.classes.size) (homes : e.Homes s c)
    (genuine : (e.classAt c).Genuine (e.namesOf s)) :
    e'.Homes s c ∧ (e'.classAt c).Genuine (e'.namesOf s) := by
  obtain ⟨name, known⟩ := homes
  have scope_lt := scope_lt_of_class? known
  exact ⟨Homes.of_grows ⟨name, known⟩ grows,
    (genuine.of_skeleton_eq (grows.classAt c lt)).extends (grows.namesOf grounded scope_lt)⟩

theorem Gains.trans (first : e.Gains e') (second : e'.Gains e'') (grows : e'.Grows e'')
    (grounded : e'.Grounded) : e.Gains e'' where
  size := Nat.le_trans first.size second.size
  added c old new := by
    by_cases before : c < e'.classes.size
    · obtain ⟨s, homes, genuine⟩ := first.added c old before
      exact ⟨s, genuine_of_grows grows grounded before homes genuine⟩
    · exact second.added c (Nat.le_of_not_lt before) new

theorem AllGenuine.gains (all : e.AllGenuine) (gains : e.Gains e') (grows : e.Grows e')
    (grounded : e.Grounded) : e'.AllGenuine := by
  intro c lt
  by_cases before : c < e.classes.size
  · obtain ⟨s, homes, genuine⟩ := all c before
    exact ⟨s, genuine_of_grows grows grounded before homes genuine⟩
  · exact gains.added c (Nat.le_of_not_lt before) lt

theorem namesOf_addClass (e : Engine) (s : ScopeRef) (cls : Class) (s' : ScopeRef) :
    (e.addClass s cls).namesOf s' = e.namesOf s' := by
  have scope : ((e.addClass s cls).scopeAt s').registry = (e.scopeAt s').registry := by
    rw [show (e.addClass s cls).scopeAt s' = _ from scopeAt_updateScope _ s _ s']
    split <;> rfl
  unfold namesOf
  rw [scope]
  rfl

theorem gains_addClass {cls : Class} (scope_lt : s < e.scopes.size)
    (genuine : cls.Genuine (e.namesOf s)) : e.Gains (e.addClass s cls) where
  size := by
    rw [size_addClass]
    exact Nat.le_succ _
  added c old new := by
    rw [size_addClass] at new
    obtain rfl : c = e.classes.size := by omega
    refine ⟨s, ⟨cls.name, ?_⟩, ?_⟩
    · rw [class?_addClass, if_pos ⟨rfl, scope_lt, rfl⟩]
    · rw [classAt_addClass, if_pos rfl, namesOf_addClass]
      exact genuine

theorem library_countClass (e : Engine) (s : ScopeRef) : (e.countClass s).library = e.library :=
  e.library_updateScope s fun _ => rfl

end Engine

open Engine

/-- Some bytes are not those of a unit that says of itself that the engine wrote it. -/
def Unmarked (data : List UInt8) : Prop :=
  ∀ u, TypeUnit.decode data = .ok u → u.isInstrumented = false

namespace Scope

variable {e : Engine} {s : ScopeRef} {u : TypeUnit} {base : Engine} {cls : Class}

/-- The class of an unmarked unit has the engine's instructions where they belong. -/
theorem Enrolls.genuine (enrolls : Enrolls e s u base cls) (verified : u.verify = .ok ())
    (unmarked : u.isInstrumented = false)
    (known : (e.scopeAt s).registry < e.registries.size) : cls.Genuine (base.namesOf s) := by
  obtain ⟨names, owners, same, standsFor, made⟩ := enrolls.source
  obtain ⟨id, spec, -, -, rfl, -⟩ := enrolls.eq_fresh
  have plain : ∀ m ∈ u.methods, IsPlain m.code := fun m mem =>
    TypeUnit.plain_of_verify verified unmarked mem
  rw [same, e.namesOf_setNames known]
  have acts : spec.standsFor = none := standsFor
  refine Class.genuine_fresh fun m mem => ?_
  rw [acts]
  rcases made with ⟨managed, unit⟩ | ⟨id, parent, managed, unit⟩
  · have managed : spec.managed = none := managed
    have unit : spec.unit = u.withGuards (e.scopeAt s).options names := unit
    rw [managed]
    rw [unit] at mem
    exact TypeUnit.genuine_withGuards plain owners mem
  · have managed : spec.managed = some id := managed
    have unit : spec.unit =
        (HostForm.ofUnit (u.withGuards (e.scopeAt s).options names) id parent).unit := unit
    rw [managed]
    rw [unit] at mem
    exact TypeUnit.genuine_hostForm plain owners id parent mem

/-- A definition of an unmarked unit adds nothing but genuine code. -/
theorem gains_define (grounded : e.Grounded) (scope_lt : s < e.scopes.size) (fuel : Nat)
    {data : List UInt8} (unmarked : Unmarked data) : e.Gains ((define fuel s data).final e) := by
  apply Ends.final
  rw [define_eq]
  refine ends_bind ((ends_enroll grounded s data).weaken (fun _ _ done => done)
    fun _ _ same => .of_size_eq (by rw [same.classes])) fun c e₁ enrolled => ?_
  obtain ⟨rfl, u, base, cls, ⟨decoded, verified⟩, enrolls, rfl⟩ := enrolled
  obtain ⟨classes, scopes⟩ := enrolls.base_eq
  have genuine := enrolls.genuine verified (unmarked u decoded) (grounded.registry s scope_lt)
  have added : e.Gains ((base.addClass s cls).countClass s) :=
    ((gains_addClass (scopes ▸ scope_lt) genuine).before (library_countClass _ s)).after
      (by rw [classes])
  -- The initialization that follows runs code, which does not change any.
  have initialized := ends_of_keeps (e := (base.addClass s cls).countClass s)
    (Machine.keeps_ensureInitialized (keepsSkeleton_of s fuel) e.classes.size)
  exact ends_bind (ends_mapError (initialized.weaken
    (fun _ _ same => added.before (library_of_skeleton_eq same))
    fun _ _ same => added.before (library_of_skeleton_eq same))) fun _ _ gains => ends_pure gains

/-- A class is defined under a name that is free, or an attempt is counted, or nothing happens. -/
theorem ends_defines (e : Engine) (s : ScopeRef) (spec : ClassSpec) :
    e.Ends (defineClass s spec) (fun c e' => c = e.classes.size ∧
        e.class? s spec.unit.name = none ∧ ∃ id cls,
        Class.define c id spec (spec.parent.map e.classAt) (spec.interfaces.map e.classAt) =
          .ok cls ∧ e' = (e.countClass s).addClass s cls)
      fun _ e' => e'.library = e.library := by
  by_cases free : e.class? s spec.unit.name = none
  · refine (ends_addClass spec free).weaken (fun c e' done => ?_) fun _ _ same => ?_
    · obtain ⟨rfl, id, cls, defined, rfl⟩ := done
      exact ⟨rfl, free, id, cls, defined, rfl⟩
    · rw [same]
      exact library_countClass e s
  · exact .of_error (defineClass_taken free) rfl

/-- A class without a superclass that was defined is gained, if its code is genuine. -/
theorem gains_defined (grounded : e.Grounded) (scope_lt : s < e.scopes.size) {spec : ClassSpec}
    (parentless : spec.parent = none)
    (genuine : ∀ m ∈ spec.unit.methods,
      Genuine (e.namesOf s) spec.managed spec.standsFor m.code) {c : ClassRef} {e' : Engine}
    (defines : c = e.classes.size ∧ e.class? s spec.unit.name = none ∧ ∃ id cls,
      Class.define c id spec (spec.parent.map e.classAt) (spec.interfaces.map e.classAt) =
        .ok cls ∧ e' = (e.countClass s).addClass s cls) :
    c = e.classes.size ∧ (e.Gains e' ∧ e.Grows e') ∧ e'.Grounded ∧ s < e'.scopes.size ∧
      e'.namesOf s = e.namesOf s := by
  obtain ⟨rfl, free, id, cls, defined, rfl⟩ := defines
  obtain ⟨fresh, -⟩ := Class.define_eq_ok defined
  have counts : e.Edit (e.countClass s) := .countClass s
  have scope_lt' : s < (e.countClass s).scopes.size := by simpa [countClass, updateScope] using scope_lt
  have names : (e.countClass s).namesOf s = e.namesOf s :=
    namesOf_of_library_eq (library_countClass e s) s
  have free' : (e.countClass s).class? s cls.name = none := by
    rw [class?_countClass, fresh]
    exact free
  refine ⟨rfl, ⟨?_, counts.grows.trans (grows_addClass free')⟩, ?_, ?_, ?_⟩
  · refine (gains_addClass scope_lt' ?_).after rfl
    rw [names, fresh]
    exact Class.genuine_fresh genuine
  · refine (counts.grounded grounded).addClass free' fun p parent => ?_
    rw [fresh, show (Class.fresh _ _ spec _ _).parent = spec.parent from rfl, parentless] at parent
    cases parent
  · rw [scopes_size_addClass]
    exact scope_lt'
  · rw [namesOf_addClass, names]

end Scope

namespace ManagedType

variable {e : Engine} {t : TypeRef} {native : ClassRef} {u : TypeUnit} {shape : TypeShape}

/-- The classes of a version have genuine code if its unit is plain. -/
theorem gains_defineArtifacts (grounded : e.Grounded) (type_lt : t < e.types.size)
    (hosted : (e.typeAt t).native = some native)
    (numbered : (e.namesOf (e.typeAt t).scope).lookup (e.typeAt t).name = some (e.typeAt t).id)
    (plain : ∀ m ∈ u.methods, IsPlain m.code) :
    e.Ends (defineArtifacts t native u shape) (fun _ e' => e.Gains e') fun _ e' => e.Gains e' := by
  have home := grounded.hosted t type_lt native hosted
  let s := (e.typeAt t).scope
  let number := (e.typeAt t).nextArtifact
  let counted := e.updateType t fun type => { type with nextArtifact := number + 1 }
  have grounded₁ : counted.Grounded := (Edit.countArtifact t (number + 1)).grounded grounded
  have known := grounded₁.registry s home.2
  let ctx : ExecutorContext := ⟨(e.typeAt t).name, (e.typeAt t).id, counted.classAt native, shape⟩
  have compiled := leads_compile known (fun e' =>
    ⟨(e.typeAt t).name, (e.typeAt t).id, e'.classAt native, shape⟩) number u
  refine ends_ask_bind (ends_modify_bind (ends_modifyGet_bind ?_))
  obtain ⟨renamed, -, owners⟩ := compiled.post _ _ rfl
  let names := (counted.namesOf s).addAll ((ctx.concreteMethods u).flatMap fun m =>
    m.1.code.filterMap (ctx.guardedOwner? (counted.scopeAt s).options))
  let e₂ := counted.setNames s names
  have names_eq : e₂.namesOf s = names := counted.namesOf_setNames known names
  have size₂ : e₂.classes.size = e.classes.size := rfl
  have grounded₂ : e₂.Grounded := Edits.grounded renamed.edits grounded₁
  show e₂.Ends (ofResult _ >>= fun _ => _) _ _
  refine ends_ofResult_bind (fun _ _ => ?_) fun _ _ => .of_size_eq size₂
  -- The contract has no code at all.
  refine ends_bind ((Scope.ends_defines e₂ s _).weaken (fun _ _ done => done)
    fun _ _ same => (Gains.of_library_eq same).after size₂) fun c e₃ contract => ?_
  obtain ⟨rfl, gains₃, grounded₃, scope_lt₃, names₃⟩ := Scope.gains_defined grounded₂ home.2 rfl
    (fun m mem => by
      obtain ⟨shape, -, rfl⟩ := List.mem_map.1 mem
      exact IsPlain.genuine fun instr mem => by cases mem) contract
  have so_far : e.Gains e₃ := gains₃.1.after size₂
  have own : names.lookup ctx.typeName = some ctx.typeId :=
    NameTable.lookup_of_extends (NameTable.addAll_extends _ _) numbered
  have code : ∀ m ∈ (ctx.executorUnit (counted.scopeAt s).options names number u).methods,
      Genuine (e₃.namesOf s) none (some ctx.typeId) m.code := by
    rw [names₃, names_eq]
    exact fun m mem => TypeUnit.genuine_executorUnit plain own (names_eq ▸ owners) mem
  refine ends_bind ((Scope.ends_defines e₃ s _).weaken (fun _ _ done => done)
    fun _ _ same => so_far.before same) fun x e₄ executor => ?_
  obtain ⟨rfl, gains₄, -⟩ := Scope.gains_defined grounded₃ scope_lt₃ rfl code executor
  exact ends_pure (so_far.trans gains₄.1 gains₄.2 grounded₃)

theorem gains_artifactsFor (grounded : e.Grounded) (type_lt : t < e.types.size)
    (hosted : (e.typeAt t).native = some native)
    (numbered : (e.namesOf (e.typeAt t).scope).lookup (e.typeAt t).name = some (e.typeAt t).id)
    (plain : ∀ m ∈ u.methods, IsPlain m.code) (digest : Option (List UInt8)) (isLikeFirst : Bool) :
    e.Ends (artifactsFor t native u shape digest isLikeFirst) (fun _ e' => e.Gains e')
      fun _ e' => e.Gains e' := by
  refine ends_ask_bind ?_
  split
  · exact ends_pure (.of_library_eq rfl)
  · split
    · exact ends_pure (.of_library_eq rfl)
    · exact ends_bind (gains_defineArtifacts grounded type_lt hosted numbered plain)
        fun _ _ gains => ends_pure gains

theorem keepsLibrary_of_traced {ε α : Type} {x : Exec ε α} (traced : Moves OnlyTraced x) :
    Keeps Engine.library x := by
  intro e
  obtain ⟨trace, same⟩ := traced e
  rw [same]
  rfl

theorem keepsLibrary_of_skeleton {ε α : Type} {x : Exec ε α} (keeps : Keeps Engine.skeleton x) :
    Keeps Engine.library x :=
  fun e => library_of_skeleton_eq (keeps e)

theorem keepsLibrary_publishVersion (t : TypeRef) (v : LiveVersion) :
    Keeps Engine.library (publishVersion t v) :=
  keeps_bind (keeps_modify fun _ => rfl) fun _ => keeps_bind (keeps_ask _) fun type =>
    keeps_modify fun e => e.library_updateScope type.scope fun _ => rfl

/-- The installation of a plain unit adds nothing but genuine code. -/
theorem gains_install (grounded : e.Grounded) (type_lt : t < e.types.size)
    (hosted : (e.typeAt t).native = some native)
    (numbered : (e.namesOf (e.typeAt t).scope).lookup (e.typeAt t).name = some (e.typeAt t).id)
    (plain : ∀ m ∈ u.methods, IsPlain m.code) (fuel : Nat) (stamp : String) (data : List UInt8) :
    e.Ends (install fuel t native stamp data u shape) (fun _ e' => e.Gains e')
      fun _ e' => e.Gains e' := by
  have after {ε α : Type} {x : Exec ε α} (keeps : Keeps Engine.library x) {e₁ : Engine}
      (gains : e.Gains e₁) : e₁.Ends x (fun _ e' => e.Gains e') fun _ e' => e.Gains e' :=
    (ends_of_keeps keeps).weaken (fun _ _ same => gains.before same)
      fun _ _ same => gains.before same
  refine ends_ask_bind (ends_ask_bind ?_)
  refine ends_bind (((moves_announce _ _).ends e).weaken (fun _ _ traced => traced)
    fun _ _ traced => ?_) fun _ e₁ traced => ?_
  · obtain ⟨trace, rfl⟩ := traced
    exact .of_library_eq rfl
  obtain ⟨trace, rfl⟩ := traced
  have grounded₁ : ({ e with trace } : Engine).Grounded :=
    ⟨grounded.registry, grounded.class_lt, grounded.parent_lt, grounded.hosted⟩
  have generated (digest : Option (List UInt8)) (isLikeFirst : Bool) :
      ({ e with trace } : Engine).Ends (artifactsFor t native u shape digest isLikeFirst)
        (fun _ e' => e.Gains e') fun _ e' => e.Gains e' :=
    (gains_artifactsFor (e := { e with trace }) grounded₁ type_lt hosted numbered plain digest
      isLikeFirst).weaken (fun _ _ gains => gains.after rfl) fun _ _ gains => gains.after rfl
  refine ends_bind (ends_mapError (generated _ _)) fun artifacts e₂ gains => ?_
  -- From here on no class is added: versions are published, and code runs.
  refine ends_modify_bind (ends_ask_bind ?_)
  refine ends_bind (after (keepsLibrary_of_traced (moves_askRerun _ _)) (gains.before rfl))
    fun wanted e₃ gains => ?_
  refine after (keeps_bind (keepsLibrary_publishVersion t _) fun _ => ?_) gains
  split
  · exact keeps_bind (keepsLibrary_of_skeleton
      (keeps_mapError _ (keeps_rerunStaticInit fuel t native))) fun _ =>
        keepsLibrary_of_traced (moves_report _ _)
  · exact keepsLibrary_of_traced (moves_report _ _)

/-- A reload with an unmarked unit adds nothing but genuine code. -/
theorem gains_load (reachable : e.Reachable) (type_lt : t < e.types.size) (fuel : Nat)
    (stamp : String) {data : List UInt8} (unmarked : Unmarked data) :
    e.Gains ((load fuel t stamp data).final e) := by
  have untouched : e.Gains e := .of_library_eq rfl
  apply Ends.final
  refine ends_ask_bind (ends_ask_bind ?_)
  cases (e.scopeAt (e.typeAt t).scope).isOpen with
  | false => exact ends_fail untouched
  | true =>
  cases hosted : (e.typeAt t).native with
  | none => exact ends_fail untouched
  | some native =>
  refine ends_ofResult_bind (fun read readable => ends_ask_bind ?_) fun _ _ => untouched
  obtain ⟨u, shape⟩ := read
  obtain ⟨decoded, -, verified, -⟩ := readVersion_eq_ok readable
  have plain : ∀ m ∈ u.methods, IsPlain m.code := fun m mem =>
    TypeUnit.plain_of_verify verified (unmarked u decoded) mem
  obtain ⟨c, host⟩ := reachable.housed.hosts t ⟨type_lt, by rw [hosted]; rfl⟩
  split
  · exact ends_modify_bind (ends_pure (.of_library_eq rfl))
  · exact ends_bind (gains_install reachable.grounded type_lt hosted host.numbered plain fuel stamp
      data) fun _ _ gains => ends_pure gains

end ManagedType

namespace Engine

variable {e e' : Engine}

/-- An operation to which only units are handed that do not say of themselves that the engine wrote
them.  Operations that define no class may be handed anything. -/
inductive Trusting (e : Engine) : Engine → Prop
  | define (fuel : Nat) (s : ScopeRef) (data : List UInt8) (scope_lt : s < e.scopes.size)
      (unmarked : Unmarked data) : Trusting e ((Scope.define fuel s data).final e)
  | load (fuel : Nat) (t : TypeRef) (stamp : String) (data : List UInt8)
      (type_lt : t < e.types.size) (unmarked : Unmarked data) :
      Trusting e ((ManagedType.load fuel t stamp data).final e)
  | other {e' : Engine} (operation : e.Operation e') (noClass : e'.classes.size = e.classes.size) :
      Trusting e e'

/-- An engine that no marked unit has brought code to. -/
def Trusted : Engine → Prop := Relation.ReflTransGen Trusting {}

theorem Trusting.operation (trusting : e.Trusting e') : e.Operation e' := by
  cases trusting with
  | define fuel s data scope_lt unmarked => exact .define fuel s data scope_lt
  | load fuel t stamp data type_lt unmarked => exact .load fuel t stamp data type_lt
  | other operation noClass => exact operation

theorem Trusting.gains (trusting : e.Trusting e') (reachable : e.Reachable) : e.Gains e' := by
  cases trusting with
  | define fuel s data scope_lt unmarked =>
    exact Scope.gains_define reachable.grounded scope_lt fuel unmarked
  | load fuel t stamp data type_lt unmarked =>
    exact ManagedType.gains_load reachable type_lt fuel stamp unmarked
  | other operation noClass => exact .of_size_eq noClass

theorem Trusted.reachable (trusted : e.Trusted) : e.Reachable := by
  induction trusted with
  | refl => exact .refl
  | tail _ trusting ih => exact ih.step trusting.operation

theorem Trusted.allGenuine (trusted : e.Trusted) : e.AllGenuine := by
  induction trusted with
  | refl => exact fun c lt => by cases lt
  | tail before trusting ih =>
    have reachable : Reachable _ := Trusted.reachable before
    have grows := Edits.grows (trusting.operation.edits reachable.grounded)
    exact ih.gains (trusting.gains reachable) grows reachable.grounded

end Engine

section Accepted

variable {e e' : Engine} {fuel : Nat} {data : List UInt8} (unmarked : Unmarked data)
include unmarked

/-- The unit that a definition reads has none of the engine's instructions, unless it is marked. -/
theorem Scope.plain_of_define {s : ScopeRef} {c : ClassRef}
    (run : define fuel s data e = .ok c e') :
    ∃ u, TypeUnit.decode data = .ok u ∧ ∀ m ∈ u.methods, IsPlain m.code := by
  have ended : e.Ends (define fuel s data) (fun _ _ => ∃ u, TypeUnit.decode data = .ok u ∧
      ∀ m ∈ u.methods, IsPlain m.code) fun _ _ => True := by
    refine ends_ofResult_bind (fun u decoded => ?_) fun _ _ => trivial
    refine ends_ofResult_bind (fun _ verified => ?_) fun _ _ => trivial
    have decoded := ok_of_mapError decoded
    exact ends_of_always (fun _ _ => ⟨u, decoded, fun m mem =>
      TypeUnit.plain_of_verify (ok_of_mapError verified) (unmarked u decoded) mem⟩)
      fun _ _ => trivial
  exact ended.ok run

/-- The same holds of the unit that a reload reads, whether it accepts the version or not. -/
theorem ManagedType.plain_of_load {t : TypeRef} {stamp : String} {accepted : Bool}
    (run : load fuel t stamp data e = .ok accepted e') :
    ∃ u, TypeUnit.decode data = .ok u ∧ ∀ m ∈ u.methods, IsPlain m.code := by
  have ended : e.Ends (load fuel t stamp data) (fun _ _ => ∃ u, TypeUnit.decode data = .ok u ∧
      ∀ m ∈ u.methods, IsPlain m.code) fun _ _ => True := by
    refine ends_ask_bind (ends_ask_bind ?_)
    cases (e.scopeAt (e.typeAt t).scope).isOpen with
    | false => exact ends_fail trivial
    | true =>
    cases (e.typeAt t).native with
    | none => exact ends_fail trivial
    | some native =>
    refine ends_ofResult_bind (fun read readable => ?_) fun _ _ => trivial
    obtain ⟨decoded, -, verified, -⟩ := readVersion_eq_ok readable
    exact ends_of_always (fun _ _ => ⟨read.1, decoded, fun m mem =>
      TypeUnit.plain_of_verify verified (unmarked read.1 decoded) mem⟩) fun _ _ => trivial
  exact ended.ok run

end Accepted

/-- Only the engine puts its instructions into code, as long as no unit says of itself that the
engine wrote it.  Definitions and reloads then accept no unit with such an instruction, and every
one in a class is where the engine puts it: a check of the entry begins a body of the class that
hosts the type, a guard stands in front of the use of a member of the type that it names, and an
access without regard to modifiers names a field of the type that the class acts for. -/
theorem engine_instructions_inserted {e : Engine} (trusted : e.Trusted) :
    (∀ s fuel data c e', Unmarked data → Scope.define fuel s data e = .ok c e' →
      ∃ u, TypeUnit.decode data = .ok u ∧ ∀ m ∈ u.methods, IsPlain m.code) ∧
    (∀ t fuel stamp data accepted e', Unmarked data →
      ManagedType.load fuel t stamp data e = .ok accepted e' →
      ∃ u, TypeUnit.decode data = .ok u ∧ ∀ m ∈ u.methods, IsPlain m.code) ∧
    ∀ c < e.classes.size, ∃ s, e.Homes s c ∧
      ∀ key method, (e.classAt c).method? key = some method →
        ∀ i instr, method.code[i]? = some instr → instr.isEngineOnly = true →
          Inserted (e.namesOf s) (e.classAt c).managed (e.classAt c).standsFor method.code i instr :=
  ⟨fun _ _ _ _ _ unmarked run => Scope.plain_of_define unmarked run,
    fun _ _ _ _ _ _ unmarked run => ManagedType.plain_of_load unmarked run,
    trusted.allGenuine⟩

instance : DecidablePred Unmarked := fun data =>
  decidable_of_iff ((TypeUnit.decode data).toOption.all fun u => !u.isInstrumented) (by
    unfold Unmarked
    cases TypeUnit.decode data with
    | error error => exact iff_of_true rfl fun u decoded => by cases decoded
    | ok u => simp [Except.toOption])

namespace Smuggled

def x : FieldRef := ⟨"app.T", "x", .int⟩

/-- A type with a private static field that is set when the class is initialized. -/
def owner : TypeUnit :=
  ((TypeUnit.named "app.T").addField ⟨"x", .int, .privateBit ||| .staticBit, none, []⟩).addStaticInit
    [.constInt 7, .access .putStatic x, .ret]

/-- A class with a method that answers what an instruction reads. -/
def reader (read : Instr) : TypeUnit :=
  (TypeUnit.named "lib.U").addMethod
    (.make "read" ⟨[], .int⟩ (.publicBit ||| .staticBit) [read, .retValue])

/-- A class that reads the field as any class may try to. -/
def plain : TypeUnit := reader (.access .getStatic x)

/-- A class that reads it on behalf of the type, and says that the engine wrote it. -/
def marked : TypeUnit :=
  { reader (.liveAccess .getStatic 0 x) with flags := TypeUnit.instrumentedFlag }

/-- A scope in which the type was defined. -/
def defined : Engine := (Engine.opened { included := ["app.*"] }).defining 8 owner

/-- The scope in which a class that reads the field was defined, too. -/
def engine : Engine := defined.defining 8 plain

/-- Whether a definition gives the second class. -/
def isDefined (outcome : EStateM.Result (Stop ReloadError) Engine ClassRef) : Bool :=
  match outcome with
  | .ok c _ => c = 1
  | .error .. => false

/-- What a run answers. -/
def answer? (outcome : EStateM.Result (Stop RunError) Engine Value) : Option Value :=
  match outcome with
  | .ok value _ => some value
  | .error .. => none

def read : MemberKey := ⟨"read", ⟨[], .int⟩⟩

set_option maxRecDepth 100000 in
theorem facts : (Engine.opened { included := ["app.*"] }).scopes.size = 1 ∧
    (Engine.opened { included := ["app.*"] }).classes.size = 0 ∧ defined.scopes.size = 1 ∧ Unmarked owner.encode ∧ Unmarked plain.encode ∧
    engine.classes.size = 2 ∧ isDefined (Scope.define 8 0 plain.encode defined) = true ∧
    ((engine.classAt 1).method? read).map (fun method => method.code[0]?) =
      some (some (.fieldCheck 0)) ∧
    answer? (Scope.invokeStatic 8 0 "lib.U" read [] engine) = none := by
  decide +kernel

set_option maxRecDepth 100000 in
theorem facts_marked : (TypeUnit.decode marked.encode).toOption = some marked ∧
    isDefined (Scope.define 8 0 marked.encode defined) = true ∧
    answer? (Scope.invokeStatic 8 0 "lib.U" read []
      (Exec.final (Scope.define 8 0 marked.encode) defined)) = some (.int 7) := by
  decide +kernel

theorem eq_ok_of_isDefined {x : Exec ReloadError ClassRef} {e : Engine}
    (defines : isDefined (x e) = true) : x e = .ok 1 (x.final e) := by
  unfold Exec.final
  cases run : x e with
  | ok c e' =>
    rw [run] at defines
    rw [of_decide_eq_true defines]
  | error stop e' =>
    rw [run] at defines
    cases defines

theorem trusted : defined.Trusted := by
  have registry : Engine.Trusted ((Scope.newRegistry : Run RegistryRef).final {}) :=
    .single (.other .newRegistry rfl)
  obtain ⟨scopes, classes, -, unmarked, -⟩ := facts
  have opened : (Engine.opened { included := ["app.*"] }).Trusted :=
    registry.tail (.other (.openWith _ 0 Nat.zero_lt_one) classes)
  exact opened.tail (.define 8 0 owner.encode (scopes ▸ Nat.one_pos) unmarked)

end Smuggled

open Smuggled in
/-- A field of another type is read behind a guard. -/
theorem engine_instructions_inserted_reading : engine.Trusted ∧
    (∃ e', Scope.define 8 0 plain.encode defined = .ok 1 e' ∧
      ∃ u, TypeUnit.decode plain.encode = .ok u ∧ ∀ m ∈ u.methods, IsPlain m.code) ∧
    ∃ s method, engine.Homes s 1 ∧ (engine.classAt 1).method? read = some method ∧
      method.code[0]? = some (.fieldCheck 0) ∧
      Inserted (engine.namesOf s) (engine.classAt 1).managed (engine.classAt 1).standsFor
        method.code 0 (.fieldCheck 0) := by
  obtain ⟨-, -, one, -, unmarked, classes, defines, guarded, -⟩ := facts
  have trusted' : engine.Trusted :=
    trusted.tail (.define 8 0 plain.encode (one ▸ Nat.one_pos) unmarked)
  have run := eq_ok_of_isDefined defines
  obtain ⟨method, declared, here⟩ := Option.map_eq_some_iff.1 guarded
  obtain ⟨s, homes, inserted⟩ :=
    (engine_instructions_inserted trusted').2.2 1 (classes ▸ Nat.lt_succ_self 1)
  exact ⟨trusted', ⟨_, run, (engine_instructions_inserted trusted).1 0 8 _ 1 _ unmarked run⟩,
    s, method, homes, declared, here, inserted read method declared 0 _ here rfl⟩

open Smuggled in
/-- A unit that says of itself that the engine wrote it is accepted with an instruction of the
engine, which then reads a private field of another type.  The same read behind a guard fails. -/
theorem engine_instructions_smuggled : defined.Trusted ∧
    ∃ u e', TypeUnit.decode marked.encode = .ok u ∧
      Scope.define 8 0 marked.encode defined = .ok 1 e' ∧
      (∃ m ∈ u.methods, ∃ instr ∈ m.code, instr.isEngineOnly = true) ∧
      answer? (Scope.invokeStatic 8 0 "lib.U" read [] e') = some (.int 7) ∧
      answer? (Scope.invokeStatic 8 0 "lib.U" read [] engine) = none := by
  obtain ⟨decoded, defines, answers⟩ := facts_marked
  obtain ⟨-, -, -, -, -, -, -, -, refused⟩ := facts
  refine ⟨trusted, marked, _, ?_, eq_ok_of_isDefined defines, ⟨_, List.mem_singleton_self _, _,
    List.mem_cons_self, rfl⟩, answers, refused⟩
  cases read : TypeUnit.decode marked.encode with
  | error error =>
    rw [read] at decoded
    cases decoded
  | ok u =>
    rw [read] at decoded
    exact congrArg Except.ok (Option.some.inj decoded)

end LiveUpdate
