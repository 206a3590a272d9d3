import LiveUpdate.Proofs.Resting

/-!
# Enrollment

A definition first enrolls the unit: it numbers names, registers the managed type and defines
the class.  Only then is the class initialized.  An enrollment that fails leaves nothing in
the tables of scopes, whichever of its steps it is that fails.
-/

set_option autoImplicit false

namespace LiveUpdate

open Exec

namespace Engine

variable {e e' e'' : Engine}

/-- The classes are the same, the scopes are as many and know the same classes and managed
types, and the managed types that there were are the same. -/
structure SameTables (e e' : Engine) : Prop where
  classes : e'.classes = e.classes
  known : ∀ s, (e'.scopeAt s).classes = (e.scopeAt s).classes
  registered : ∀ s, (e'.scopeAt s).types = (e.scopeAt s).types
  scopes : e'.scopes.size = e.scopes.size
  size : e.types.size ≤ e'.types.size
  typeAt : ∀ t < e.types.size, e'.typeAt t = e.typeAt t

theorem SameTables.refl (e : Engine) : e.SameTables e :=
  ⟨rfl, fun _ => rfl, fun _ => rfl, rfl, Nat.le_refl _, fun _ _ => rfl⟩

theorem SameTables.trans (first : e.SameTables e') (second : e'.SameTables e'') :
    e.SameTables e'' where
  classes := second.classes.trans first.classes
  known s := (second.known s).trans (first.known s)
  registered s := (second.registered s).trans (first.registered s)
  scopes := second.scopes.trans first.scopes
  size := Nat.le_trans first.size second.size
  typeAt t lt := (second.typeAt t (Nat.lt_of_lt_of_le lt first.size)).trans (first.typeAt t lt)

theorem sameTables_setNames (e : Engine) (s : ScopeRef) (names : NameTable) :
    e.SameTables (e.setNames s names) :=
  ⟨rfl, fun _ => rfl, fun _ => rfl, rfl, Nat.le_refl _, fun _ _ => rfl⟩

theorem sameTables_countClass (e : Engine) (s : ScopeRef) : e.SameTables (e.countClass s) := by
  have scope (s' : ScopeRef) : (e.countClass s).scopeAt s' = if s = s' ∧ s' < e.scopes.size then
      { e.scopeAt s' with nextClassId := (e.scopeAt s').nextClassId + 1 } else e.scopeAt s' :=
    scopeAt_updateScope e s _ s'
  refine ⟨rfl, fun s' => ?_, fun s' => ?_, by simp [countClass, updateScope], Nat.le_refl _,
    fun _ _ => rfl⟩
  · rw [scope]
    split <;> rfl
  · rw [scope]
    split <;> rfl

theorem class?_countClass (e : Engine) (s s' : ScopeRef) (name : String) :
    (e.countClass s).class? s' name = e.class? s' name :=
  class?_updateScope e s (fun scope => { scope with nextClassId := scope.nextClassId + 1 })
    (fun _ => rfl) s' name

theorem typeWithId?_countClass (e : Engine) (s s' : ScopeRef) (id : TypeId) :
    (e.countClass s).typeWithId? s' id = e.typeWithId? s' id :=
  typeWithId?_updateScope e s (fun scope => { scope with nextClassId := scope.nextClassId + 1 })
    (fun _ => rfl) s' id

theorem namesOf_addType (e : Engine) (s : ScopeRef) (type : ManagedType) (s' : ScopeRef) :
    (e.addType s type).namesOf s' = e.namesOf s' := by
  have scope : ((e.addType s type).scopeAt s').registry = (e.scopeAt s').registry := by
    rw [show (e.addType s type).scopeAt s' = _ from scopeAt_updateScope _ s _ s']
    split <;> rfl
  unfold Engine.namesOf
  rw [scope]
  rfl

theorem sameTables_pushType (e : Engine) (type : ManagedType) :
    e.SameTables { e with types := e.types.push type } := by
  refine ⟨rfl, fun _ => rfl, fun _ => rfl, rfl, by simp, fun t lt => ?_⟩
  rw [typeAt_push, if_neg (Nat.ne_of_lt lt)]

end Engine

open Engine

namespace Scope

variable {e : Engine} {s : ScopeRef}

/-- Define the class of a unit, and leave it uninitialized. -/
def enroll (s : ScopeRef) (data : List UInt8) : Exec ReloadError ClassRef := do
  let u ← ofResult ((TypeUnit.decode data).mapError .unit)
  ofResult (u.verify.mapError .verify)
  if (← ask fun e => e.class? s u.name).isSome then fail (.run (.duplicateClass u.name))
  let (parent, interfaces) ← mapError .run (requireParents s u)
  if ← ask fun e => (e.scopeAt s).isEligible u then
    defineManaged s data u parent interfaces
  else mapError .run (definePlain s u parent interfaces)

/-- A definition is an enrollment and an initialization. -/
theorem define_eq (fuel : Nat) (s : ScopeRef) (data : List UInt8) : define fuel s data = (do
    let c ← enroll s data
    mapError .run ((Machine.of s fuel).ensureInitialized c)
    return c) := by
  unfold define enroll
  simp only [bind_assoc]
  refine bind_congr fun u => bind_congr fun _ => bind_congr fun taken => ?_
  cases taken with
  | some c => rfl
  | none =>
    simp only [Option.isSome_none, Bool.false_eq_true, if_false, bind_assoc]
    refine bind_congr fun links => bind_congr fun eligible => ?_
    cases eligible <;> rfl

/-- All owners that the guards of a unit name have numbers in a table. -/
def NamesAll (e : Engine) (s : ScopeRef) (u : TypeUnit) (names : NameTable) : Prop :=
  ∀ m ∈ u.methods, NamesOwners (e.scopeAt s).options names m.code

/-- A class is defined from the guarded form of a unit, or from the host form of that. -/
def MadeFrom (e : Engine) (s : ScopeRef) (u : TypeUnit) (names : NameTable) (cls : Class) : Prop :=
  let guarded := u.withGuards (e.scopeAt s).options names
  (cls.managed = none ∧ cls.unit = guarded) ∨
    ∃ id parent, cls.managed = some id ∧ cls.unit = (HostForm.ofUnit guarded id parent).unit

/-- What an enrollment defines: the class of a unit, below a parent that permits it.  `base` is
the engine that the class is added to; the managed type is already in it, if there is one. -/
structure Enrolls (e : Engine) (s : ScopeRef) (u : TypeUnit) (base : Engine) (cls : Class) :
    Prop where
  free : e.class? s u.name = none
  defined : ∃ id spec, spec.unit.name = u.name ∧ (∀ p ∈ spec.parent, p < e.classes.size) ∧
    Class.define e.classes.size id spec (spec.parent.map e.classAt)
      (spec.interfaces.map e.classAt) = .ok cls
  source : ∃ names, NamesAll e s u names ∧ base.namesOf s = (e.setNames s names).namesOf s ∧
    cls.standsFor = none ∧ MadeFrom e s u names cls
  base : ∃ names, if (e.scopeAt s).isEligible u then
      ∃ type : ManagedType, cls.managed = some type.id ∧ type.native = some e.classes.size ∧
        type.statics = {} ∧ type.name = u.name ∧ e.typeWithId? s type.id = none ∧
        base = (e.setNames s names).addType s type
    else cls.managed = none ∧ base = e.setNames s names

/-- A name gets a number, and nothing else changes. -/
theorem ends_idFor (s : ScopeRef) (name : String) :
    e.Ends (idFor s name : Exec ReloadError TypeId) (fun _ e' => ∃ names, e' = e.setNames s names)
      fun _ _ => False :=
  ⟨_, rfl⟩

/-- A unit gets guards, which need numbers only. -/
theorem ends_guarded {ε : Type} (s : ScopeRef) (u : TypeUnit) :
    e.Ends (guardUnit s u : Exec ε TypeUnit)
      (fun guarded e' => ∃ names, guarded = u.withGuards (e.scopeAt s).options names ∧
        NamesAll e s u names ∧ e' = e.setNames s names)
      fun _ _ => False := by
  refine ⟨_, rfl, fun m mem instr here owner guards => ?_, rfl⟩
  apply NameTable.lookup_addAll_isSome
  exact List.mem_flatMap.2 ⟨m, mem, List.mem_filterMap.2 ⟨instr, here, guards⟩⟩

theorem ends_definePlain {u : TypeUnit} (free : e.class? s u.name = none)
    (ineligible : (e.scopeAt s).isEligible u = false) {parent : Option ClassRef}
    (parent_lt : ∀ p ∈ parent, p < e.classes.size) (interfaces : List ClassRef) :
    e.Ends (definePlain s u parent interfaces)
      (fun c e' => c = e.classes.size ∧ ∃ base cls, Enrolls e s u base cls ∧
        e' = (base.addClass s cls).countClass s)
      fun _ e' => e.SameTables e' := by
  refine ends_bind_done (ends_guarded s u) fun guarded e₁ numbered => ?_
  obtain ⟨names, rfl, owners, rfl⟩ := numbered
  refine Ends.weaken (ends_addClass (.plain (u.withGuards (e.scopeAt s).options names) parent
    interfaces) free) (fun c e' done => ?_) fun _ e' same => ?_
  · obtain ⟨rfl, id, cls, defined, rfl⟩ := done
    obtain ⟨fresh, -⟩ := Class.define_eq_ok defined
    refine ⟨rfl, _, cls, ⟨free, ⟨id, _, rfl, parent_lt, defined⟩, ⟨names, owners, rfl, ?_⟩, names,
      ?_⟩, (e.setNames s names).countClass_addClass s cls⟩
    · rw [fresh]
      exact ⟨rfl, .inl ⟨rfl, rfl⟩⟩
    · rw [ineligible, fresh]
      exact ⟨rfl, rfl⟩
  · rw [same]
    exact (sameTables_setNames e s _).trans (sameTables_countClass _ s)

theorem ends_registerType (data : List UInt8) {u : TypeUnit} (parent : Option ClassRef) :
    e.Ends (registerType s data u parent)
      (fun r e' => r.1 = e.types.size ∧ e.typeWithId? s r.2.1 = none ∧ ∃ names shape,
        r.2.2 = HostForm.ofUnit (u.withGuards (e.scopeAt s).options names) r.2.1
          (parent.map e.classAt) ∧ NamesAll e s u names ∧
        e' = (e.setNames s names).addType s
          (ManagedType.define r.2.1 s (.first data u shape r.2.2.slots) r.2.2.slots))
      fun _ e' => e.SameTables e' := by
  refine ends_bind_done (ends_idFor s u.name) fun id e₁ numbered => ?_
  obtain ⟨names₁, rfl⟩ := numbered
  have same₁ := sameTables_setNames e s names₁
  refine ends_ofResult_bind (fun shape _ => ?_) fun _ _ => same₁
  refine ends_bind_done (ends_guarded s u) fun guarded e₂ numbered => ?_
  obtain ⟨names₂, rfl, owners, rfl⟩ := numbered
  refine ends_ask_bind (ends_ask_bind ?_)
  split
  · exact ends_fail (same₁.trans (sameTables_setNames _ s _))
  next unknown =>
    have free : e.typeWithId? s id = none :=
      Option.not_isSome_iff_eq_none.1 unknown
    have same : (e.setNames s names₁).setNames s names₂ = e.setNames s names₂ :=
      e.setNames_setNames s names₁ names₂
    refine ⟨rfl, free, names₂, shape, rfl, owners, ?_⟩
    rw [← same]
    rfl

/-- The host class of a type that was just added is defined, or the scope forgets the type. -/
theorem ends_defineHost (e : Engine) (type : ManagedType) (spec : ClassSpec)
    (free : e.class? s spec.unit.name = none) (unregistered : e.typeWithId? s type.id = none) :
    (e.addType s type).Ends (defineHost s e.types.size type.id spec)
      (fun c e' => c = e.classes.size ∧ ∃ id cls,
        Class.define c id spec (spec.parent.map e.classAt) (spec.interfaces.map e.classAt) =
          .ok cls ∧
        e' = ((e.addType s { type with native := some c }).addClass s cls).countClass s)
      fun _ e' => e.SameTables e' := by
  have free' : (e.addType s type).class? s spec.unit.name = none := by
    rw [class?_addType]
    exact free
  have defines := ends_addClass spec free'
  unfold Ends defineHost
  rw [tryCatch_apply, bind_apply, mapError_apply]
  cases run : defineClass s spec (e.addType s type) with
  | error fault failed =>
    -- The type that was added is taken out of the scope again, so its tables are what they were.
    obtain rfl := defines.error run
    show e.SameTables (((e.addType s type).countClass s).updateScope s fun scope =>
      { scope with types := scope.types.erase type.id })
    rw [e.dropType_eq s type unregistered]
    exact (sameTables_pushType e type).trans (sameTables_countClass _ s)
  | ok c done =>
    obtain ⟨rfl, id, cls, defined, rfl⟩ := defines.ok run
    exact ⟨rfl, id, cls, defined, e.addHost_eq s type cls⟩

theorem ends_enrollManaged (data : List UInt8) {u : TypeUnit} (free : e.class? s u.name = none)
    (eligible : (e.scopeAt s).isEligible u = true) {parent : Option ClassRef}
    (parent_lt : ∀ p ∈ parent, p < e.classes.size) (interfaces : List ClassRef) :
    e.Ends (defineManaged s data u parent interfaces)
      (fun c e' => c = e.classes.size ∧ ∃ base cls, Enrolls e s u base cls ∧
        e' = (base.addClass s cls).countClass s)
      fun _ e' => e.SameTables e' := by
  refine ends_bind (ends_registerType data parent) fun r e₁ registered => ?_
  obtain ⟨t, id, form⟩ := r
  dsimp only at registered
  obtain ⟨rfl, unregistered, names, shape, rfl, owners, rfl⟩ := registered
  let form := HostForm.ofUnit (u.withGuards (e.scopeAt s).options names) id (parent.map e.classAt)
  let type := ManagedType.define id s (.first data u shape form.slots) form.slots
  have hosted := ends_defineHost (e.setNames s names) type (form.spec id parent interfaces)
    free unregistered
  refine Ends.weaken hosted (fun c e' done => ?_)
    fun _ _ same => (sameTables_setNames e s names).trans same
  obtain ⟨rfl, classId, cls, defined, rfl⟩ := done
  obtain ⟨fresh, -⟩ := Class.define_eq_ok defined
  let type' := { type with native := some e.classes.size }
  refine ⟨rfl, (e.setNames s names).addType s type', cls,
    ⟨free, ⟨classId, _, rfl, parent_lt, defined⟩, ⟨names, owners, ?_, ?_⟩, names, ?_⟩, rfl⟩
  · exact namesOf_addType ..
  · rw [fresh]
    exact ⟨rfl, .inr ⟨id, _, rfl, rfl⟩⟩
  · rw [eligible, fresh]
    exact ⟨type', rfl, rfl, rfl, rfl, unregistered, rfl⟩

/-- The classes that a unit extends exist. -/
theorem ends_requireParents (grounded : e.Grounded) (s : ScopeRef) (u : TypeUnit) :
    e.Ends (requireParents s u) (fun links e' => e' = e ∧ ∀ p ∈ links.1, p < e.classes.size)
      fun _ e' => e' = e := by
  have kept : e.Ends (requireParents s u) (fun _ e' => e' = e) fun _ e' => e' = e :=
    ends_of_keeps (π := id) (keeps_requireParents s u)
  cases run : requireParents s u e with
  | ok links e' =>
    have linked := ((leads_requireParents u).post links e' run).2
    exact .of_ok run ⟨kept.ok run, (links_lt grounded linked).1⟩
  | error stop e' => exact .of_error run (kept.error run)

/-- A unit is enrolled with its class, or the tables of scopes are as they were. -/
theorem ends_enroll (grounded : e.Grounded) (s : ScopeRef) (data : List UInt8) :
    e.Ends (enroll s data)
      (fun c e' => c = e.classes.size ∧ ∃ u base cls,
        (TypeUnit.decode data = .ok u ∧ u.verify = .ok ()) ∧ Enrolls e s u base cls ∧
        e' = (base.addClass s cls).countClass s)
      fun _ e' => e.SameTables e' := by
  have untouched := SameTables.refl e
  refine ends_ofResult_bind (fun u decoded => ?_) fun _ _ => untouched
  have decoded := ok_of_mapError decoded
  refine ends_ofResult_bind (fun _ verified => ends_ask_bind ?_) fun _ _ => untouched
  have read := And.intro decoded (ok_of_mapError verified)
  split
  · exact ends_fail untouched
  next unknown =>
    have free : e.class? s u.name = none := Option.not_isSome_iff_eq_none.1 unknown
    have linked : e.Ends (mapError ReloadError.run (requireParents s u))
        (fun links e' => e' = e ∧ ∀ p ∈ links.1, p < e.classes.size)
        fun _ e' => e.SameTables e' :=
      ends_mapError ((ends_requireParents grounded s u).weaken (fun _ _ held => held)
        fun _ _ same => same ▸ untouched)
    refine ends_bind linked fun links e₁ held => ends_ask_bind ?_
    obtain ⟨rfl, parent_lt⟩ := held
    split
    next eligible =>
      exact (ends_enrollManaged data free eligible parent_lt links.2).weaken
        (fun c e' ⟨place, base, cls, enrolled⟩ => ⟨place, u, base, cls, read, enrolled⟩)
        fun _ _ same => same
    next ineligible =>
      have ineligible := eq_false_of_ne_true ineligible
      exact ends_mapError ((ends_definePlain free ineligible parent_lt links.2).weaken
        (fun c e' ⟨place, base, cls, enrolled⟩ => ⟨place, u, base, cls, read, enrolled⟩)
        fun _ _ same => same)

/-- No code runs in an enrollment: it leaves the heap alone, and the class that it adds is
untouched. -/
theorem moves_enroll (s : ScopeRef) (data : List UInt8) :
    Moves (Rests Class.Untouched) (enroll s data) := by
  have defines (spec : ClassSpec) : Moves (Rests Class.Untouched) (defineClass s spec) :=
    moves_defineClass (fun e => e.rests_updateScope s _)
      fun e _ _ _ _ => e.rests_addClass s (Class.untouched_fresh ..)
  have guards (u : TypeUnit) {ε : Type} : Moves (Rests Class.Untouched)
      (guardUnit s u : Exec ε TypeUnit) := moves_modifyGet fun e => e.rests_setNames s _
  have registers (u : TypeUnit) (parent : Option ClassRef) :
      Moves (Rests Class.Untouched) (registerType s data u parent) := by
    refine moves_bind (moves_modifyGet fun e => e.rests_setNames s _) fun id =>
      moves_bind (moves_ofResult _) fun shape => moves_bind (guards u) fun guarded =>
        moves_bind (moves_ask _) fun form => moves_bind (moves_ask _) fun known => ?_
    split
    · exact moves_fail _
    · refine moves_bind (moves_ask _) fun t =>
        moves_bind (moves_modify fun e => e.rests_pushType rfl) fun _ =>
          moves_bind (moves_modify fun e => e.rests_updateScope s _) fun _ => moves_pure _
  have hosts (t : TypeRef) (id : TypeId) (spec : ClassSpec) :
      Moves (Rests Class.Untouched) (defineHost s t id spec) := by
    refine moves_tryCatch ?_ fun stop => ?_
    · exact moves_bind (moves_mapError (defines spec)) fun c =>
        moves_bind (moves_modify fun e => e.rests_updateType t fun _ => rfl) fun _ => moves_pure _
    · exact moves_bind (moves_modify fun e => e.rests_updateScope s _) fun _ =>
        moves_of_keeps (keeps_throw _)
  refine moves_bind (moves_ofResult _) fun u => moves_bind (moves_ofResult _) fun _ =>
    moves_bind (moves_ask _) fun known => ?_
  split
  · exact moves_fail _
  · refine moves_bind (moves_mapError (moves_of_keeps (keeps_requireParents s u))) fun links =>
      moves_bind (moves_ask _) fun eligible => ?_
    split
    · exact moves_bind (registers u links.1) fun r => hosts _ _ _
    · exact moves_mapError (moves_bind (guards u) fun guarded => defines _)

section Enrolled

variable {u : TypeUnit} {base : Engine} {cls : Class}

/-- The engine that an enrolled class is added to has the same classes and scopes. -/
theorem Enrolls.base_eq (enrolls : Enrolls e s u base cls) :
    base.classes = e.classes ∧ base.scopes.size = e.scopes.size := by
  obtain ⟨names, base⟩ := enrolls.base
  split at base
  · obtain ⟨type, -, -, -, -, -, rfl⟩ := base
    exact ⟨rfl, by simp [Engine.addType, updateScope, setNames]⟩
  · obtain ⟨-, rfl⟩ := base
    exact ⟨rfl, rfl⟩

theorem Enrolls.eq_fresh (enrolls : Enrolls e s u base cls) : ∃ id spec,
    spec.unit.name = u.name ∧ (∀ p ∈ spec.parent, p < e.classes.size) ∧
      cls = Class.fresh e.classes.size id spec (spec.parent.map e.classAt)
        (spec.interfaces.map e.classAt) ∧
      (spec.parent.map e.classAt).bind (Class.parentFault? spec.unit.name) = none := by
  obtain ⟨id, spec, named, parent_lt, defined⟩ := enrolls.defined
  obtain ⟨fresh, permitted⟩ := Class.define_eq_ok defined
  exact ⟨id, spec, named, parent_lt, fresh, permitted⟩

theorem Enrolls.classes (enrolls : Enrolls e s u base cls) :
    ((base.addClass s cls).countClass s).classes = e.classes.push cls := by
  show base.classes.push cls = _
  rw [enrolls.base_eq.1]

theorem Enrolls.classAt (enrolls : Enrolls e s u base cls) :
    ((base.addClass s cls).countClass s).classAt e.classes.size = cls := by
  unfold Engine.classAt
  rw [enrolls.classes]
  simp

theorem Enrolls.classAt_of_lt (enrolls : Enrolls e s u base cls) {c : ClassRef}
    (lt : c < e.classes.size) : ((base.addClass s cls).countClass s).classAt c = e.classAt c := by
  have pushed := classAt_push_of_lt (e := e) cls lt
  unfold Engine.classAt at pushed ⊢
  rw [enrolls.classes]
  exact pushed

/-- The scope knows the class that was enrolled. -/
theorem Enrolls.known (enrolls : Enrolls e s u base cls) (scope_lt : s < e.scopes.size) :
    ((base.addClass s cls).countClass s).class? s u.name = some e.classes.size := by
  obtain ⟨classes, scopes⟩ := enrolls.base_eq
  obtain ⟨id, spec, named, -, rfl, -⟩ := enrolls.eq_fresh
  rw [class?_countClass, class?_addClass, if_pos ⟨rfl, scopes ▸ scope_lt, named⟩, classes]

end Enrolled

end Scope

end LiveUpdate
