import LiveUpdate.Scope.Reload
import LiveUpdate.Proofs.Laws
import LiveUpdate.Proofs.Names
import LiveUpdate.Proofs.Skeleton
import LiveUpdate.Proofs.Table
import Mathlib.Logic.Relation

/-!
# Edits

Every operation of a scope changes the engine in a few ways only: code runs, a name gets a
number, a class is defined, a unit becomes a managed type, a version is published.  An
edit is one such change together with what is known where it is made.  What holds of every
engine that operations lead to is proved edit by edit, and no operation is opened again.
-/

set_option autoImplicit false

namespace LiveUpdate

/-- The specification of the host class of a managed type. -/
def HostForm.spec (form : HostForm) (id : TypeId) (parent : Option ClassRef)
    (interfaces : List ClassRef) : ClassSpec where
  unit := form.unit
  parent := parent
  interfaces := interfaces
  managed := some id
  standsFor := none
  declaredAccess := form.declaredAccess

/-- The specification of an executor below its contract. -/
def ExecutorContext.spec (ctx : ExecutorContext) (options : Options) (names : NameTable)
    (number : Nat) (u : TypeUnit) (contract : ClassRef) : ClassSpec :=
  { ClassSpec.plain (ctx.executorUnit options names number u) none [contract] with
    standsFor := some ctx.typeId }

/-- What a class is defined as, and that its parent does not forbid it. -/
theorem Class.define_eq_ok {place : ClassRef} {id : Nat} {spec : ClassSpec}
    {parent : Option Class} {interfaces : List Class} {cls : Class}
    (defined : define place id spec parent interfaces = .ok cls) :
    cls = fresh place id spec parent interfaces ∧
      parent.bind (parentFault? spec.unit.name) = none := by
  unfold define at defined
  dsimp only at defined
  split at defined
  · cases defined
  next permitted =>
    split at defined
    · cases defined
    · split at defined
      · cases defined
      · cases defined
        exact ⟨rfl, Option.eq_none_iff_forall_ne_some.2 permitted⟩

namespace Engine

/-- One more class number is used up in a scope. -/
def countClass (e : Engine) (s : ScopeRef) : Engine :=
  e.updateScope s fun scope => { scope with nextClassId := scope.nextClassId + 1 }

/-- One more class, which a scope knows by its name. -/
def addClass (e : Engine) (s : ScopeRef) (cls : Class) : Engine :=
  { e with classes := e.classes.push cls }.updateScope s fun scope =>
    { scope with classes := scope.classes.put cls.name e.classes.size }

/-- One more managed type, which a scope knows by its number. -/
def addType (e : Engine) (s : ScopeRef) (type : ManagedType) : Engine :=
  { e with types := e.types.push type }.updateScope s fun scope =>
    { scope with types := scope.types.put type.id e.types.size }

/-- A version of a managed type is in force from now on. -/
def publish (e : Engine) (t : TypeRef) (v : LiveVersion) : Engine :=
  (e.updateType t fun type => type.publish v).updateScope (e.typeAt t).scope fun scope =>
    { scope with
      epoch := scope.epoch + 1
      routes := []
      metadata := scope.metadata.erase (e.typeAt t).name }

/-- The class at a place is the one that a specification describes, but for what its code
has done since. -/
structure Describes (e : Engine) (c : ClassRef) (spec : ClassSpec) : Prop where
  lt : c < e.classes.size
  parent_lt : ∀ p ∈ spec.parent, p < c
  interface_lt : ∀ i ∈ spec.interfaces, i < c
  fresh : ∃ id, (e.classAt c).skeleton = (Class.fresh c id spec (spec.parent.map e.classAt)
    (spec.interfaces.map e.classAt)).skeleton

section Described

variable {e : Engine} {c : ClassRef} {spec : ClassSpec} (described : e.Describes c spec)
include described

/-- What code does not change is as the specification says. -/
theorem Describes.unit_eq : (e.classAt c).unit = spec.unit := by
  obtain ⟨_, fresh⟩ := described.fresh
  exact congrArg Class.unit fresh

theorem Describes.nameOf_eq : e.nameOf c = spec.unit.name := by
  obtain ⟨_, fresh⟩ := described.fresh
  exact congrArg Class.name fresh

theorem Describes.managed_eq : (e.classAt c).managed = spec.managed := by
  obtain ⟨_, fresh⟩ := described.fresh
  exact congrArg Class.managed fresh

theorem Describes.standsFor_eq : (e.classAt c).standsFor = spec.standsFor := by
  obtain ⟨_, fresh⟩ := described.fresh
  exact congrArg Class.standsFor fresh

theorem Describes.parent_eq : (e.classAt c).parent = spec.parent := by
  obtain ⟨_, fresh⟩ := described.fresh
  exact congrArg Class.parent fresh

theorem Describes.interfaces_eq : (e.classAt c).interfaces = spec.interfaces := by
  obtain ⟨_, fresh⟩ := described.fresh
  exact congrArg Class.interfaces fresh

theorem Describes.superclasses_eq : (e.classAt c).superclasses =
    spec.parent.toList ++ ((spec.parent.map e.classAt).map Class.superclasses).getD [] := by
  obtain ⟨_, fresh⟩ := described.fresh
  exact congrArg Class.superclasses fresh

theorem Describes.methods_eq : (e.classAt c).methods = Class.methodsOf spec := by
  obtain ⟨_, fresh⟩ := described.fresh
  exact congrArg Class.methods fresh

theorem Describes.staticFields_eq : (e.classAt c).staticFields =
    (spec.unit.fields.filter FieldDef.isStatic).map (Class.slotOf spec.unit.name) := by
  obtain ⟨_, fresh⟩ := described.fresh
  exact congrArg Class.staticFields fresh

theorem Describes.instanceFields_eq : (e.classAt c).instanceFields =
    ((spec.parent.map e.classAt).map Class.instanceFields).getD [] ++
      (spec.unit.fields.filter fun f => !f.isStatic).map (Class.slotOf spec.unit.name) := by
  obtain ⟨_, fresh⟩ := described.fresh
  exact congrArg Class.instanceFields fresh

end Described

/-- A unit's supertype and interfaces are these classes of a scope. -/
structure Links (e : Engine) (s : ScopeRef) (u : TypeUnit) (parent : Option ClassRef)
    (interfaces : List ClassRef) : Prop where
  superclass : u.superName.map (e.class? s) = parent.map some
  interfaces : u.interfaces.map (e.class? s) = interfaces.map some

/-- A table of names is one that a scope has had. -/
def HadNames (e : Engine) (s : ScopeRef) (names : NameTable) : Prop :=
  (e.namesOf s).Extends names

/-- All owners that the guards of some code name have numbers. -/
def NamesOwners (options : Options) (names : NameTable) (code : List Instr) : Prop :=
  ∀ instr ∈ code, ∀ owner, guardedOwner? options instr = some owner →
    (names.lookup owner).isSome

/-- A class that is not the host of a managed type is the guarded form of a verified unit,
a contract, or the executor of a version. -/
inductive PlainOrigin (e : Engine) (s : ScopeRef) : ClassSpec → Prop
  | unit (u : TypeUnit) (names : NameTable) (parent : Option ClassRef)
      (interfaces : List ClassRef) (verified : u.verify = .ok ())
      (links : e.Links s u parent interfaces) (had : e.HadNames s names)
      (named : ∀ m ∈ u.methods, NamesOwners (e.scopeAt s).options names m.code) :
      PlainOrigin e s (.plain (u.withGuards (e.scopeAt s).options names) parent interfaces)
  | contract (typeName : String) (number : Nat) (shape : TypeShape) :
      PlainOrigin e s (.plain (contractUnit typeName number shape) none [])
  | executor (ctx : ExecutorContext) (names : NameTable) (number : Nat) (u : TypeUnit)
      (contract : ClassRef) (known : ∃ name, e.class? s name = some contract) :
      PlainOrigin e s (ctx.spec (e.scopeAt s).options names number u contract)

/-- What a class of a scope is defined from is in order: the name is free, and the classes
that it extends and implements exist. -/
structure Admits (e : Engine) (s : ScopeRef) (spec : ClassSpec) (cls : Class) : Prop where
  scope_lt : s < e.scopes.size
  free : e.class? s spec.unit.name = none
  parent_lt : ∀ p ∈ spec.parent, p < e.classes.size
  interface_lt : ∀ i ∈ spec.interfaces, i < e.classes.size
  defined : ∃ id, Class.define e.classes.size id spec (spec.parent.map e.classAt)
    (spec.interfaces.map e.classAt) = .ok cls

/-- An admitted class is the one that its specification describes. -/
theorem Admits.eq {e : Engine} {s : ScopeRef} {spec : ClassSpec} {cls : Class}
    (admits : e.Admits s spec cls) : ∃ id, cls = Class.fresh e.classes.size id spec
      (spec.parent.map e.classAt) (spec.interfaces.map e.classAt) := by
  obtain ⟨id, defined⟩ := admits.defined
  exact ⟨id, (Class.define_eq_ok defined).1⟩

/-- The name of an admitted class is free. -/
theorem Admits.free_name {e : Engine} {s : ScopeRef} {spec : ClassSpec} {cls : Class}
    (admits : e.Admits s spec cls) : e.class? s cls.name = none := by
  obtain ⟨id, rfl⟩ := admits.eq
  exact admits.free

/-- A unit that becomes a managed type, and the form of it that its host is defined from. -/
structure Manages (e : Engine) (s : ScopeRef) (type : ManagedType) (form : HostForm)
    (parent : Option ClassRef) (interfaces : List ClassRef) : Prop where
  decoded : TypeUnit.decode type.first.data = .ok type.first.unit
  verified : type.first.unit.verify = .ok ()
  /-- Interfaces are not managed. -/
  inheritable : type.first.unit.isInterface = false
  shaped : TypeShape.extract type.first.unit = .ok type.first.shape
  defines : type =
    { ManagedType.define type.id s
        (.first type.first.data type.first.unit type.first.shape form.slots) form.slots with
      native := type.native }
  free : e.typeWithId? s type.id = none
  numbered : (e.namesOf s).lookup type.first.unit.name = some type.id
  links : e.Links s type.first.unit parent interfaces
  hosted : ∃ names, e.HadNames s names ∧
    (∀ m ∈ type.first.unit.methods, NamesOwners (e.scopeAt s).options names m.code) ∧
    form = HostForm.ofUnit (type.first.unit.withGuards (e.scopeAt s).options names) type.id
      (parent.map e.classAt)

/-- Nothing of a type that was just defined is in an executor. -/
theorem Manages.unexecuted {e : Engine} {s : ScopeRef} {type : ManagedType} {form : HostForm}
    {parent : Option ClassRef} {interfaces : List ClassRef}
    (manages : e.Manages s type form parent interfaces) (key : MemberKey) (m : Method) :
    (key, .executor m) ∉ type.live.dispatch.entries := by
  intro mem
  rw [manages.defines] at mem
  obtain ⟨slot, -, same⟩ := List.mem_map.1 mem
  cases same

/-- What the executors of a managed type are compiled for. -/
def executorContext (e : Engine) (t : TypeRef) (native : ClassRef) (shape : TypeShape) :
    ExecutorContext :=
  ⟨(e.typeAt t).name, (e.typeAt t).id, (e.classAt native).skeleton, shape⟩

/-- The options in force for a managed type. -/
def optionsOf (e : Engine) (t : TypeRef) : Options :=
  (e.scopeAt (e.typeAt t).scope).options

/-- The classes of a version were generated from a unit with a shape. -/
structure Compiles (e : Engine) (t : TypeRef) (u : TypeUnit) (shape : TypeShape)
    (artifacts : Artifacts) : Prop where
  executor : ∃ native names number, (e.typeAt t).native = some native ∧
    e.HadNames (e.typeAt t).scope names ∧
    (∀ m ∈ (e.executorContext t native shape).concreteMethods u, ∀ instr ∈ m.1.code, ∀ owner,
      (e.executorContext t native shape).guardedOwner? (e.optionsOf t) instr = some owner →
        (names.lookup owner).isSome) ∧
    e.Describes artifacts.executor ((e.executorContext t native shape).spec (e.optionsOf t) names
      number u artifacts.contract)
  contract : ∃ number, e.Describes artifacts.contract
    (.plain (contractUnit (e.typeAt t).name number shape) none [])

/-- What a version is that may be published for a managed type. -/
structure Offers (e : Engine) (t : TypeRef) (v : LiveVersion) : Prop where
  type_lt : t < e.types.size
  hosted : (e.typeAt t).native.isSome
  decoded : TypeUnit.decode v.data = .ok v.unit
  verified : v.unit.verify = .ok ()
  shaped : TypeShape.extract v.unit = .ok v.shape
  named : v.unit.name = (e.typeAt t).name
  number : v.number = (e.typeAt t).versions.length
  digest : v.digest = TypeUnit.storedDigest? v.data
  delta : v.delta = some (.between (e.typeAt t).live.shape v.shape)
  cumulative : v.cumulative =
    let difference := ShapeDiff.between (e.typeAt t).first.shape v.shape
    if difference.isEmpty then none else some difference
  artifacts : (v.cumulative = none ∧ v.artifacts = none) ∨
    (v.cumulative.isSome ∧ ∃ a, v.artifacts = some a ∧
      ((v.digest.isSome ∧ v.digest = (e.typeAt t).live.digest ∧
          (e.typeAt t).live.artifacts = some a) ∨
        e.Compiles t v.unit v.shape a))
  dispatch : v.dispatch = DispatchTable.build (e.typeAt t).name (e.typeAt t).slots v.shape
    v.cumulative (v.artifacts.map fun a => e.classAt a.executor)
  slots : ∀ m ∈ v.shape.methods, m.isStaticInit = false →
    ((e.typeAt t).slots.slotOf? m.key).isSome
  safe : (e.optionsOf t).verifyReloads →
    ∀ native ∈ (e.typeAt t).native,
      (ShapeDiff.between (e.typeAt t).first.shape v.shape).isSafe (e.inheritedVtable native)

/-- One change of an engine, with what is known where it is made. -/
inductive Edit (e : Engine) : Engine → Prop
  /-- Code runs, and upholds every law. -/
  | run {e' : Engine} (same : e'.skeleton = e.skeleton)
      (lawful : ∀ law : Law, law.holds e → law.holds e') : Edit e e'
  /-- Calls begin or end. -/
  | setDepth (depth : Nat) : Edit e { e with depth }
  | openScope (options : Options) (filter : TypeFilter) (registry : RegistryRef)
      (usable : options.validate = .ok filter) (known : registry < e.registries.size) :
      Edit e { e with scopes := e.scopes.push (.empty options filter registry) }
  | addRegistry : Edit e { e with registries := e.registries.push {} }
  /-- A name gets a number. -/
  | number (s : ScopeRef) (name : String) :
      Edit e (e.setNames s ((e.namesOf s).idFor name).2)
  | countClass (s : ScopeRef) : Edit e (e.countClass s)
  | addClass (s : ScopeRef) (spec : ClassSpec) (cls : Class) (admits : e.Admits s spec cls)
      (origin : e.PlainOrigin s spec) : Edit e (e.addClass s cls)
  /-- A unit becomes a managed type with a host class. -/
  | manage (s : ScopeRef) (type : ManagedType) (form : HostForm) (parent : Option ClassRef)
      (interfaces : List ClassRef) (cls : Class)
      (manages : e.Manages s type form parent interfaces)
      (hosted : type.native = some e.classes.size)
      (admits : e.Admits s (form.spec type.id parent interfaces) cls) :
      Edit e ((e.addType s type).addClass s cls)
  /-- A managed type whose host class could not be defined stays without a name, and nothing of
  it is in an executor. -/
  | abandon (type : ManagedType) (unhosted : type.native = none)
      (unexecuted : ∀ key m, (key, .executor m) ∉ type.live.dispatch.entries) :
      Edit e { e with types := e.types.push type }
  | countArtifact (t : TypeRef) (next : Nat) :
      Edit e (e.updateType t fun type => { type with nextArtifact := next })
  | addSlots (t : TypeRef) (keys : List MemberKey) :
      Edit e (e.updateType t fun type =>
        { type with slots := (e.typeAt t).slots.assignAll keys .added })
  | publish (t : TypeRef) (v : LiveVersion) (offers : e.Offers t v) : Edit e (e.publish t v)
  /-- A reload is refused. -/
  | refuse (t : TypeRef) :
      Edit e (e.updateType t fun type => { type with rejected := type.rejected + 1 })
  /-- The supertype of a managed type is looked up. -/
  | remember (t : TypeRef) (found : Option TypeRef) :
      Edit e (e.updateType t fun type => { type with superType := some found })
  | observe (s : ScopeRef) (observer : Observer) :
      Edit e (e.updateScope s fun scope =>
        { scope with observers := scope.observers ++ [observer] })
  | close (s : ScopeRef) : Edit e (e.updateScope s fun scope => { scope with isOpen := false })
  /-- An observer is called. -/
  | trace (callback : Callback) : Edit e { e with trace := e.trace ++ [callback] }

/-- Edits one after another. -/
abbrev Edits : Engine → Engine → Prop := Relation.ReflTransGen Edit

theorem Edit.edits {e e' : Engine} (edit : Edit e e') : Edits e e' := .single edit

end Engine

end LiveUpdate
