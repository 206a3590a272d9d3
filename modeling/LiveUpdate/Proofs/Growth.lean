import LiveUpdate.Proofs.Edit

/-!
# Engines only grow

An edit takes nothing back.  Classes stay what they were defined as, names keep their
numbers, a scope goes on knowing the classes and types that it knows, and a managed type
keeps its identity, its slots and the versions that it had.  So whatever has been found
out about a class or a version stays true.
-/

set_option autoImplicit false

namespace LiveUpdate

/-- What a managed type keeps: who it is, and what it has published and numbered. -/
structure ManagedType.Continues (later earlier : ManagedType) : Prop where
  id : later.id = earlier.id
  name : later.name = earlier.name
  scope : later.scope = earlier.scope
  first : later.first = earlier.first
  native : later.native = earlier.native
  versions : earlier.versions <+: later.versions
  slots : earlier.slots.slots <+: later.slots.slots

/-- What a scope keeps: its options, and the classes and types that it knows. -/
structure Scope.Continues (later earlier : Scope) : Prop where
  options : later.options = earlier.options
  registry : later.registry = earlier.registry
  classes : ∀ name c, earlier.classes.get? name = some c → later.classes.get? name = some c
  types : ∀ id t, earlier.types.get? id = some t → later.types.get? id = some t
  epoch : earlier.epoch ≤ later.epoch

theorem ManagedType.Continues.refl (t : ManagedType) : t.Continues t :=
  ⟨rfl, rfl, rfl, rfl, rfl, List.prefix_refl _, List.prefix_refl _⟩

theorem ManagedType.Continues.trans {a b c : ManagedType} (ab : b.Continues a)
    (bc : c.Continues b) : c.Continues a where
  id := bc.id.trans ab.id
  name := bc.name.trans ab.name
  scope := bc.scope.trans ab.scope
  first := bc.first.trans ab.first
  native := bc.native.trans ab.native
  versions := ab.versions.trans bc.versions
  slots := ab.slots.trans bc.slots

theorem Scope.Continues.refl (s : Scope) : s.Continues s :=
  ⟨rfl, rfl, fun _ _ h => h, fun _ _ h => h, Nat.le_refl _⟩

theorem Scope.Continues.trans {a b c : Scope} (ab : b.Continues a) (bc : c.Continues b) :
    c.Continues a where
  options := bc.options.trans ab.options
  registry := bc.registry.trans ab.registry
  classes name cls h := bc.classes name cls (ab.classes name cls h)
  types id t h := bc.types id t (ab.types id t h)
  epoch := Nat.le_trans ab.epoch bc.epoch

/-- A slot table that is added to keeps its slots. -/
theorem SlotTable.prefix_assignAll (t : SlotTable) (keys : List MemberKey)
    (origin : SlotOrigin) : t.slots <+: (t.assignAll keys origin).slots := by
  induction keys generalizing t with
  | nil => exact List.prefix_refl _
  | cons key rest ih =>
    have step : t.slots <+: (t.assign key origin).slots := by
      unfold assign
      split
      · exact List.prefix_refl _
      · exact List.prefix_append _ _
    exact step.trans (ih (t.assign key origin))

theorem SlotTable.slotOf?_of_prefix {t later : SlotTable} (grown : t.slots <+: later.slots)
    {key : MemberKey} {slot : Nat} (known : t.slotOf? key = some slot) :
    later.slotOf? key = some slot := by
  unfold slotOf? at known ⊢
  obtain ⟨added, grown⟩ := grown
  rw [← grown, List.findIdx?_append, known]
  rfl

/-- Members that are given slots have slots. -/
theorem SlotTable.slotOf?_assignAll_isSome (t : SlotTable) {keys : List MemberKey}
    (origin : SlotOrigin) {key : MemberKey} (mem : key ∈ keys) :
    ((t.assignAll keys origin).slotOf? key).isSome := by
  induction keys generalizing t with
  | nil => cases mem
  | cons first rest ih =>
    rcases List.mem_cons.1 mem with rfl | mem
    · have now : ((t.assign key origin).slotOf? key).isSome := by
        unfold assign
        split
        next known => exact known
        next => simp [slotOf?]
      obtain ⟨slot, found⟩ := Option.isSome_iff_exists.1 now
      have later := slotOf?_of_prefix ((t.assign key origin).prefix_assignAll rest origin) found
      exact Option.isSome_iff_exists.2 ⟨slot, later⟩
    · exact ih (t.assign first origin) mem

namespace Engine

/-- One engine is what another has grown to. -/
structure Grows (e e' : Engine) : Prop where
  classes : e.classes.size ≤ e'.classes.size
  classAt : ∀ c < e.classes.size, (e'.classAt c).skeleton = (e.classAt c).skeleton
  types : e.types.size ≤ e'.types.size
  typeAt : ∀ t < e.types.size, (e'.typeAt t).Continues (e.typeAt t)
  scopes : e.scopes.size ≤ e'.scopes.size
  scopeAt : ∀ s < e.scopes.size, (e'.scopeAt s).Continues (e.scopeAt s)
  registries : e.registries.size ≤ e'.registries.size
  names : ∀ r < e.registries.size,
    (e'.registries.getD r default).Extends (e.registries.getD r default)

variable {e e' e'' : Engine}

theorem Grows.refl (e : Engine) : e.Grows e where
  classes := Nat.le_refl _
  classAt _ _ := rfl
  types := Nat.le_refl _
  typeAt _ _ := .refl _
  scopes := Nat.le_refl _
  scopeAt _ _ := .refl _
  registries := Nat.le_refl _
  names _ _ := .refl _

theorem Grows.trans (first : e.Grows e') (second : e'.Grows e'') : e.Grows e'' where
  classes := Nat.le_trans first.classes second.classes
  classAt c lt := (second.classAt c (Nat.lt_of_lt_of_le lt first.classes)).trans
    (first.classAt c lt)
  types := Nat.le_trans first.types second.types
  typeAt t lt := (first.typeAt t lt).trans (second.typeAt t (Nat.lt_of_lt_of_le lt first.types))
  scopes := Nat.le_trans first.scopes second.scopes
  scopeAt s lt := (first.scopeAt s lt).trans
    (second.scopeAt s (Nat.lt_of_lt_of_le lt first.scopes))
  registries := Nat.le_trans first.registries second.registries
  names r lt := (second.names r (Nat.lt_of_lt_of_le lt first.registries)).trans (first.names r lt)

/-- A lookup in an array in which one entry was changed. -/
theorem getD_modify {α : Type} (xs : Array α) (i : Nat) (f : α → α) (j : Nat) (d : α)
    (lt : j < xs.size) :
    (xs.modify i f).getD j d = if i = j then f (xs.getD j d) else xs.getD j d := by
  have lt' : j < (xs.modify i f).size := by simpa using lt
  simp only [Array.getD_eq_getD_getElem?, Array.getElem?_eq_getElem lt,
    Array.getElem?_eq_getElem lt', Option.getD_some, Array.getElem_modify]

/-- A lookup in an array in which one entry was written. -/
theorem getD_setIfInBounds {α : Type} (xs : Array α) (i : Nat) (x : α) (j : Nat) (d : α)
    (lt : j < xs.size) :
    (xs.setIfInBounds i x).getD j d = if i = j then x else xs.getD j d := by
  rw [Array.getD_eq_getD_getElem?, Array.getElem?_setIfInBounds, Array.getD_eq_getD_getElem?]
  split
  next hit =>
    subst hit
    simp [lt]
  next => rfl

/-- A lookup in an array that was pushed to. -/
theorem getD_push {α : Type} (xs : Array α) (x : α) (j : Nat) (d : α) :
    (xs.push x).getD j d = if j = xs.size then x else xs.getD j d := by
  rw [Array.getD_eq_getD_getElem?, Array.getD_eq_getD_getElem?, Array.getElem?_push]
  by_cases last : j = xs.size
  · rw [if_pos last, if_pos last]
    rfl
  · rw [if_neg last, if_neg last]

theorem getD_push_of_lt {α : Type} (xs : Array α) (x : α) (j : Nat) (d : α) (lt : j < xs.size) :
    (xs.push x).getD j d = xs.getD j d := by
  rw [getD_push, if_neg (Nat.ne_of_lt lt)]

theorem classAt_push_of_lt (cls : Class) {c : ClassRef} (lt : c < e.classes.size) :
    ({ e with classes := e.classes.push cls } : Engine).classAt c = e.classAt c :=
  getD_push_of_lt _ _ _ _ lt

theorem grows_of_skeleton_eq (same : e'.skeleton = e.skeleton) : e.Grows e' := by
  have classes : e'.classes.size = e.classes.size := by
    simpa [skeleton] using congrArg (fun e => e.classes.size) same
  have types : e'.types.size = e.types.size := by
    simpa [skeleton] using congrArg (fun e => e.types.size) same
  have scopes : e'.scopes.size = e.scopes.size := by
    simpa [skeleton] using congrArg (fun e => e.scopes.size) same
  have registries : e'.registries = e.registries := by
    have held : e'.skeleton.registries = e.skeleton.registries := by rw [same]
    exact held
  refine ⟨Nat.le_of_eq classes.symm, fun c _ => classAt_of_skeleton_eq same c,
    Nat.le_of_eq types.symm, fun t _ => ?_, Nat.le_of_eq scopes.symm, fun s _ => ?_,
    Nat.le_of_eq (by rw [registries]), fun r _ => by rw [registries]⟩
  · have at_ := typeAt_of_skeleton_eq same t
    have field {α : Type} (get : ManagedType → α) :
        get (e'.typeAt t).skeleton = get (e.typeAt t).skeleton := congrArg get at_
    exact ⟨field (·.id), field (·.name), field (·.scope), field (·.first), field (·.native),
      (field (·.versions)) ▸ List.prefix_refl _, (field (·.slots.slots)) ▸ List.prefix_refl _⟩
  · have at_ := scopeAt_of_skeleton_eq same s
    have field {α : Type} (get : Scope → α) :
        get (e'.scopeAt s).skeleton = get (e.scopeAt s).skeleton := congrArg get at_
    have classes : (e'.scopeAt s).classes = (e.scopeAt s).classes := field (·.classes)
    have types : (e'.scopeAt s).types = (e.scopeAt s).types := field (·.types)
    exact ⟨field (·.options), field (·.registry), fun _ _ h => classes ▸ h,
      fun _ _ h => types ▸ h, Nat.le_of_eq (field (·.epoch)).symm⟩

/-- The scopes of an engine in which one scope was changed. -/
theorem scopeAt_updateScope (e : Engine) (s : ScopeRef) (f : Scope → Scope) (s' : ScopeRef) :
    (e.updateScope s f).scopeAt s' =
      if s = s' ∧ s' < e.scopes.size then f (e.scopeAt s') else e.scopeAt s' := by
  by_cases lt : s' < e.scopes.size
  · have inside : (e.updateScope s f).scopeAt s' =
        if s = s' then f (e.scopeAt s') else e.scopeAt s' := getD_modify _ _ _ _ _ lt
    simp only [inside, lt, and_true]
  · have outside : (e.scopes.modify s f).getD s' default = e.scopes.getD s' default := by
      simp [Array.getD_eq_getD_getElem?, lt]
    rw [if_neg (fun hit => lt hit.2)]
    exact outside

/-- What a scope knows is not touched by a change of something else in it. -/
theorem class?_updateScope (e : Engine) (s : ScopeRef) (f : Scope → Scope)
    (h : ∀ scope, (f scope).classes = scope.classes) (s' : ScopeRef) (name : String) :
    (e.updateScope s f).class? s' name = e.class? s' name := by
  unfold class?
  rw [scopeAt_updateScope]
  split
  · rw [h]
  · rfl

theorem typeWithId?_updateScope (e : Engine) (s : ScopeRef) (f : Scope → Scope)
    (h : ∀ scope, (f scope).types = scope.types) (s' : ScopeRef) (id : TypeId) :
    (e.updateScope s f).typeWithId? s' id = e.typeWithId? s' id := by
  unfold typeWithId?
  rw [scopeAt_updateScope]
  split
  · rw [h]
  · rfl

theorem grows_updateScope {s : ScopeRef} {f : Scope → Scope}
    (h : (f (e.scopeAt s)).Continues (e.scopeAt s)) : e.Grows (e.updateScope s f) :=
  { Grows.refl e with
    scopes := by simp [updateScope]
    scopeAt := by
      intro s' lt
      have at_ : (e.updateScope s f).scopeAt s' =
          if s = s' then f (e.scopeAt s') else e.scopeAt s' := getD_modify _ _ _ _ _ lt
      rw [at_]
      split
      next hit => exact hit ▸ h
      next => exact .refl _ }

theorem grows_updateType {t : TypeRef} {f : ManagedType → ManagedType}
    (h : (f (e.typeAt t)).Continues (e.typeAt t)) : e.Grows (e.updateType t f) :=
  { Grows.refl e with
    types := by simp [updateType]
    typeAt := by
      intro t' lt
      have at_ : (e.updateType t f).typeAt t' =
          if t = t' then f (e.typeAt t') else e.typeAt t' := getD_modify _ _ _ _ _ lt
      rw [at_]
      split
      next hit => exact hit ▸ h
      next => exact .refl _ }

theorem grows_pushClass (cls : Class) : e.Grows { e with classes := e.classes.push cls } :=
  { Grows.refl e with
    classes := by simp
    classAt := fun c lt => by rw [classAt_push_of_lt cls lt] }

theorem grows_pushType (type : ManagedType) : e.Grows { e with types := e.types.push type } :=
  { Grows.refl e with
    types := by simp
    typeAt := by
      intro t lt
      have at_ : ({ e with types := e.types.push type } : Engine).typeAt t = e.typeAt t :=
        getD_push_of_lt _ _ _ _ lt
      rw [at_]
      exact .refl _ }

/-- A class with a new name makes the scope know one class more. -/
theorem grows_addClass {s : ScopeRef} {cls : Class} (free : e.class? s cls.name = none) :
    e.Grows (e.addClass s cls) := by
  refine (grows_pushClass cls).trans (grows_updateScope ?_)
  refine ⟨rfl, rfl, fun name c known => ?_, fun _ _ h => h, Nat.le_refl _⟩
  have other : cls.name ≠ name := by
    rintro rfl
    have known : e.class? s cls.name = some c := known
    rw [free] at known
    cases known
  rw [Table.get?_put_of_ne _ _ other]
  exact known

/-- A managed type with a new number makes the scope know one type more. -/
theorem grows_addType {s : ScopeRef} {type : ManagedType}
    (free : e.typeWithId? s type.id = none) : e.Grows (e.addType s type) := by
  refine (grows_pushType type).trans (grows_updateScope ?_)
  refine ⟨rfl, rfl, fun _ _ h => h, fun id t known => ?_, Nat.le_refl _⟩
  have other : type.id ≠ id := by
    rintro rfl
    have known : e.typeWithId? s type.id = some t := known
    rw [free] at known
    cases known
  rw [Table.get?_put_of_ne _ _ other]
  exact known

/-- A table of names that is written over with one that continues it. -/
theorem grows_setNames {s : ScopeRef} {names : NameTable}
    (extends_ : names.Extends (e.namesOf s)) : e.Grows (e.setNames s names) :=
  { Grows.refl e with
    registries := by simp [setNames]
    names := by
      intro r lt
      show ((e.registries.setIfInBounds (e.scopeAt s).registry names).getD r default).Extends
        (e.registries.getD r default)
      rw [getD_setIfInBounds _ _ _ _ _ lt]
      by_cases hit : (e.scopeAt s).registry = r
      · subst hit
        rw [if_pos rfl]
        exact extends_
      · rw [if_neg hit] }

/-- The slots and the identity of a managed type survive a publication. -/
theorem publish_continues (t : ManagedType) (v : LiveVersion) : (t.publish v).Continues t :=
  ⟨rfl, rfl, rfl, rfl, rfl, List.prefix_append _ _, List.prefix_refl _⟩

/-- An edit takes nothing back. -/
theorem Edit.grows (edit : e.Edit e') : e.Grows e' := by
  cases edit with
  | run same lawful => exact grows_of_skeleton_eq same
  | openScope options filter registry usable known =>
    exact { Grows.refl e with
      scopes := by simp
      scopeAt := fun s lt => by
        have at_ : ({ e with scopes := e.scopes.push (.empty options filter registry) } :
          Engine).scopeAt s = e.scopeAt s := getD_push_of_lt _ _ _ _ lt
        rw [at_]
        exact .refl _ }
  | addRegistry =>
    exact { Grows.refl e with
      registries := by simp
      names := fun r lt => by
        rw [getD_push_of_lt _ _ _ _ lt] }
  | number s name => exact grows_setNames (NameTable.idFor_extends _ _)
  | countClass s =>
    exact grows_updateScope ⟨rfl, rfl, fun _ _ h => h, fun _ _ h => h, Nat.le_refl _⟩
  | addClass s spec cls admits origin => exact grows_addClass admits.free_name
  | manage s type form parent interfaces cls manages hosted admits =>
    have typed : e.Grows (e.addType s type) := grows_addType manages.free
    refine typed.trans (grows_addClass ?_)
    have unknown : (e.addType s type).class? s cls.name = e.class? s cls.name := by
      refine class?_updateScope { e with types := e.types.push type } s _ ?_ s cls.name
      intro scope
      rfl
    rw [unknown]
    exact admits.free_name
  | abandon type unhosted unexecuted => exact grows_pushType type
  | countArtifact t next | refuse t | remember t found =>
    exact grows_updateType ⟨rfl, rfl, rfl, rfl, rfl, List.prefix_refl _, List.prefix_refl _⟩
  | addSlots t keys =>
    exact grows_updateType
      ⟨rfl, rfl, rfl, rfl, rfl, List.prefix_refl _, SlotTable.prefix_assignAll _ _ _⟩
  | publish t v offers =>
    refine (grows_updateType (publish_continues _ v)).trans (grows_updateScope ?_)
    exact ⟨rfl, rfl, fun _ _ h => h, fun _ _ h => h, Nat.le_succ _⟩
  | observe s observer | close s =>
    exact grows_updateScope ⟨rfl, rfl, fun _ _ h => h, fun _ _ h => h, Nat.le_refl _⟩
  | setDepth | trace => exact { Grows.refl e with classes := Nat.le_refl _ }

/-- What an engine speaks of exists: the tables of names that scopes use, the classes that
they know, the parents of classes, and the hosts and scopes of managed types. -/
structure Grounded (e : Engine) : Prop where
  registry : ∀ s < e.scopes.size, (e.scopeAt s).registry < e.registries.size
  class_lt : ∀ s name c, e.class? s name = some c → c < e.classes.size
  parent_lt : ∀ c < e.classes.size, ∀ p, (e.classAt c).parent = some p → p < c
  hosted : ∀ t < e.types.size, ∀ c, (e.typeAt t).native = some c →
    c < e.classes.size ∧ (e.typeAt t).scope < e.scopes.size

/-- A class that was there before has the parent that it had. -/
theorem Grows.parent (grows : e.Grows e') {c : ClassRef} (lt : c < e.classes.size) :
    (e'.classAt c).parent = (e.classAt c).parent := by
  have parent : (e'.classAt c).skeleton.parent = (e.classAt c).skeleton.parent := by
    rw [grows.classAt c lt]
  exact parent

/-- The methods that virtual calls select in the parent of a class stay the same. -/
theorem Grows.inheritedVtable (grows : e.Grows e') (parent_lt : ∀ c < e.classes.size, ∀ p,
    (e.classAt c).parent = some p → p < c) {c : ClassRef} (lt : c < e.classes.size) :
    e'.inheritedVtable c = e.inheritedVtable c := by
  unfold Engine.inheritedVtable
  rw [grows.parent lt]
  cases parent : (e.classAt c).parent with
  | none => rfl
  | some p =>
    have p_lt := Nat.lt_trans (parent_lt c lt p parent) lt
    have same : (e'.classAt p).skeleton.vtable = (e.classAt p).skeleton.vtable := by
      rw [grows.classAt p p_lt]
    exact same

/-- The names that a scope has given stay given. -/
theorem Grows.namesOf (grows : e.Grows e') (grounded : e.Grounded) {s : ScopeRef}
    (lt : s < e.scopes.size) : (e'.namesOf s).Extends (e.namesOf s) := by
  unfold Engine.namesOf
  rw [(grows.scopeAt s lt).registry]
  exact grows.names _ (grounded.registry s lt)

/-- An engine with the same places in it is grounded like the one before. -/
theorem Grounded.of_same (grounded : e.Grounded) (grows : e.Grows e')
    (classes : e'.classes.size = e.classes.size) (types : e'.types.size = e.types.size)
    (scopes : e'.scopes.size = e.scopes.size)
    (class?_eq : ∀ s name, e'.class? s name = e.class? s name) : e'.Grounded where
  registry s lt := by
    rw [scopes] at lt
    rw [(grows.scopeAt s lt).registry]
    exact Nat.lt_of_lt_of_le (grounded.registry s lt) grows.registries
  class_lt s name c known := by
    rw [class?_eq] at known
    exact Nat.lt_of_lt_of_le (grounded.class_lt s name c known) grows.classes
  parent_lt c lt p parent := by
    rw [classes] at lt
    rw [grows.parent lt] at parent
    exact grounded.parent_lt c lt p parent
  hosted t lt c native := by
    rw [types] at lt
    rw [(grows.typeAt t lt).native] at native
    rw [(grows.typeAt t lt).scope, classes, scopes]
    exact grounded.hosted t lt c native

theorem class?_of_skeleton_eq (same : e'.skeleton = e.skeleton) (s : ScopeRef) (name : String) :
    e'.class? s name = e.class? s name := by
  have scope := scopeAt_of_skeleton_eq same s
  have classes : (e'.scopeAt s).skeleton.classes = (e.scopeAt s).skeleton.classes := by
    rw [scope]
  exact congrArg (fun t : Table String ClassRef => t.get? name) classes

/-- What a scope knows after a class was added: that class under its name, and the rest as
before. -/
theorem class?_addClass (e : Engine) (s : ScopeRef) (cls : Class) (s' : ScopeRef)
    (name : String) :
    (e.addClass s cls).class? s' name =
      if s = s' ∧ s' < e.scopes.size ∧ cls.name = name then some e.classes.size
      else e.class? s' name := by
  have scope : (e.addClass s cls).scopeAt s' = if s = s' ∧ s' < e.scopes.size then
      { e.scopeAt s' with classes := (e.scopeAt s').classes.put cls.name e.classes.size }
      else e.scopeAt s' :=
    scopeAt_updateScope { e with classes := e.classes.push cls } s _ s'
  unfold class?
  rw [scope]
  by_cases here : s = s' ∧ s' < e.scopes.size
  · rw [if_pos here, Table.get?_put]
    by_cases named : cls.name = name
    · rw [if_pos named, if_pos ⟨here.1, here.2, named⟩]
    · rw [if_neg named, if_neg fun h => named h.2.2]
  · rw [if_neg here, if_neg fun h => here ⟨h.1, h.2.1⟩]

/-- A class that was just defined is known by its name. -/
theorem class?_countClass_addClass (e : Engine) {s : ScopeRef} (cls : Class)
    (scope_lt : s < e.scopes.size) :
    ((e.addClass s cls).countClass s).class? s cls.name = some e.classes.size := by
  refine (class?_updateScope _ s _ ?_ s _).trans ?_
  · intro scope
    rfl
  · rw [class?_addClass, if_pos ⟨rfl, scope_lt, rfl⟩]

theorem size_addClass (e : Engine) (s : ScopeRef) (cls : Class) :
    (e.addClass s cls).classes.size = e.classes.size + 1 := by
  simp [addClass, updateScope]

theorem scopes_size_addClass (e : Engine) (s : ScopeRef) (cls : Class) :
    (e.addClass s cls).scopes.size = e.scopes.size := by
  simp [addClass, updateScope]

/-- The classes after one was added. -/
theorem classAt_addClass (e : Engine) (s : ScopeRef) (cls : Class) (c : ClassRef) :
    (e.addClass s cls).classAt c = if c = e.classes.size then cls else e.classAt c :=
  getD_push _ _ _ _

theorem Grounded.addClass (grounded : e.Grounded) {s : ScopeRef} {cls : Class}
    (free : e.class? s cls.name = none)
    (parent_lt : ∀ p, cls.parent = some p → p < e.classes.size) :
    (e.addClass s cls).Grounded where
  registry s' lt := by
    rw [scopes_size_addClass] at lt
    rw [((grows_addClass free).scopeAt s' lt).registry]
    exact grounded.registry s' lt
  class_lt s' name c known := by
    rw [class?_addClass] at known
    rw [size_addClass]
    split at known
    · cases known
      exact Nat.lt_succ_self _
    · exact Nat.lt_succ_of_lt (grounded.class_lt s' name c known)
  parent_lt c lt p parent := by
    rw [size_addClass] at lt
    rw [classAt_addClass] at parent
    split at parent
    next last =>
      subst last
      exact parent_lt p parent
    next old =>
      exact grounded.parent_lt c (Nat.lt_of_le_of_ne (Nat.le_of_lt_succ lt) old) p parent
  hosted t lt c native := by
    rw [size_addClass, scopes_size_addClass]
    have held := grounded.hosted t lt c native
    exact ⟨Nat.lt_succ_of_lt held.1, held.2⟩

theorem class?_addType (e : Engine) (s : ScopeRef) (type : ManagedType) (s' : ScopeRef)
    (name : String) : (e.addType s type).class? s' name = e.class? s' name := by
  refine class?_updateScope { e with types := e.types.push type } s _ ?_ s' name
  intro scope
  rfl

/-- The parent of an admitted class is the one of its specification. -/
theorem Admits.parent_eq {s : ScopeRef} {spec : ClassSpec} {cls : Class}
    (admits : e.Admits s spec cls) : cls.parent = spec.parent := by
  obtain ⟨id, rfl⟩ := admits.eq
  rfl

theorem Admits.cls_parent_lt {s : ScopeRef} {spec : ClassSpec} {cls : Class}
    (admits : e.Admits s spec cls) (p : ClassRef) (parent : cls.parent = some p) :
    p < e.classes.size := by
  rw [admits.parent_eq] at parent
  exact admits.parent_lt p parent

/-- The managed types after one of them was changed. -/
theorem typeAt_updateType (e : Engine) (t : TypeRef) (f : ManagedType → ManagedType)
    {t' : TypeRef} (lt : t' < e.types.size) :
    (e.updateType t f).typeAt t' = if t = t' then f (e.typeAt t') else e.typeAt t' :=
  getD_modify _ _ _ _ _ lt

/-- The managed type that was changed. -/
theorem typeAt_updateType_self (e : Engine) {t : TypeRef} (f : ManagedType → ManagedType)
    (lt : t < e.types.size) : (e.updateType t f).typeAt t = f (e.typeAt t) := by
  rw [e.typeAt_updateType t f lt, if_pos rfl]

/-- The managed type that a version was published for. -/
theorem typeAt_publish (e : Engine) {t : TypeRef} (v : LiveVersion) (lt : t < e.types.size) :
    (e.publish t v).typeAt t = (e.typeAt t).publish v :=
  e.typeAt_updateType_self _ lt

/-- The version that was published is in force. -/
theorem live_publish (e : Engine) {t : TypeRef} (v : LiveVersion) (lt : t < e.types.size) :
    ((e.publish t v).typeAt t).live = v := by
  rw [e.typeAt_publish v lt]
  rfl

/-- The managed types after one was pushed. -/
theorem typeAt_push (e : Engine) (type : ManagedType) (t : TypeRef) :
    ({ e with types := e.types.push type } : Engine).typeAt t =
      if t = e.types.size then type else e.typeAt t :=
  getD_push _ _ _ _

/-- Edits leave nothing without ground. -/
theorem Edit.grounded (edit : e.Edit e') (grounded : e.Grounded) : e'.Grounded := by
  have grows := edit.grows
  cases edit with
  | run same lawful =>
    have sizes : e'.skeleton.classes.size = e.skeleton.classes.size ∧
        e'.skeleton.types.size = e.skeleton.types.size ∧
        e'.skeleton.scopes.size = e.skeleton.scopes.size := by
      rw [same]
      exact ⟨rfl, rfl, rfl⟩
    simp only [skeleton, Array.size_map] at sizes
    exact grounded.of_same grows sizes.1 sizes.2.1 sizes.2.2 (class?_of_skeleton_eq same)
  | openScope options filter registry usable known =>
    have scope (s : ScopeRef) : ({ e with
        scopes := e.scopes.push (.empty options filter registry) } : Engine).scopeAt s =
          if s = e.scopes.size then .empty options filter registry else e.scopeAt s :=
      getD_push _ _ _ _
    refine ⟨fun s lt => ?_, fun s name c found => ?_, grounded.parent_lt, fun t lt c native => ?_⟩
    · rw [scope]
      by_cases last : s = e.scopes.size
      · rw [if_pos last]
        exact known
      · rw [if_neg last]
        have lt : s < e.scopes.size + 1 := by simpa using lt
        exact grounded.registry s (by omega)
    · unfold class? at found
      rw [scope] at found
      by_cases last : s = e.scopes.size
      · rw [if_pos last] at found
        cases found
      · rw [if_neg last] at found
        exact grounded.class_lt s name c found
    · have held := grounded.hosted t lt c native
      refine ⟨held.1, ?_⟩
      rw [Array.size_push]
      exact Nat.lt_succ_of_lt held.2
  | setDepth | addRegistry | number s name | trace callback =>
    exact grounded.of_same grows rfl rfl rfl fun _ _ => rfl
  | countClass s =>
    exact grounded.of_same grows rfl rfl (by simp [Engine.countClass, updateScope])
      (class?_updateScope e s _ fun _ => rfl)
  | addClass s spec cls admits origin =>
    exact grounded.addClass admits.free_name admits.cls_parent_lt
  | manage s type form parent interfaces cls manages hosted admits =>
    have typed : e.Grows (e.addType s type) := grows_addType manages.free
    have free := (class?_addType e s type s cls.name).trans admits.free_name
    refine ⟨fun s' lt => ?_, fun s' name c known => ?_, fun c lt p parent => ?_,
      fun t lt c native => ?_⟩
    · have lt : s' < e.scopes.size := by
        simpa [Engine.addClass, Engine.addType, updateScope] using lt
      rw [(grows.scopeAt s' lt).registry]
      exact grounded.registry s' lt
    · rw [class?_addClass, class?_addType] at known
      rw [size_addClass]
      split at known
      · cases known
        exact Nat.lt_succ_self _
      · exact Nat.lt_succ_of_lt (grounded.class_lt s' name c known)
    · rw [size_addClass] at lt
      rw [classAt_addClass] at parent
      split at parent
      next last =>
        subst last
        exact admits.cls_parent_lt p parent
      next old =>
        exact grounded.parent_lt c (Nat.lt_of_le_of_ne (Nat.le_of_lt_succ lt) old) p parent
    · have sizes : ((e.addType s type).addClass s cls).types.size = e.types.size + 1 := by
        simp [Engine.addClass, Engine.addType, updateScope]
      have at_ : ((e.addType s type).addClass s cls).typeAt t =
          if t = e.types.size then type else e.typeAt t := getD_push _ _ _ _
      rw [sizes] at lt
      rw [at_] at native ⊢
      rw [size_addClass, scopes_size_addClass]
      have scopes : (e.addType s type).scopes.size = e.scopes.size := by
        simp [Engine.addType, updateScope]
      rw [scopes]
      split at native
      next last =>
        rw [if_pos last]
        rw [hosted] at native
        cases native
        have home : type.scope = s := by rw [manages.defines]; rfl
        exact ⟨Nat.lt_succ_self _, home ▸ admits.scope_lt⟩
      next old =>
        rw [if_neg old]
        have held := grounded.hosted t (Nat.lt_of_le_of_ne (Nat.le_of_lt_succ lt) old) c native
        exact ⟨Nat.lt_succ_of_lt held.1, held.2⟩
  | abandon type unhosted unexecuted =>
    refine ⟨grounded.registry, grounded.class_lt, grounded.parent_lt, fun t lt c native => ?_⟩
    rw [typeAt_push] at native ⊢
    split at native
    · rw [unhosted] at native
      cases native
    next old =>
      rw [if_neg old]
      have lt : t < e.types.size + 1 := by simpa using lt
      exact grounded.hosted t (Nat.lt_of_le_of_ne (Nat.le_of_lt_succ lt) old) c native
  | countArtifact t next | refuse t | remember t found | addSlots t keys =>
    exact grounded.of_same grows rfl (by simp [updateType]) rfl fun _ _ => rfl
  | publish t v offers =>
    exact grounded.of_same grows rfl (by simp [Engine.publish, updateScope, updateType])
      (by simp [Engine.publish, updateScope, updateType]) (class?_updateScope _ _ _ fun _ => rfl)
  | observe s observer | close s =>
    exact grounded.of_same grows rfl rfl (by simp [updateScope])
      (class?_updateScope e s _ fun _ => rfl)

theorem Edits.grows (edits : e.Edits e') : e.Grows e' := by
  induction edits with
  | refl => exact .refl e
  | tail _ edit ih => exact ih.trans edit.grows

theorem Edits.grounded (edits : e.Edits e') (grounded : e.Grounded) : e'.Grounded := by
  induction edits with
  | refl => exact grounded
  | tail _ edit ih => exact edit.grounded ih

/-- A class comes out of the skeletons of its parent and its interfaces. -/
theorem fresh_skeletons (c : ClassRef) (id : Nat) (spec : ClassSpec) (parent : Option Class)
    (interfaces : List Class) :
    Class.fresh c id spec (parent.map Class.skeleton) (interfaces.map Class.skeleton) =
      Class.fresh c id spec parent interfaces := by
  have interfaceViews {α : Type} (get : Class → α) (h : ∀ cls, get cls.skeleton = get cls) :
      (interfaces.map Class.skeleton).map get = interfaces.map get := by
    rw [List.map_map]
    exact List.map_congr_left fun cls _ => h cls
  have orders := interfaceViews Class.methodOrder fun _ => rfl
  have fields := interfaceViews Class.fieldOrder fun _ => rfl
  have names := interfaceViews Class.typeNames fun _ => rfl
  unfold Class.fresh
  cases parent with
  | none =>
    simp only [Option.map_none, Option.toList_none, List.nil_append, List.append_nil, orders,
      fields, names]
  | some parent =>
    simp only [Option.map_some, Option.toList_some, List.map_append, List.map_cons, List.map_nil,
      orders, fields, names]
    rfl

/-- What a specification describes it describes for good. -/
theorem Describes.of_grows {c : ClassRef} {spec : ClassSpec} (described : e.Describes c spec)
    (grows : e.Grows e') : e'.Describes c spec := by
  have same (c' : ClassRef) (lt : c' < c) :
      (e'.classAt c').skeleton = (e.classAt c').skeleton :=
    grows.classAt c' (Nat.lt_trans lt described.lt)
  refine ⟨Nat.lt_of_lt_of_le described.lt grows.classes, described.parent_lt,
    described.interface_lt, ?_⟩
  obtain ⟨id, eq⟩ := described.fresh
  refine ⟨id, ?_⟩
  have parents : (spec.parent.map e'.classAt).map Class.skeleton =
      (spec.parent.map e.classAt).map Class.skeleton := by
    cases parent : spec.parent with
    | none => rfl
    | some p => simp only [Option.map_some, same p (described.parent_lt p parent)]
  have interfaces : (spec.interfaces.map e'.classAt).map Class.skeleton =
      (spec.interfaces.map e.classAt).map Class.skeleton := by
    rw [List.map_map, List.map_map]
    exact List.map_congr_left fun i mem => same i (described.interface_lt i mem)
  rw [grows.classAt c described.lt, eq, ← fresh_skeletons, ← parents, ← interfaces,
    fresh_skeletons]

/-- What describes a class can be said of every engine with the same classes. -/
theorem Describes.of_classes_eq {c : ClassRef} {spec : ClassSpec}
    (described : e.Describes c spec) (same : e'.classes = e.classes) : e'.Describes c spec := by
  have at_ : e'.classAt = e.classAt := by
    unfold Engine.classAt
    rw [same]
  refine ⟨same ▸ described.lt, described.parent_lt, described.interface_lt, ?_⟩
  rw [at_]
  exact described.fresh

/-- A class that was defined is described once it is there. -/
theorem describes_pushClass {spec : ClassSpec} {id : Nat} {cls : Class}
    (parent_lt : ∀ p ∈ spec.parent, p < e.classes.size)
    (interface_lt : ∀ i ∈ spec.interfaces, i < e.classes.size)
    (defined : Class.define e.classes.size id spec (spec.parent.map e.classAt)
      (spec.interfaces.map e.classAt) = .ok cls) :
    ({ e with classes := e.classes.push cls } : Engine).Describes e.classes.size spec := by
  let e' : Engine := { e with classes := e.classes.push cls }
  have at_ (c : ClassRef) : e'.classAt c = if c = e.classes.size then cls else e.classAt c :=
    getD_push _ _ _ _
  refine ⟨by simp, parent_lt, interface_lt, id, ?_⟩
  have same (c : ClassRef) (lt : c < e.classes.size) : e'.classAt c = e.classAt c := by
    rw [at_, if_neg (Nat.ne_of_lt lt)]
  have parents : spec.parent.map e'.classAt = spec.parent.map e.classAt := by
    cases parent : spec.parent with
    | none => rfl
    | some p => simp only [Option.map_some, same p (parent_lt p parent)]
  have interfaces : spec.interfaces.map e'.classAt = spec.interfaces.map e.classAt :=
    List.map_congr_left fun i mem => same i (interface_lt i mem)
  show (e'.classAt _).skeleton = (Class.fresh _ id spec (spec.parent.map e'.classAt)
    (spec.interfaces.map e'.classAt)).skeleton
  rw [at_, if_pos rfl, parents, interfaces, (Class.define_eq_ok defined).1]

/-- An admitted class is described once it is added. -/
theorem Admits.describes {s : ScopeRef} {spec : ClassSpec} {cls : Class}
    (admits : e.Admits s spec cls) : (e.addClass s cls).Describes e.classes.size spec := by
  obtain ⟨id, defined⟩ := admits.defined
  exact (describes_pushClass admits.parent_lt admits.interface_lt defined).of_classes_eq rfl

theorem Grows.optionsOf (grows : e.Grows e') (grounded : e.Grounded) {t : TypeRef}
    (type_lt : t < e.types.size) {native : ClassRef} (hosted : (e.typeAt t).native = some native) :
    e'.optionsOf t = e.optionsOf t := by
  unfold Engine.optionsOf
  rw [(grows.typeAt t type_lt).scope]
  exact (grows.scopeAt _ (grounded.hosted t type_lt native hosted).2).options

/-- Classes that were generated for a version were generated for it for good. -/
theorem Compiles.of_grows {t : TypeRef} {u : TypeUnit} {shape : TypeShape}
    {artifacts : Artifacts} (compiles : e.Compiles t u shape artifacts) (grows : e.Grows e')
    (grounded : e.Grounded) (type_lt : t < e.types.size) : e'.Compiles t u shape artifacts := by
  obtain ⟨⟨native, names, number, hosted, had, named, described⟩, number', described'⟩ := compiles
  have home := grounded.hosted t type_lt native hosted
  have kept := grows.typeAt t type_lt
  have options := grows.optionsOf grounded type_lt hosted
  have context : e'.executorContext t native shape = e.executorContext t native shape := by
    unfold executorContext
    rw [kept.name, kept.id, grows.classAt native home.1]
  refine ⟨⟨native, names, number, ?_, ?_, ?_, ?_⟩, number', ?_⟩
  · rw [kept.native]
    exact hosted
  · rw [kept.scope]
    exact (grows.namesOf grounded home.2).trans had
  · rw [context, options]
    exact named
  · rw [context, options]
    exact described.of_grows grows
  · rw [kept.name]
    exact described'.of_grows grows

end Engine

end LiveUpdate
