import LiveUpdate.Proofs.History

/-!
# Scopes, classes and hosts

A scope knows its classes by their names and its managed types by their numbers.  Every
class of a scope was defined from a specification whose parents are classes of the scope,
and the host class of a managed type is defined from the host form of its first unit.
-/

set_option autoImplicit false

namespace LiveUpdate

/-- A host form depends on what the parent class declares only. -/
theorem HostForm.ofUnit_skeleton (u : TypeUnit) (id : TypeId) (parent : Option Class) :
    ofUnit u id (parent.map Class.skeleton) = ofUnit u id parent := by
  cases parent <;> rfl

namespace Engine

variable {e e' : Engine} {s : ScopeRef} {t : TypeRef} {c : ClassRef}

/-- The form that a managed type is hosted in, below a parent class, when the owners that
its guards name have these numbers. -/
def hostForm (e : Engine) (t : TypeRef) (names : NameTable) (parent : Option ClassRef) :
    HostForm :=
  .ofUnit ((e.typeAt t).first.unit.withGuards (e.optionsOf t) names) (e.typeAt t).id
    (parent.map fun p => (e.classAt p).skeleton)

/-- A class is one that a scope knows. -/
def Homes (e : Engine) (s : ScopeRef) (c : ClassRef) : Prop := ∃ name, e.class? s name = some c

/-- A class is the host class of a managed type. -/
structure Hosted (e : Engine) (t : TypeRef) (c : ClassRef) : Prop where
  type_lt : t < e.types.size
  native : (e.typeAt t).native = some c
  registered : e.typeWithId? (e.typeAt t).scope (e.typeAt t).id = some t
  known : e.class? (e.typeAt t).scope (e.typeAt t).name = some c
  numbered : (e.namesOf (e.typeAt t).scope).lookup (e.typeAt t).name = some (e.typeAt t).id
  form : ∃ names parent interfaces, e.HadNames (e.typeAt t).scope names ∧
    (∀ m ∈ (e.typeAt t).first.unit.methods, NamesOwners (e.optionsOf t) names m.code) ∧
    e.Links (e.typeAt t).scope (e.typeAt t).first.unit parent interfaces ∧
    e.Describes c ((e.hostForm t names parent).spec (e.typeAt t).id parent interfaces) ∧
    (e.hostForm t names parent).slots.slots <+: (e.typeAt t).slots.slots

/-- A class of a scope is what it was defined from: it has the name that the scope knows it
by, its parents are in the scope, and if it is a host class it is that of a type of the
scope. -/
def Defined (e : Engine) (s : ScopeRef) (name : String) (c : ClassRef) : Prop :=
  ∃ spec, e.Describes c spec ∧ spec.unit.name = name ∧ (∀ p ∈ spec.parent, e.Homes s p) ∧
    ∀ id ∈ spec.managed, ∃ t, e.typeWithId? s id = some t ∧ (e.typeAt t).native = some c

/-- What the tables of scopes say is so. -/
structure Housed (e : Engine) : Prop where
  types : ∀ s id t, e.typeWithId? s id = some t → e.IsManaged t ∧ (e.typeAt t).scope = s ∧
    (e.typeAt t).id = id
  classes : ∀ s name c, e.class? s name = some c → e.Defined s name c
  hosts : ∀ t, e.IsManaged t → ∃ c, e.Hosted t c

theorem Grows.class? (grows : e.Grows e') (lt : s < e.scopes.size) {name : String}
    (known : e.class? s name = some c) : e'.class? s name = some c :=
  (grows.scopeAt s lt).classes name c known

theorem Grows.typeWithId? (grows : e.Grows e') (lt : s < e.scopes.size) {id : TypeId}
    (known : e.typeWithId? s id = some t) : e'.typeWithId? s id = some t :=
  (grows.scopeAt s lt).types id t known

/-- Only scopes that were opened know anything. -/
theorem scope_lt_of_class? {name : String} (known : e.class? s name = some c) :
    s < e.scopes.size := by
  refine Nat.lt_of_not_le fun beyond => ?_
  have empty : e.scopeAt s = default := getD_of_le _ _ beyond
  unfold Engine.class? at known
  rw [empty] at known
  cases known

theorem Homes.of_grows (homes : e.Homes s c) (grows : e.Grows e') : e'.Homes s c := by
  obtain ⟨name, known⟩ := homes
  exact ⟨name, grows.class? (scope_lt_of_class? known) known⟩

theorem Links.of_grows {u : TypeUnit} {parent : Option ClassRef} {interfaces : List ClassRef}
    (links : e.Links s u parent interfaces) (grows : e.Grows e') :
    e'.Links s u parent interfaces := by
  have kept {name : String} {c : ClassRef} (known : e.class? s name = some c) :
      e'.class? s name = some c := grows.class? (scope_lt_of_class? known) known
  refine ⟨?_, ?_⟩
  · have superclass := links.superclass
    cases name : u.superName with
    | none =>
      rw [name] at superclass
      exact superclass
    | some name' =>
      rw [name] at superclass
      cases some_p : parent with
      | none =>
        rw [some_p] at superclass
        cases superclass
      | some p =>
        rw [some_p] at superclass
        exact congrArg some (kept (Option.some.inj superclass))
  · have all := links.interfaces
    apply List.ext_getElem?
    intro i
    have at_ := congrArg (·[i]?) all
    simp only [List.getElem?_map] at at_ ⊢
    cases name : u.interfaces[i]? with
    | none =>
      rw [name] at at_
      exact at_
    | some name' =>
      rw [name] at at_
      cases some_i : interfaces[i]? with
      | none =>
        rw [some_i] at at_
        cases at_
      | some p =>
        rw [some_i] at at_
        exact congrArg some (kept (Option.some.inj at_))

/-- A host form stays the one of its type. -/
theorem Grows.hostForm (grows : e.Grows e') (grounded : e.Grounded) (type_lt : t < e.types.size)
    {native : ClassRef} (hosted : (e.typeAt t).native = some native) (names : NameTable)
    {parent : Option ClassRef} (parent_lt : ∀ p ∈ parent, p < e.classes.size) :
    e'.hostForm t names parent = e.hostForm t names parent := by
  have kept := grows.typeAt t type_lt
  unfold Engine.hostForm
  rw [kept.first, kept.id, grows.optionsOf grounded type_lt hosted]
  cases some_p : parent with
  | none => rfl
  | some p =>
    simp only [Option.map_some]
    rw [grows.classAt p (parent_lt p some_p)]

theorem Hosted.of_grows (hosted : e.Hosted t c) (grows : e.Grows e') (grounded : e.Grounded) :
    e'.Hosted t c := by
  have kept := grows.typeAt t hosted.type_lt
  have home := grounded.hosted t hosted.type_lt c hosted.native
  obtain ⟨names, parent, interfaces, had, named, links, described, slots⟩ := hosted.form
  have parent_lt : ∀ p ∈ parent, p < e.classes.size := fun p mem =>
    Nat.lt_trans (described.parent_lt p mem) described.lt
  have form := grows.hostForm grounded hosted.type_lt hosted.native names parent_lt
  have options := grows.optionsOf grounded hosted.type_lt hosted.native
  refine ⟨Nat.lt_of_lt_of_le hosted.type_lt grows.types, ?_, ?_, ?_, ?_, names, parent, interfaces,
    ?_, ?_, ?_, ?_, ?_⟩
  · rw [kept.native]
    exact hosted.native
  · rw [kept.scope, kept.id]
    exact grows.typeWithId? home.2 hosted.registered
  · rw [kept.scope, kept.name]
    exact grows.class? home.2 hosted.known
  · rw [kept.scope, kept.name, kept.id]
    exact NameTable.lookup_of_extends (grows.namesOf grounded home.2) hosted.numbered
  · rw [kept.scope]
    exact (grows.namesOf grounded home.2).trans had
  · rw [kept.first, options]
    exact named
  · rw [kept.scope, kept.first]
    exact links.of_grows grows
  · rw [form, kept.id]
    exact described.of_grows grows
  · rw [form]
    exact slots.trans kept.slots

/-- A class keeps what it was defined from. -/
theorem Defined.of_grows {name : String} (defined : e.Defined s name c) (grows : e.Grows e')
    (housed : e.Housed) (scope_lt : s < e.scopes.size) : e'.Defined s name c := by
  obtain ⟨spec, described, named, parents, managed⟩ := defined
  refine ⟨spec, described.of_grows grows, named, fun p mem => (parents p mem).of_grows grows,
    fun id mem => ?_⟩
  obtain ⟨t, registered, native⟩ := managed id mem
  have type_lt := (housed.types s id t registered).1.1
  refine ⟨t, grows.typeWithId? scope_lt registered, ?_⟩
  rw [(grows.typeAt t type_lt).native]
  exact native

/-- An edit leaves the tables of scopes as they are, defines a class, or defines a managed
type with its host. -/
theorem Edit.tables (edit : e.Edit e') :
    ((∀ s name, e'.class? s name = e.class? s name) ∧
        (∀ s id, e'.typeWithId? s id = e.typeWithId? s id) ∧
        ∀ t, e'.IsManaged t → e.IsManaged t) ∨
      (∃ s spec cls, e.Admits s spec cls ∧ e.PlainOrigin s spec ∧ e' = e.addClass s cls) ∨
      ∃ s type form parent interfaces cls, e.Manages s type form parent interfaces ∧
        type.native = some e.classes.size ∧
        e.Admits s (form.spec type.id parent interfaces) cls ∧
        e' = (e.addType s type).addClass s cls := by
  have grows := edit.grows
  have shrink (size : e'.types.size = e.types.size) : ∀ t, e'.IsManaged t → e.IsManaged t := by
    intro t managed
    have lt : t < e.types.size := size ▸ managed.1
    refine ⟨lt, ?_⟩
    rw [← (grows.typeAt t lt).native]
    exact managed.2
  cases edit with
  | run same lawful =>
    have size : e'.skeleton.types.size = e.skeleton.types.size := by rw [same]
    simp only [skeleton, Array.size_map] at size
    refine .inl ⟨class?_of_skeleton_eq same, fun s id => ?_, shrink size⟩
    have types : (e'.scopeAt s).skeleton.types = (e.scopeAt s).skeleton.types := by
      rw [scopeAt_of_skeleton_eq same]
    exact congrArg (fun t : Table TypeId TypeRef => t.get? id) types
  | openScope options filter registry usable known =>
    have scope (s : ScopeRef) : ({ e with
        scopes := e.scopes.push (.empty options filter registry) } : Engine).scopeAt s =
          if s = e.scopes.size then .empty options filter registry else e.scopeAt s :=
      getD_push _ _ _ _
    have fresh : e.scopeAt e.scopes.size = default := getD_of_le _ _ (Nat.le_refl _)
    refine .inl ⟨fun s name => ?_, fun s id => ?_, shrink rfl⟩
    · unfold Engine.class?
      rw [scope]
      by_cases last : s = e.scopes.size
      · rw [if_pos last, last, fresh]
        rfl
      · rw [if_neg last]
    · unfold Engine.typeWithId?
      rw [scope]
      by_cases last : s = e.scopes.size
      · rw [if_pos last, last, fresh]
        rfl
      · rw [if_neg last]
  | setDepth | addRegistry | number | trace =>
    exact .inl ⟨fun _ _ => rfl, fun _ _ => rfl, shrink rfl⟩
  | countClass s =>
    exact .inl ⟨class?_updateScope e s _ fun _ => rfl, typeWithId?_updateScope e s _ fun _ => rfl,
      shrink rfl⟩
  | observe s observer | close s =>
    exact .inl ⟨class?_updateScope e s _ fun _ => rfl, typeWithId?_updateScope e s _ fun _ => rfl,
      shrink rfl⟩
  | addClass s spec cls admits origin => exact .inr (.inl ⟨s, spec, cls, admits, origin, rfl⟩)
  | manage s type form parent interfaces cls manages hosted admits =>
    exact .inr (.inr ⟨s, type, form, parent, interfaces, cls, manages, hosted, admits, rfl⟩)
  | abandon type unhosted unexecuted =>
    refine .inl ⟨fun _ _ => rfl, fun _ _ => rfl, fun t managed => ?_⟩
    obtain ⟨lt, hosted⟩ := managed
    rw [typeAt_push] at hosted
    by_cases last : t = e.types.size
    · rw [if_pos last, unhosted] at hosted
      cases hosted
    · rw [if_neg last] at hosted
      have lt : t < e.types.size + 1 := by simpa using lt
      exact ⟨Nat.lt_of_le_of_ne (Nat.le_of_lt_succ lt) last, hosted⟩
  | countArtifact | refuse | remember | addSlots =>
    exact .inl ⟨fun _ _ => rfl, fun _ _ => rfl, shrink (by simp [updateType])⟩
  | publish t v offers =>
    exact .inl ⟨class?_updateScope _ _ _ fun _ => rfl, typeWithId?_updateScope _ _ _ fun _ => rfl,
      shrink (by simp [Engine.publish, updateScope, updateType])⟩

/-- The tables stay true as long as nothing is added to them. -/
theorem Housed.of_same (housed : e.Housed) (grows : e.Grows e') (grounded : e.Grounded)
    (classes : ∀ s name, e'.class? s name = e.class? s name)
    (types : ∀ s id, e'.typeWithId? s id = e.typeWithId? s id)
    (managed : ∀ t, e'.IsManaged t → e.IsManaged t) : e'.Housed := by
  refine ⟨fun s id t registered => ?_, fun s name c known => ?_, fun t held => ?_⟩
  · rw [types] at registered
    obtain ⟨held, scope, number⟩ := housed.types s id t registered
    have kept := grows.typeAt t held.1
    refine ⟨⟨Nat.lt_of_lt_of_le held.1 grows.types, ?_⟩, ?_, ?_⟩
    · rw [kept.native]
      exact held.2
    · rw [kept.scope]
      exact scope
    · rw [kept.id]
      exact number
  · rw [classes] at known
    exact (housed.classes s name c known).of_grows grows housed (scope_lt_of_class? known)
  · obtain ⟨c, hosted⟩ := housed.hosts t (managed t held)
    exact ⟨c, hosted.of_grows grows grounded⟩

/-- The superclass that a unit is linked to is a class of the scope. -/
theorem Links.homes {u : TypeUnit} {parent : Option ClassRef} {interfaces : List ClassRef}
    (links : e.Links s u parent interfaces) : ∀ p ∈ parent, e.Homes s p := by
  intro p mem
  have superclass := links.superclass
  rw [show parent = some p from mem] at superclass
  obtain ⟨name, -, known⟩ := Option.map_eq_some_iff.1 superclass
  exact ⟨name, known⟩

/-- A class that is not a host has its parents in the scope and belongs to no type. -/
theorem PlainOrigin.parent_homes {spec : ClassSpec} (origin : e.PlainOrigin s spec) :
    (∀ p ∈ spec.parent, e.Homes s p) ∧ spec.managed = none := by
  cases origin with
  | unit u names parent interfaces verified links had named => exact ⟨links.homes, rfl⟩
  | contract typeName number shape => exact ⟨fun p mem => (by cases mem), rfl⟩
  | executor ctx names number u contract => exact ⟨fun p mem => (by cases mem), rfl⟩

theorem Admits.name_eq {spec : ClassSpec} {cls : Class} (admits : e.Admits s spec cls) :
    cls.name = spec.unit.name := by
  obtain ⟨id, rfl⟩ := admits.eq
  rfl

theorem typeWithId?_addClass (e : Engine) (s : ScopeRef) (cls : Class) (s' : ScopeRef)
    (id : TypeId) : (e.addClass s cls).typeWithId? s' id = e.typeWithId? s' id := by
  refine typeWithId?_updateScope { e with classes := e.classes.push cls } s _ ?_ s' id
  intro scope
  rfl

theorem Housed.addClass (housed : e.Housed) (grounded : e.Grounded) {spec : ClassSpec}
    {cls : Class} (admits : e.Admits s spec cls) (origin : e.PlainOrigin s spec) :
    (e.addClass s cls).Housed := by
  have grows := grows_addClass admits.free_name
  refine ⟨fun s' id t registered => ?_, fun s' name c known => ?_, fun t held => ?_⟩
  · rw [typeWithId?_addClass] at registered
    exact housed.types s' id t registered
  · rw [class?_addClass] at known
    split at known
    next new =>
      obtain ⟨rfl, -, rfl⟩ := new
      cases known
      obtain ⟨parents, managed⟩ := origin.parent_homes
      refine ⟨spec, admits.describes, admits.name_eq.symm, fun p mem => ?_, fun id mem => ?_⟩
      · exact (parents p mem).of_grows grows
      · rw [managed] at mem
        cases mem
    · exact (housed.classes s' name c known).of_grows grows housed (scope_lt_of_class? known)
  · obtain ⟨c, hosted⟩ := housed.hosts t held
    exact ⟨c, hosted.of_grows grows grounded⟩

/-- The managed types of an engine after one was added. -/
theorem typeWithId?_addType (e : Engine) (s : ScopeRef) (type : ManagedType) (s' : ScopeRef)
    (id : TypeId) : (e.addType s type).typeWithId? s' id =
      if s = s' ∧ s' < e.scopes.size ∧ type.id = id then some e.types.size
      else e.typeWithId? s' id := by
  have scope : (e.addType s type).scopeAt s' = if s = s' ∧ s' < e.scopes.size then
      { e.scopeAt s' with types := (e.scopeAt s').types.put type.id e.types.size }
      else e.scopeAt s' :=
    scopeAt_updateScope { e with types := e.types.push type } s _ s'
  unfold typeWithId?
  rw [scope]
  by_cases here : s = s' ∧ s' < e.scopes.size
  · rw [if_pos here, Table.get?_put]
    by_cases numbered : type.id = id
    · rw [if_pos numbered, if_pos ⟨here.1, here.2, numbered⟩]
    · rw [if_neg numbered, if_neg fun h => numbered h.2.2]
  · rw [if_neg here, if_neg fun h => here ⟨h.1, h.2.1⟩]

section Manage

variable {type : ManagedType} {form : HostForm} {parent : Option ClassRef}
  {interfaces : List ClassRef} {cls : Class}

/-- A type that was just defined has its host. -/
theorem Manages.isHosted (manages : e.Manages s type form parent interfaces)
    (grounded : e.Grounded) (hosted : type.native = some e.classes.size)
    (admits : e.Admits s (form.spec type.id parent interfaces) cls) :
    ((e.addType s type).addClass s cls).Hosted e.types.size e.classes.size := by
  let e' := (e.addType s type).addClass s cls
  have free : (e.addType s type).class? s cls.name = none := by
    rw [class?_addType]
    exact admits.free_name
  have grows : e.Grows e' := (grows_addType manages.free).trans (grows_addClass free)
  have scope_lt : s < (e.addType s type).scopes.size := by
    have same : (e.addType s type).scopes.size = e.scopes.size := by
      simp [Engine.addType, updateScope]
    rw [same]
    exact admits.scope_lt
  have at_ : e'.typeAt e.types.size = type := by
    rw [show e'.typeAt e.types.size = _ from e.typeAt_push type _, if_pos rfl]
  have defines := manages.defines
  have scope : type.scope = s := by
    rw [defines]
    rfl
  have name : type.name = type.first.unit.name := by
    rw [defines]
    rfl
  have options : e'.optionsOf e.types.size = (e.scopeAt s).options := by
    unfold Engine.optionsOf
    rw [at_, scope]
    exact (grows.scopeAt s admits.scope_lt).options
  obtain ⟨names, had, named, form_eq⟩ := manages.hosted
  have extends_ := grows.namesOf grounded admits.scope_lt
  have form' : e'.hostForm e.types.size names parent = form := by
    unfold Engine.hostForm
    rw [options, at_, form_eq]
    have parents : (parent.map fun p => (e'.classAt p).skeleton) =
        (parent.map e.classAt).map Class.skeleton := by
      cases some_p : parent with
      | none => rfl
      | some p =>
        have lt : p < e.classes.size := admits.parent_lt p some_p
        simp only [Option.map_some]
        rw [grows.classAt p lt]
    rw [parents, HostForm.ofUnit_skeleton]
  refine ⟨?_, ?_, ?_, ?_, ?_, names, parent, interfaces, ?_, ?_, ?_, ?_, ?_⟩
  · simp [Engine.addClass, Engine.addType, updateScope]
  · rw [at_]
    exact hosted
  · rw [at_, scope]
    rw [typeWithId?_addClass, typeWithId?_addType, if_pos ⟨rfl, admits.scope_lt, rfl⟩]
  · have called : cls.name = type.name := by
      rw [admits.name_eq, name, form_eq]
      rfl
    rw [at_, scope, class?_addClass, if_pos ⟨rfl, scope_lt, called⟩]
    rfl
  · rw [at_, scope, name]
    exact NameTable.lookup_of_extends extends_ manages.numbered
  · rw [at_, scope]
    exact extends_.trans had
  · rw [at_, options]
    exact named
  · rw [at_, scope]
    exact manages.links.of_grows grows
  · rw [form', at_]
    exact admits.describes.of_classes_eq rfl
  · rw [form', at_, defines]
    exact List.prefix_refl _

theorem Housed.manage (housed : e.Housed) (grounded : e.Grounded)
    (manages : e.Manages s type form parent interfaces) (hosted : type.native = some e.classes.size)
    (admits : e.Admits s (form.spec type.id parent interfaces) cls) :
    ((e.addType s type).addClass s cls).Housed := by
  let e' := (e.addType s type).addClass s cls
  have free : (e.addType s type).class? s cls.name = none := by
    rw [class?_addType]
    exact admits.free_name
  have grows : e.Grows e' := (grows_addType manages.free).trans (grows_addClass free)
  have here := manages.isHosted grounded hosted admits
  have types (s' : ScopeRef) (id : TypeId) : e'.typeWithId? s' id =
      if s = s' ∧ s' < e.scopes.size ∧ type.id = id then some e.types.size
      else e.typeWithId? s' id := by
    rw [← typeWithId?_addType]
    exact typeWithId?_addClass _ s cls s' id
  have at_ : e'.typeAt e.types.size = type := by
    rw [show e'.typeAt e.types.size = _ from e.typeAt_push type _, if_pos rfl]
  have scope : type.scope = s := by
    rw [manages.defines]
    rfl
  refine ⟨fun s' id t registered => ?_, fun s' name c known => ?_, fun t held => ?_⟩
  · rw [types] at registered
    split at registered
    next new =>
      obtain ⟨rfl, -, rfl⟩ := new
      cases registered
      refine ⟨⟨here.type_lt, ?_⟩, ?_, ?_⟩
      · rw [here.native]
        rfl
      · rw [at_]
        exact scope
      · rw [at_]
    · obtain ⟨held, scope', number⟩ := housed.types s' id t registered
      have kept := grows.typeAt t held.1
      refine ⟨⟨Nat.lt_of_lt_of_le held.1 grows.types, ?_⟩, ?_, ?_⟩
      · rw [kept.native]
        exact held.2
      · rw [kept.scope]
        exact scope'
      · rw [kept.id]
        exact number
  · rw [class?_addClass, class?_addType] at known
    split at known
    next new =>
      obtain ⟨rfl, -, rfl⟩ := new
      cases known
      refine ⟨_, admits.describes.of_classes_eq rfl, admits.name_eq.symm, fun p mem => ?_,
        fun id mem => ?_⟩
      · exact (manages.links.homes p mem).of_grows grows
      · cases mem
        refine ⟨e.types.size, ?_, here.native⟩
        have registered := here.registered
        rw [show (((e.addType s type).addClass s cls).typeAt e.types.size) = type from at_,
          scope] at registered
        exact registered
    · exact (housed.classes s' name c known).of_grows grows housed (scope_lt_of_class? known)
  · by_cases last : t = e.types.size
    · subst last
      exact ⟨_, here⟩
    · have lt : t < e.types.size + 1 := by
        simpa [Engine.addClass, Engine.addType, updateScope] using held.1
      have lt : t < e.types.size := Nat.lt_of_le_of_ne (Nat.le_of_lt_succ lt) last
      have held' := held.2
      rw [(grows.typeAt t lt).native] at held'
      obtain ⟨c, hosted'⟩ := housed.hosts t ⟨lt, held'⟩
      exact ⟨c, hosted'.of_grows grows grounded⟩

end Manage

/-- Edits keep the tables true. -/
theorem Edit.housed (edit : e.Edit e') (grounded : e.Grounded) (housed : e.Housed) :
    e'.Housed := by
  rcases edit.tables with ⟨classes, types, managed⟩ | ⟨s, spec, cls, admits, origin, rfl⟩ |
      ⟨s, type, form, parent, interfaces, cls, manages, hosted, admits, rfl⟩
  · exact housed.of_same edit.grows grounded classes types managed
  · exact housed.addClass grounded admits origin
  · exact housed.manage grounded manages hosted admits

theorem Edits.housed (edits : e.Edits e') (grounded : e.Grounded) (housed : e.Housed) :
    e'.Housed := by
  induction edits with
  | refl => exact housed
  | tail edits edit ih => exact edit.housed (Edits.grounded edits grounded) ih

theorem housed_empty : Housed {} := by
  refine ⟨fun s id t registered => ?_, fun s name c known => ?_, fun t held => ?_⟩
  · have none_ : Engine.typeWithId? {} s id = none := rfl
    rw [none_] at registered
    cases registered
  · have none_ : Engine.class? {} s name = none := rfl
    rw [none_] at known
    cases known
  · cases held.1

end Engine

end LiveUpdate
