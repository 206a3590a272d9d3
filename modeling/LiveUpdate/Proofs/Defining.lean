import LiveUpdate.Proofs.Growth
import LiveUpdate.Proofs.Leads

/-!
# Definitions are edits

The definition of a unit numbers the names that its guards need, makes it a managed type
if it is eligible, defines its class and runs its static initializer.  Each of these is an
edit, and a definition that fails leaves behind only edits that it came to.
-/

set_option autoImplicit false

namespace LiveUpdate

open Exec

namespace Engine

variable (e : Engine)

/-- Changes of one scope after one another are one change of it. -/
theorem updateScope_updateScope (s : ScopeRef) (f g : Scope → Scope) :
    (e.updateScope s f).updateScope s g = e.updateScope s (g ∘ f) := by
  have scopes : (e.scopes.modify s f).modify s g = e.scopes.modify s (g ∘ f) := by
    apply Array.ext
    · simp
    · intro i h h'
      simp only [Array.getElem_modify, Function.comp]
      split <;> rfl
  simp only [updateScope, scopes]

/-- It only counts what a change does to the scope as it is. -/
theorem updateScope_congr {s : ScopeRef} {f g : Scope → Scope}
    (same : f (e.scopeAt s) = g (e.scopeAt s)) : e.updateScope s f = e.updateScope s g := by
  have scopes : e.scopes.modify s f = e.scopes.modify s g := by
    apply Array.ext
    · simp
    · intro i h h'
      simp only [Array.getElem_modify]
      split
      next hit =>
        subst hit
        have lt : s < e.scopes.size := by simpa using h
        have at_ : e.scopeAt s = e.scopes[s] := by simp [scopeAt, lt]
        rw [← at_]
        exact same
      next => rfl
  simp only [updateScope, scopes]

/-- It makes no difference whether a class is counted before it is added or after. -/
theorem countClass_addClass (s : ScopeRef) (cls : Class) :
    (e.countClass s).addClass s cls = (e.addClass s cls).countClass s := by
  let grown : Engine := { e with classes := e.classes.push cls }
  have before := grown.updateScope_updateScope s
    (fun scope => { scope with nextClassId := scope.nextClassId + 1 })
    (fun scope => { scope with classes := scope.classes.put cls.name e.classes.size })
  have after := grown.updateScope_updateScope s
    (fun scope => { scope with classes := scope.classes.put cls.name e.classes.size })
    (fun scope => { scope with nextClassId := scope.nextClassId + 1 })
  exact before.trans after.symm

/-- The last entry of an array, changed after it was pushed, is a changed one pushed. -/
theorem modify_push_size {α : Type} (xs : Array α) (x : α) (f : α → α) :
    (xs.push x).modify xs.size f = xs.push (f x) := by
  apply Array.ext
  · simp
  · intro i h h'
    simp only [Array.getElem_modify, Array.getElem_push]
    split
    next hit => simp [← hit]
    next miss =>
      split
      · rfl
      · rename_i below
        have : i < xs.size + 1 := by simpa using h'
        omega

/-- A managed type that gets a host class after it was added is added with its host. -/
theorem addHost_eq (s : ScopeRef) (type : ManagedType) (cls : Class) :
    (((e.addType s type).countClass s).addClass s cls).updateType e.types.size
        (fun type => { type with native := some e.classes.size }) =
      ((e.addType s { type with native := some e.classes.size }).addClass s cls).countClass s := by
  have types := modify_push_size e.types type fun type => { type with native := some e.classes.size }
  rw [(e.addType s type).countClass_addClass]
  let added := ((e.addType s type).addClass s cls).countClass s
  calc added.updateType e.types.size (fun type => { type with native := some e.classes.size })
      = { added with types := (e.types.push type).modify e.types.size fun type =>
          { type with native := some e.classes.size } } := rfl
    _ = { added with types := e.types.push { type with native := some e.classes.size } } := by
        rw [types]
    _ = _ := rfl

/-- A managed type that was added and forgotten again only takes up a place. -/
theorem dropType_eq (s : ScopeRef) (type : ManagedType)
    (free : e.typeWithId? s type.id = none) :
    ((e.addType s type).countClass s).updateScope s
        (fun scope => { scope with types := scope.types.erase type.id }) =
      ({ e with types := e.types.push type } : Engine).countClass s := by
  let grown : Engine := { e with types := e.types.push type }
  show ((grown.updateScope s _).updateScope s _).updateScope s _ = grown.updateScope s _
  rw [updateScope_updateScope, updateScope_updateScope]
  apply updateScope_congr
  have absent : (e.scopeAt s).types.get? type.id = none := free
  have restored := Table.erase_put_of_get?_eq_none (e.scopeAt s).types e.types.size absent
  show ({ e.scopeAt s with
    nextClassId := (e.scopeAt s).nextClassId + 1
    types := ((e.scopeAt s).types.put type.id e.types.size).erase type.id } : Scope) = _
  rw [restored]
  rfl

/-- The table of names that a scope is given is the one that it has. -/
theorem namesOf_setNames {s : ScopeRef} (known : (e.scopeAt s).registry < e.registries.size)
    (names : NameTable) : (e.setNames s names).namesOf s = names := by
  show (e.registries.setIfInBounds (e.scopeAt s).registry names).getD (e.scopeAt s).registry
    default = names
  simp [known]

theorem setNames_setNames (s : ScopeRef) (names names' : NameTable) :
    (e.setNames s names).setNames s names' = e.setNames s names' := by
  show ({ e with registries := (e.registries.setIfInBounds (e.scopeAt s).registry
    names).setIfInBounds (e.scopeAt s).registry names' } : Engine) = _
  rw [Array.setIfInBounds_setIfInBounds]
  rfl

/-- A registry stays known when it is written to. -/
theorem known_setNames {s : ScopeRef} (known : (e.scopeAt s).registry < e.registries.size)
    (names : NameTable) : ((e.setNames s names).scopeAt s).registry <
      (e.setNames s names).registries.size := by
  show (e.scopeAt s).registry < (e.registries.setIfInBounds _ names).size
  rw [Array.size_setIfInBounds]
  exact known

/-- To give a scope the names that it has changes nothing. -/
theorem setNames_namesOf {s : ScopeRef} (known : (e.scopeAt s).registry < e.registries.size) :
    e.setNames s (e.namesOf s) = e := by
  have held : e.registries.setIfInBounds (e.scopeAt s).registry (e.namesOf s) =
      e.registries := by
    apply Array.ext
    · simp
    · intro i h h'
      rw [Array.getElem_setIfInBounds]
      split
      next hit =>
        subst hit
        simp [namesOf, known]
      next => rfl
  simp only [setNames, held]

/-- Numbering several names is several edits. -/
theorem edits_addAll (s : ScopeRef) (known : (e.scopeAt s).registry < e.registries.size)
    (added : List String) : e.Edits (e.setNames s ((e.namesOf s).addAll added)) := by
  induction added generalizing e with
  | nil =>
    have same : e.setNames s ((e.namesOf s).addAll []) = e := e.setNames_namesOf known
    rw [same]
  | cons name rest ih =>
    have first := (Edit.number (e := e) s name).edits
    have others := ih _ (e.known_setNames known ((e.namesOf s).idFor name).2)
    rw [e.namesOf_setNames known, e.setNames_setNames] at others
    exact first.trans others

/-- What stays the same of an engine in which only names were numbered. -/
structure Renamed (e e' : Engine) (s : ScopeRef) : Prop where
  edits : e.Edits e'
  eq : ∃ names, e' = e.setNames s names
  known : (e'.scopeAt s).registry < e'.registries.size
  names : (e'.namesOf s).Extends (e.namesOf s)

theorem renamed_addAll {e : Engine} {s : ScopeRef}
    (known : (e.scopeAt s).registry < e.registries.size) (added : List String) :
    e.Renamed (e.setNames s ((e.namesOf s).addAll added)) s where
  edits := e.edits_addAll s known added
  eq := ⟨_, rfl⟩
  known := e.known_setNames known _
  names := by
    rw [e.namesOf_setNames known]
    exact NameTable.addAll_extends _ _

end Engine

namespace Scope

variable {e : Engine} {s : ScopeRef}

/-- A name gets a number, and from then on that is its number. -/
theorem leads_idFor {ε : Type} (known : (e.scopeAt s).registry < e.registries.size)
    (name : String) : e.Leads (idFor s name : Exec ε TypeId) fun id e' =>
      e.Renamed e' s ∧ (e'.namesOf s).lookup name = some id := by
  refine ⟨(Engine.Edit.number s name).edits, fun id e' run => ?_⟩
  cases run
  refine ⟨Engine.renamed_addAll known [name], ?_⟩
  rw [e.namesOf_setNames known]
  exact NameTable.lookup_idFor _ _

/-- A guarded unit has numbers for all the owners that its guards name. -/
theorem leads_guardUnit {ε : Type} (known : (e.scopeAt s).registry < e.registries.size)
    (u : TypeUnit) : e.Leads (guardUnit s u : Exec ε TypeUnit) fun guarded e' =>
      e.Renamed e' s ∧ guarded = u.withGuards (e.scopeAt s).options (e'.namesOf s) ∧
        ∀ m ∈ u.methods, Engine.NamesOwners (e.scopeAt s).options (e'.namesOf s) m.code := by
  have renamed := Engine.renamed_addAll known (u.guardedOwners (e.scopeAt s).options)
  refine ⟨renamed.edits, fun guarded e' run => ?_⟩
  cases run
  refine ⟨renamed, ?_, ?_⟩
  · rw [e.namesOf_setNames known]
  · rw [e.namesOf_setNames known]
    intro m mem instr here owner guards
    apply NameTable.lookup_addAll_isSome
    exact List.mem_flatMap.2 ⟨m, mem, List.mem_filterMap.2 ⟨instr, here, guards⟩⟩

/-- The classes of several names; nothing changes while they are looked up. -/
theorem leads_requireClasses (names : List String) :
    e.Leads (names.mapM fun name => check fun e => e.requireClass s name : Run (List ClassRef))
      fun classes e' => e' = e ∧ names.map (e.class? s) = classes.map some := by
  induction names with
  | nil => exact Engine.leads_pure ⟨rfl, rfl⟩
  | cons name rest ih =>
    rw [List.mapM_cons]
    refine Engine.leads_check_bind fun c found => Engine.leads_bind ih fun classes e' held => ?_
    obtain ⟨rfl, others⟩ := held
    have known : e'.class? s name = some c := by
      unfold Engine.requireClass at found
      split at found <;> simp_all
    exact Engine.leads_pure ⟨rfl, by simp [known, others]⟩

/-- The classes that a unit extends and implements are those of the names in it. -/
theorem leads_requireParents (u : TypeUnit) :
    e.Leads (requireParents s u) fun links e' => e' = e ∧ e.Links s u links.1 links.2 := by
  unfold requireParents
  have parent : e.Leads (u.superName.mapM fun name => check fun e => e.requireClass s name :
      Run (Option ClassRef)) fun parent e' =>
        e' = e ∧ u.superName.map (e.class? s) = parent.map some := by
    cases u.superName with
    | none => exact Engine.leads_pure ⟨rfl, rfl⟩
    | some name =>
      refine Engine.leads_check_bind fun c found => Engine.leads_pure ⟨rfl, ?_⟩
      unfold Engine.requireClass at found
      split at found <;> simp_all
  refine Engine.leads_bind parent fun parent e' held => ?_
  obtain ⟨rfl, superclass⟩ := held
  refine Engine.leads_bind (leads_requireClasses u.interfaces) fun interfaces e'' held => ?_
  obtain ⟨rfl, interfaces⟩ := held
  exact Engine.leads_pure ⟨rfl, superclass, interfaces⟩

/-- A definition in a scope that does not know the name counts, and then it either finds a
fault or adds the class. -/
theorem defineClass_apply {spec : ClassSpec} (free : e.class? s spec.unit.name = none) :
    defineClass s spec e =
      match Class.define e.classes.size (e.scopeAt s).nextClassId spec (spec.parent.map e.classAt)
        (spec.interfaces.map e.classAt) with
      | .error fault => .error (.error (.link fault)) (e.countClass s)
      | .ok cls => .ok e.classes.size ((e.countClass s).addClass s cls) := by
  have unknown : (e.scopeAt s).classes.has spec.unit.name = false := by
    unfold Engine.class? at free
    simp [Table.has, free]
  unfold defineClass
  rw [bind_apply, ask_apply]
  dsimp only
  rw [unknown]
  simp only [Bool.false_eq_true, if_false]
  rw [bind_apply, ask_apply]
  dsimp only
  rw [bind_apply, modify_apply]
  dsimp only
  rw [bind_apply, ask_apply]
  show (match Class.define e.classes.size (e.scopeAt s).nextClassId spec
      (spec.parent.map e.classAt) (spec.interfaces.map e.classAt) with
    | .error fault => (fail (.link fault) : Run ClassRef)
    | .ok cls => _) _ = _
  cases Class.define e.classes.size (e.scopeAt s).nextClassId spec (spec.parent.map e.classAt)
    (spec.interfaces.map e.classAt) <;> rfl

/-- A name that is taken cannot be defined again. -/
theorem defineClass_taken {spec : ClassSpec} (taken : e.class? s spec.unit.name ≠ none) :
    defineClass s spec e = .error (.error (.duplicateClass spec.unit.name)) e := by
  have known : (e.scopeAt s).classes.has spec.unit.name = true := by
    unfold Engine.class? at taken
    simpa [Table.has, Option.isSome_iff_ne_none] using taken
  unfold defineClass
  rw [bind_apply, ask_apply]
  dsimp only
  rw [known]
  simp only [if_true, fail_bind]
  rfl

/-- A class that is not the host of a managed type is defined by edits. -/
theorem leads_defineClass (spec : ClassSpec) (scope_lt : s < e.scopes.size)
    (parent_lt : ∀ p ∈ spec.parent, p < e.classes.size)
    (interface_lt : ∀ i ∈ spec.interfaces, i < e.classes.size)
    (origin : e.PlainOrigin s spec) :
    e.Leads (defineClass s spec) fun c e' => c = e.classes.size ∧
      ∃ cls, e.Admits s spec cls ∧ e' = (e.addClass s cls).countClass s := by
  by_cases free : e.class? s spec.unit.name = none
  · have apply := defineClass_apply free
    cases defined : Class.define e.classes.size (e.scopeAt s).nextClassId spec
        (spec.parent.map e.classAt) (spec.interfaces.map e.classAt) with
    | error fault =>
      rw [defined] at apply
      refine ⟨?_, fun c e' run => by rw [apply] at run; cases run⟩
      unfold final
      rw [apply]
      exact (Engine.Edit.countClass s).edits
    | ok cls =>
      rw [defined] at apply
      dsimp only at apply
      rw [e.countClass_addClass] at apply
      have admits : e.Admits s spec cls :=
        ⟨scope_lt, free, parent_lt, interface_lt, _, defined⟩
      refine ⟨?_, fun c e' run => ?_⟩
      · unfold final
        rw [apply]
        exact (Engine.Edit.addClass s spec cls admits origin).edits.trans
          (Engine.Edit.countClass s).edits
      · rw [apply] at run
        cases run
        exact ⟨rfl, cls, admits, rfl⟩
  · have apply := defineClass_taken free
    refine ⟨?_, fun c e' run => by rw [apply] at run; cases run⟩
    unfold final
    rw [apply]

/-- The classes that a unit extends and implements exist. -/
theorem links_lt (grounded : e.Grounded) {u : TypeUnit} {parent : Option ClassRef}
    {interfaces : List ClassRef} (links : e.Links s u parent interfaces) :
    (∀ p ∈ parent, p < e.classes.size) ∧ ∀ i ∈ interfaces, i < e.classes.size := by
  refine ⟨fun p mem => ?_, fun i mem => ?_⟩
  · have known := links.superclass
    rw [show parent = some p from mem, Option.map_some] at known
    obtain ⟨name, -, found⟩ := Option.map_eq_some_iff.1 known
    exact grounded.class_lt s name p found
  · have mem' : some i ∈ u.interfaces.map (e.class? s) := by
      rw [links.interfaces]
      exact List.mem_map_of_mem mem
    obtain ⟨name, -, found⟩ := List.mem_map.1 mem'
    exact grounded.class_lt s name i found

theorem leads_definePlain (grounded : e.Grounded) (scope_lt : s < e.scopes.size) {u : TypeUnit}
    {parent : Option ClassRef} {interfaces : List ClassRef} (verified : u.verify = .ok ())
    (links : e.Links s u parent interfaces) :
    e.Leads (definePlain s u parent interfaces) fun _ _ => True := by
  have known := grounded.registry s scope_lt
  refine Engine.leads_bind (leads_guardUnit known u) fun guarded e' held => ?_
  obtain ⟨renamed, rfl, named⟩ := held
  obtain ⟨names, rfl⟩ := renamed.eq
  have lt := links_lt grounded links
  have origin : (e.setNames s names).PlainOrigin s (.plain (u.withGuards (e.scopeAt s).options
      ((e.setNames s names).namesOf s)) parent interfaces) :=
    .unit u _ parent interfaces verified ⟨links.superclass, links.interfaces⟩
      (NameTable.Extends.refl _) named
  have scope_lt' : s < (e.setNames s names).scopes.size := scope_lt
  refine (leads_defineClass _ scope_lt' ?_ ?_ origin).weaken fun _ _ _ => trivial
  · exact lt.1
  · exact lt.2

/-- From a managed type that was just added the definition of its host leads through
edits. -/
theorem edits_defineHost (type : ManagedType) {form : HostForm} {parent : Option ClassRef}
    {interfaces : List ClassRef} (grounded : e.Grounded) (scope_lt : s < e.scopes.size)
    (unhosted : type.native = none)
    (manages : e.Manages s { type with native := some e.classes.size } form parent interfaces)
    (free : e.class? s form.unit.name = none) :
    e.Edits ((defineHost s e.types.size type.id (form.spec type.id parent interfaces)).final
      (e.addType s type)) := by
  let spec := form.spec type.id parent interfaces
  have lt := links_lt grounded manages.links
  have free' : (e.addType s type).class? s spec.unit.name = none := by
    rw [Engine.class?_addType]
    exact free
  have apply := defineClass_apply free'
  unfold final defineHost
  rw [tryCatch_apply, bind_apply, mapError_apply]
  cases defined : Class.define (e.addType s type).classes.size
      ((e.addType s type).scopeAt s).nextClassId spec
      (spec.parent.map (e.addType s type).classAt)
      (spec.interfaces.map (e.addType s type).classAt) with
  | error fault =>
    rw [defined] at apply
    rw [apply]
    show e.Edits (((e.addType s type).countClass s).updateScope s fun scope =>
      { scope with types := scope.types.erase type.id })
    rw [e.dropType_eq s type manages.free]
    exact (Engine.Edit.abandon type unhosted manages.unexecuted).edits.trans (Engine.Edit.countClass s).edits
  | ok cls =>
    rw [defined] at apply
    rw [apply]
    show e.Edits ((((e.addType s type).countClass s).addClass s cls).updateType e.types.size
      fun type => { type with native := some e.classes.size })
    rw [e.addHost_eq s type cls]
    have admits : e.Admits s spec cls := ⟨scope_lt, free, lt.1, lt.2, _, defined⟩
    exact (Engine.Edit.manage s _ form parent interfaces cls manages rfl admits).edits.trans
      (Engine.Edit.countClass s).edits

/-- The registration of a unit whose number is free, and the definition of its host. -/
theorem leads_defineManaged (grounded : e.Grounded) (scope_lt : s < e.scopes.size)
    {data : List UInt8} {u : TypeUnit} {parent : Option ClassRef} {interfaces : List ClassRef}
    (decoded : TypeUnit.decode data = .ok u) (verified : u.verify = .ok ())
    (inheritable : u.isInterface = false) (free : e.class? s u.name = none)
    (links : e.Links s u parent interfaces) :
    e.Leads (defineManaged s data u parent interfaces) fun _ _ => True := by
  unfold defineManaged registerType
  simp only [bind_assoc]
  have known := grounded.registry s scope_lt
  refine Engine.leads_bind (leads_idFor known u.name).reached fun id e₁ held => ?_
  obtain ⟨edits₁, renamed₁, numbered⟩ := held
  refine Engine.leads_ofResult_bind fun shape shaped => ?_
  refine Engine.leads_bind (leads_guardUnit renamed₁.known u).reached fun guarded e₂ held => ?_
  obtain ⟨edits₂, renamed₂, rfl, named⟩ := held
  refine Engine.leads_ask_bind (Engine.leads_ask_bind ?_)
  split
  · exact Engine.leads_fail _
  next unknown =>
    obtain ⟨names₁, rfl⟩ := renamed₁.eq
    obtain ⟨names₂, rfl⟩ := renamed₂.eq
    have unnumbered : ((e.setNames s names₁).setNames s names₂).typeWithId? s id = none := by
      simpa using unknown
    generalize e_eq : (e.setNames s names₁).setNames s names₂ = e₂ at *
    let form := HostForm.ofUnit (u.withGuards (e.scopeAt s).options (e₂.namesOf s)) id
      (parent.map e₂.classAt)
    let type := ManagedType.define id s (.first data u shape form.slots) form.slots
    have manages : e₂.Manages s { type with native := some e₂.classes.size } form parent
        interfaces := by
      subst e_eq
      exact {
        decoded, verified, inheritable
        shaped := Exec.ok_of_mapError shaped
        defines := rfl
        free := unnumbered
        numbered := NameTable.lookup_of_extends renamed₂.names numbered
        links := ⟨links.superclass, links.interfaces⟩
        hosted := ⟨_, .refl _, named, rfl⟩ }
    have scope_lt' : s < e₂.scopes.size := e_eq ▸ scope_lt
    have free' : e₂.class? s form.unit.name = none := e_eq ▸ free
    have hosts := edits_defineHost type
      (Engine.Edits.grounded (edits₁.trans edits₂) grounded) scope_lt' rfl manages free'
    exact ⟨hosts, fun _ _ _ => trivial⟩

/-- The rest of a definition: the class is defined, as a managed type or not, and then it is
initialized. -/
theorem leads_define (grounded : e.Grounded) (scope_lt : s < e.scopes.size) (fuel : Nat)
    (data : List UInt8) : e.Leads (define fuel s data) fun _ _ => True := by
  unfold define
  refine Engine.leads_ofResult_bind fun u decoded => Engine.leads_ofResult_bind fun _ verified => ?_
  refine Engine.leads_ask_bind ?_
  split
  · exact Engine.leads_fail _
  next unknown =>
    have free : e.class? s u.name = none := by simpa using unknown
    refine Engine.leads_bind (Engine.leads_mapError _ (leads_requireParents u))
      fun links e' held => ?_
    obtain ⟨rfl, links⟩ := held
    have initialized (c : ClassRef) (e : Engine) : e.Leads (do
        mapError .run ((Machine.of s fuel).ensureInitialized c)
        return c : Exec ReloadError ClassRef) fun _ _ => True :=
      Engine.leads_bind (Engine.leads_mapError _ (Engine.leads_of_obeys fun law =>
        Machine.obeys_ensureInitialized (obeys_of law s fuel) c)) fun _ _ _ =>
          Engine.leads_pure trivial
    refine Engine.leads_ask_bind ?_
    split
    next eligible =>
      have inheritable : u.isInterface = false := by
        unfold Scope.isEligible at eligible
        simp only [Bool.and_eq_true, Bool.not_eq_true'] at eligible
        exact eligible.1.1.1.2
      exact Engine.leads_bind (leads_defineManaged grounded scope_lt
        (Exec.ok_of_mapError decoded) (Exec.ok_of_mapError verified) inheritable free links)
        fun c e _ => initialized c e
    · exact Engine.leads_bind (Engine.leads_mapError _ (leads_definePlain grounded scope_lt
        (Exec.ok_of_mapError verified) links)) fun c e _ => initialized c e

end Scope

end LiveUpdate
