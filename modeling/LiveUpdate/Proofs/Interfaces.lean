import LiveUpdate.Proofs.Resolving

/-!
# Classes and interfaces

A class extends a class that is no interface and implements interfaces, and what it implements
is in its scope.  Interfaces are never managed, so what they have is what the host says.  Where
they extend nothing, a search that has come to an interface stays among interfaces.
-/

set_option autoImplicit false

namespace LiveUpdate

/-- What a class implements when it is defined are interfaces. -/
theorem Class.interfaces_of_define {place : ClassRef} {id : Nat} {spec : ClassSpec}
    {parent : Option Class} {interfaces : List Class} {cls : Class}
    (defined : define place id spec parent interfaces = .ok cls) :
    ∀ i ∈ interfaces, i.isInterface = true := by
  unfold define at defined
  dsimp only at defined
  split at defined
  · cases defined
  · split at defined
    · cases defined
    next none_ =>
      intro i mem
      have none_ := Option.eq_none_iff_forall_ne_some.2 none_
      have isInterface : i.unit.modifiers.isInterface = true := by
        simpa using List.find?_eq_none.1 none_ i mem
      exact isInterface

/-- What a class extends when it is defined is no interface. -/
theorem Class.parent_of_define {place : ClassRef} {id : Nat} {spec : ClassSpec}
    {parent : Option Class} {interfaces : List Class} {cls : Class}
    (defined : define place id spec parent interfaces = .ok cls) :
    ∀ p ∈ parent, p.isInterface = false := by
  intro p mem
  obtain ⟨-, permitted⟩ := Class.define_eq_ok defined
  rw [show parent = some p from mem, Option.bind_some] at permitted
  unfold parentFault? at permitted
  split at permitted
  · cases permitted
  next plain => exact Bool.eq_false_iff.2 plain

namespace Engine

variable {e e' : Engine} {s : ScopeRef} {c : ClassRef}

/-- Every class extends a class that is no interface and implements interfaces of its scopes,
and no interface is managed. -/
structure Layered (e : Engine) : Prop where
  parent : ∀ c, ∀ p ∈ (e.classAt c).parent, (e.classAt p).isInterface = false
  interfaces : ∀ c, ∀ i ∈ (e.classAt c).interfaces, (e.classAt i).isInterface = true
  unmanaged : ∀ c, (e.classAt c).isInterface = true → (e.classAt c).managed = none
  homes : ∀ s c, e.Homes s c → ∀ i ∈ (e.classAt c).interfaces, e.Homes s i

/-- Of the classes that were there what is known stays true. -/
theorem Layered.kept (layered : e.Layered) (lineage : e.Lineage) (grows : e.Grows e')
    (lt : c < e.classes.size) :
    (∀ p ∈ (e'.classAt c).parent, (e'.classAt p).isInterface = false) ∧
    (∀ i ∈ (e'.classAt c).interfaces, (e'.classAt i).isInterface = true) ∧
    ((e'.classAt c).isInterface = true → (e'.classAt c).managed = none) ∧
    (∀ s, e.Homes s c → ∀ i ∈ (e'.classAt c).interfaces, e'.Homes s i) := by
  obtain ⟨spec, founded⟩ := lineage c lt
  have same {d : ClassRef} (lt : d < e.classes.size) :
      (e'.classAt d).isInterface = (e.classAt d).isInterface :=
    grows.class_eq lt Class.isInterface fun _ => rfl
  rw [grows.class_eq lt Class.parent fun _ => rfl, grows.class_eq lt Class.interfaces fun _ => rfl,
    grows.class_eq lt Class.managed fun _ => rfl, same lt]
  have described := founded.described
  refine ⟨fun p mem => ?_, fun i mem => ?_, layered.unmanaged c, fun s home i mem =>
    (layered.homes s c home i mem).of_grows grows⟩
  · rw [same (Nat.lt_trans (described.parent_lt p (described.parent_eq ▸ mem)) lt)]
    exact layered.parent c p mem
  · rw [same (Nat.lt_trans (lineage.interface_lt i mem) lt)]
    exact layered.interfaces c i mem

/-- What a class is defined from makes it extend a class and implement interfaces. -/
theorem Admits.layered {spec : ClassSpec} {cls : Class} (admits : e.Admits s spec cls) :
    (∀ p ∈ cls.parent, (e.classAt p).isInterface = false) ∧
      ∀ i ∈ cls.interfaces, (e.classAt i).isInterface = true := by
  obtain ⟨id, defined⟩ := admits.defined
  obtain ⟨rfl, -⟩ := Class.define_eq_ok defined
  refine ⟨fun p mem => ?_, fun i mem => ?_⟩
  · have mem : spec.parent = some p := mem
    refine Class.parent_of_define defined _ ?_
    rw [mem]
    rfl
  · have mem : i ∈ spec.interfaces := mem
    exact Class.interfaces_of_define defined _ (List.mem_map_of_mem mem)

/-- A class that an edit adds keeps everything in order, if it is no managed interface and what
it implements is in its scope. -/
theorem Layered.push (layered : e.Layered) (lineage : e.Lineage) (grounded : e.Grounded)
    (grows : e.Grows e') {spec : ClassSpec} {cls : Class} (admits : e.Admits s spec cls)
    (classAt : ∀ c, e'.classAt c = if c = e.classes.size then cls else e.classAt c)
    (class? : ∀ s' name, e'.class? s' name =
      if s = s' ∧ s' < e.scopes.size ∧ cls.name = name then some e.classes.size
      else e.class? s' name)
    (inheritable : cls.isInterface = true → cls.managed = none)
    (homes : ∀ i ∈ spec.interfaces, e.Homes s i) : e'.Layered := by
  have before {c : ClassRef} (lt : c < e.classes.size) : e'.classAt c = e.classAt c := by
    rw [classAt, if_neg (Nat.ne_of_lt lt)]
  have last : e'.classAt e.classes.size = cls := by rw [classAt, if_pos rfl]
  have interfaces_eq : cls.interfaces = spec.interfaces := by
    obtain ⟨id, rfl⟩ := admits.eq
    rfl
  have parent_eq : cls.parent = spec.parent := by
    obtain ⟨id, rfl⟩ := admits.eq
    rfl
  obtain ⟨parent, interfaces⟩ := admits.layered
  have here : (∀ p ∈ (e'.classAt e.classes.size).parent, (e'.classAt p).isInterface = false) ∧
      (∀ i ∈ (e'.classAt e.classes.size).interfaces, (e'.classAt i).isInterface = true) ∧
      ((e'.classAt e.classes.size).isInterface = true →
        (e'.classAt e.classes.size).managed = none) := by
    rw [last]
    refine ⟨fun p mem => ?_, fun i mem => ?_, inheritable⟩
    · rw [before (admits.parent_lt p (parent_eq ▸ mem))]
      exact parent p mem
    · rw [before (admits.interface_lt i (interfaces_eq ▸ mem))]
      exact interfaces i mem
  have beyond {c : ClassRef} (new : c ≠ e.classes.size) (ge : ¬ c < e.classes.size) :
      e'.classAt c = default := by
    rw [classAt, if_neg new, classAt_of_le (Nat.le_of_not_lt ge)]
  refine ⟨fun c => ?_, fun c => ?_, fun c => ?_, fun s' c home i mem => ?_⟩
  · by_cases new : c = e.classes.size
    · exact new ▸ here.1
    · by_cases lt : c < e.classes.size
      · exact (layered.kept lineage grows lt).1
      · rw [beyond new lt]
        exact fun p mem => nomatch mem
  · by_cases new : c = e.classes.size
    · exact new ▸ here.2.1
    · by_cases lt : c < e.classes.size
      · exact (layered.kept lineage grows lt).2.1
      · rw [beyond new lt]
        exact fun i mem => nomatch mem
  · by_cases new : c = e.classes.size
    · exact new ▸ here.2.2
    · by_cases lt : c < e.classes.size
      · exact (layered.kept lineage grows lt).2.2.1
      · rw [beyond new lt]
        exact fun _ => rfl
  · obtain ⟨name, known⟩ := home
    rw [class?] at known
    split at known
    next new =>
      obtain ⟨rfl, -, -⟩ := new
      cases known
      rw [last, interfaces_eq] at mem
      exact (homes i mem).of_grows grows
    · exact (layered.kept lineage grows (grounded.class_lt s' name c known)).2.2.2 s'
        ⟨name, known⟩ i mem

/-- What a unit is linked to as its interfaces belongs to the scope. -/
theorem Links.interface_homes {u : TypeUnit} {parent : Option ClassRef} {interfaces : List ClassRef}
    (links : e.Links s u parent interfaces) : ∀ i ∈ interfaces, e.Homes s i := by
  intro i mem
  have mem' : some i ∈ u.interfaces.map (e.class? s) := by
    rw [links.interfaces]
    exact List.mem_map_of_mem mem
  obtain ⟨name, -, known⟩ := List.mem_map.1 mem'
  exact ⟨name, known⟩

/-- What a class that is not a host implements belongs to the scope. -/
theorem PlainOrigin.interface_homes {spec : ClassSpec} (origin : e.PlainOrigin s spec) :
    ∀ i ∈ spec.interfaces, e.Homes s i := by
  cases origin with
  | unit u names parent interfaces verified links had named => exact links.interface_homes
  | contract typeName number shape => exact fun i mem => nomatch mem
  | executor ctx names number u contract known =>
    exact fun i mem => List.mem_singleton.1 mem ▸ known

/-- As long as no class is added everything stays in order. -/
theorem Layered.of_same (layered : e.Layered) (lineage : e.Lineage) (grounded : e.Grounded)
    (grows : e.Grows e') (size : e'.classes.size = e.classes.size)
    (class? : ∀ s name, e'.class? s name = e.class? s name) : e'.Layered := by
  have beyond {c : ClassRef} (ge : ¬ c < e.classes.size) : e'.classAt c = default :=
    classAt_of_le (size ▸ Nat.le_of_not_lt ge)
  refine ⟨fun c => ?_, fun c => ?_, fun c => ?_, fun s c home i mem => ?_⟩
  · by_cases lt : c < e.classes.size
    · exact (layered.kept lineage grows lt).1
    · rw [beyond lt]
      exact fun p mem => nomatch mem
  · by_cases lt : c < e.classes.size
    · exact (layered.kept lineage grows lt).2.1
    · rw [beyond lt]
      exact fun i mem => nomatch mem
  · by_cases lt : c < e.classes.size
    · exact (layered.kept lineage grows lt).2.2.1
    · rw [beyond lt]
      exact fun _ => rfl
  · obtain ⟨name, known⟩ := home
    rw [class?] at known
    exact (layered.kept lineage grows (grounded.class_lt s name c known)).2.2.2 s
      ⟨name, known⟩ i mem

theorem Edit.layered (edit : e.Edit e') (grounded : e.Grounded) (lineage : e.Lineage)
    (layered : e.Layered) : e'.Layered := by
  have grows := edit.grows
  rcases edit.adds with size | ⟨s, spec, cls, admits, origin, rfl⟩ |
      ⟨s, type, form, parent, interfaces, cls, manages, admits, rfl⟩
  · rcases edit.tables with ⟨same, -, -⟩ | ⟨s, spec, cls, -, -, rfl⟩ |
        ⟨s, type, form, parent, interfaces, cls, -, -, -, rfl⟩
    · exact layered.of_same lineage grounded grows size same
    · exact absurd ((size_addClass e s cls).symm.trans size) (Nat.succ_ne_self _)
    · exact absurd ((size_addClass (e.addType s type) s cls).symm.trans size) (Nat.succ_ne_self _)
  · obtain ⟨-, managed⟩ := origin.parent_homes
    refine layered.push lineage grounded grows admits (classAt_addClass e s cls)
      (class?_addClass e s cls) (fun _ => ?_) origin.interface_homes
    obtain ⟨id, rfl⟩ := admits.eq
    exact managed
  · obtain ⟨names, -, -, rfl⟩ := manages.hosted
    refine layered.push lineage grounded grows admits (classAt_addClass (e.addType s type) s cls)
      (fun s' name => ?_) (fun isInterface => ?_) manages.links.interface_homes
    · rw [class?_addClass, class?_addType]
      have scopes : (e.addType s type).scopes.size = e.scopes.size := by
        simp [addType, updateScope]
      rw [scopes]
      rfl
    · obtain ⟨id, rfl⟩ := admits.eq
      exact absurd (isInterface.symm.trans manages.inheritable) Bool.noConfusion

/-- In a reachable engine everything is in order. -/
theorem Reachable.layered (reachable : e.Reachable) : e.Layered := by
  obtain ⟨edits, -⟩ := reachable.edits
  clear reachable
  have all : e.Grounded ∧ e.Lineage ∧ e.Layered := by
    induction edits with
    | refl =>
      refine ⟨grounded_empty, (fun c lt => by cases lt), ?_⟩
      exact ⟨fun c p mem => (nomatch mem), fun c i mem => (nomatch mem), fun c _ => rfl,
        fun s c home i mem => (nomatch mem)⟩
    | tail _ edit ih =>
      obtain ⟨grounded, lineage, layered⟩ := ih
      exact ⟨edit.grounded grounded, edit.lineage lineage, edit.layered grounded lineage layered⟩
  exact all.2.2

/-- While code runs it stays so. -/
theorem During.layered (during : e.During e') (reachable : e.Reachable) : e'.Layered :=
  reachable.layered.of_same reachable.lineage reachable.grounded during.grows during.classes_size
    during.class?

section Above

variable (layered : e.Layered) (housed : e.Housed) (home : e.Homes s c)
include layered housed home

/-- What a class of a scope extends and implements was defined earlier, and is in the scope. -/
theorem Layered.above : ∃ spec, e.Describes c spec ∧
    ∀ d ∈ spec.parent.toList ++ spec.interfaces, d < c ∧ e.Homes s d := by
  obtain ⟨_, known⟩ := id home
  obtain ⟨spec, described, -, parents, -⟩ := housed.classes s _ c known
  refine ⟨spec, described, fun d mem => ?_⟩
  rcases List.mem_append.1 mem with extended | implemented
  · have extended := Option.mem_toList.1 extended
    exact ⟨described.parent_lt d extended, parents d extended⟩
  · exact ⟨described.interface_lt d implemented,
      layered.homes s c home d (described.interfaces_eq ▸ implemented)⟩

/-- So is everything in an order that is made from a class and the orders of what is above it. -/
theorem Layered.order_homes {order : Class → List ClassRef}
    (made : ∀ c spec, e.Describes c spec → ∃ places ⊆ spec.parent.toList ++ spec.interfaces,
      order (e.classAt c) = SearchOrder.joined ([c] :: (places.map e.classAt).map order)) :
    ∀ d ∈ order (e.classAt c), e.Homes s d := by
  induction c using Nat.strongRecOn with
  | ind c ih =>
    intro d mem
    obtain ⟨spec, described, above⟩ := layered.above housed home
    obtain ⟨places, within, eq⟩ := made c spec described
    rw [eq, mem_order] at mem
    rcases mem with rfl | ⟨p, p_mem, mem⟩
    · exact home
    · obtain ⟨lt, home_p⟩ := above p (within p_mem)
      exact ih p lt home_p d mem

/-- The classes that the host searches for a field of a class of a scope belong to the scope. -/
theorem Layered.fieldOrder_homes : ∀ d ∈ (e.classAt c).fieldOrder, e.Homes s d :=
  layered.order_homes housed home fun _ spec described =>
    ⟨spec.interfaces ++ spec.parent.toList,
      fun _ mem => List.mem_append.2 (List.mem_append.1 mem).symm, described.fieldOrder_eq⟩

/-- So do those that it searches for a method. -/
theorem Layered.methodOrder_homes : ∀ d ∈ (e.classAt c).methodOrder, e.Homes s d :=
  layered.order_homes housed home fun _ _ described =>
    ⟨_, List.Subset.refl _, described.methodOrder_eq⟩

/-- What a class extends, directly or not, is no interface. -/
theorem Layered.superclasses : ∀ d ∈ (e.classAt c).superclasses,
    (e.classAt d).isInterface = false := by
  induction c using Nat.strongRecOn with
  | ind c ih =>
    intro d mem
    obtain ⟨above, parents⟩ := housed.superclasses_eq home
    rw [above] at mem
    cases parent : (e.classAt c).parent with
    | none =>
      rw [parent] at mem
      cases mem
    | some p =>
      rw [parent] at mem
      rcases List.mem_cons.1 mem with rfl | mem
      · exact layered.parent c d parent
      · obtain ⟨lt, home_p⟩ := parents p parent
        exact ih p lt home_p d mem

end Above

end Engine

end LiveUpdate
