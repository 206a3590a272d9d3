import LiveUpdate.Proofs.BuiltClasses
import LiveUpdate.Proofs.DerivedBodies

/-!
# Parameters of inherited methods

Every class of a reachable engine was built by definitions.  The units that it was built from
seat the parameters of the methods that objects receive: those of accepted units do, what is
generated for inherited methods has the parameters of these, and the members of executors are
static and those of contracts abstract.  So a class seats what it inherits.
-/

set_option autoImplicit false

namespace LiveUpdate

/-- A class is built from the same units when code has run. -/
theorem Class.Built.of_skeleton_eq {accepts : TypeUnit → Prop} {c c' : Class}
    (built : c.Built accepts) (same : c'.skeleton = c.skeleton) : c'.Built accepts := by
  have rebuilt : c' = { c with statics := c'.statics, init := c'.init } := by
    have restored :=
      congrArg (fun c : Class => { c with statics := c'.statics, init := c'.init }) same
    exact restored
  rw [rebuilt]
  exact built.run _ _

namespace TypeUnit

variable {u : TypeUnit}

/-- Guards leave parameters alone. -/
theorem Seats.withGuards (seats : u.Seats) (options : Options) (names : NameTable) :
    (u.withGuards options names).Seats := by
  intro m mem concrete receives
  obtain ⟨origin, there, rfl⟩ := List.mem_map.1 mem
  exact seats origin there concrete receives

/-- The members of a contract have no bodies. -/
theorem seats_contractUnit (typeName : String) (number : Nat) (shape : TypeShape) :
    (contractUnit typeName number shape).Seats := by
  intro m mem concrete
  obtain ⟨member, -, rfl⟩ := List.mem_map.1 mem
  exact absurd (show (Modifiers.publicBit ||| .abstractBit).isAbstract = false from concrete)
    (by decide)

/-- The members of an executor have no receivers. -/
theorem seats_executorUnit (ctx : ExecutorContext) (options : Options) (names : NameTable)
    (number : Nat) : (ctx.executorUnit options names number u).Seats := by
  intro m mem _ receives
  obtain ⟨entry, -, rfl⟩ := List.mem_map.1 mem
  exact absurd (show (Modifiers.publicBit ||| .staticBit ||| .syntheticBit).isStatic = false from
    receives) (by decide)

/-- The host form seats the parameters of its own members, and those of what it inherits. -/
theorem Seats.hosted (seats : u.Seats) (id : TypeId) {parent : Option Class}
    (built : ∀ p ∈ parent, p.Built Seats) : (HostForm.ofUnit u id parent).unit.Seats := by
  intro m mem concrete receives
  rw [HostForm.methods_ofUnit] at mem
  obtain ⟨origin, there, rfl⟩ := List.mem_map.1 mem
  have sig : (HostForm.place u id parent origin).sig = origin.sig :=
    congrArg MemberKey.sig (HostForm.key_place u id parent origin)
  rw [sig]
  rcases List.mem_append.1 there with own | generated
  · refine seats origin own ?_ ?_
    · exact (HostForm.isAbstract_addCheck_widen _ _ origin).symm.trans concrete
    · rw [HostForm.modifiers_place] at receives
      exact (HostForm.modifiers_widen origin).2.1.symm.trans receives
  · obtain ⟨p, some_p, entry, inherited, made⟩ := HostForm.of_mem_generated u generated
    have room := ((built p some_p).arity_lt (fun _ accepted => accepted) inherited).2
    rcases made with rfl | rfl <;> exact room

end TypeUnit

namespace Engine

variable {e e' : Engine} {s : ScopeRef} {c : ClassRef}

/-- Every class was built by definitions from units that seat parameters. -/
def AllSeated (e : Engine) : Prop := ∀ c < e.classes.size, (e.classAt c).Built TypeUnit.Seats

theorem PlainOrigin.seats {spec : ClassSpec} (origin : e.PlainOrigin s spec) : spec.unit.Seats := by
  cases origin with
  | unit u names parent interfaces verified =>
    exact (TypeUnit.seats_of_verify verified).withGuards _ _
  | contract typeName number shape => exact TypeUnit.seats_contractUnit typeName number shape
  | executor ctx names number u contract => exact TypeUnit.seats_executorUnit ctx _ names number

/-- The parents of an admitted class are built, and so it is. -/
theorem AllSeated.admits (all : e.AllSeated) {spec : ClassSpec} {cls : Class}
    (admits : e.Admits s spec cls) (seats : spec.unit.Seats) : cls.Built TypeUnit.Seats := by
  obtain ⟨id, defined⟩ := admits.defined
  refine .define seats (fun p mem => ?_) defined
  obtain ⟨parent, some_p, rfl⟩ := Option.map_eq_some_iff.1 mem
  exact all parent (admits.parent_lt parent some_p)

theorem Edit.allSeated (edit : e.Edit e') (all : e.AllSeated) : e'.AllSeated := by
  have grows := edit.grows
  have old (c : ClassRef) (lt : c < e.classes.size) : (e'.classAt c).Built TypeUnit.Seats :=
    (all c lt).of_skeleton_eq (grows.classAt c lt)
  rcases edit.adds with same | ⟨s, spec, cls, admits, origin, rfl⟩ |
      ⟨s, type, form, parent, interfaces, cls, manages, admits, rfl⟩
  · exact fun c lt => old c (same ▸ lt)
  · intro c lt
    by_cases new : c = e.classes.size
    · rw [classAt_addClass, if_pos new]
      exact all.admits admits origin.seats
    · rw [size_addClass] at lt
      exact old c (Nat.lt_of_le_of_ne (Nat.le_of_lt_succ lt) new)
  · intro c lt
    by_cases new : c = e.classes.size
    · obtain ⟨names, -, -, rfl⟩ := manages.hosted
      have classes : (e.addType s type).classes.size = e.classes.size := rfl
      rw [classAt_addClass, if_pos (new.trans classes.symm)]
      refine all.admits admits (TypeUnit.Seats.hosted ?_ _ fun p mem => ?_)
      · exact (TypeUnit.seats_of_verify manages.verified).withGuards _ _
      · obtain ⟨p, some_p, rfl⟩ := Option.map_eq_some_iff.1 mem
        exact all p (admits.parent_lt p some_p)
    · rw [size_addClass] at lt
      exact old c (Nat.lt_of_le_of_ne (Nat.le_of_lt_succ lt) new)

/-- Running code builds no classes. -/
theorem During.allSeated (during : e.During e') (all : e.AllSeated) : e'.AllSeated := by
  intro c lt
  exact (all c (during.classes_size ▸ lt)).of_skeleton_eq (during.classAt c)

/-- The classes of reachable engines seat what they inherit. -/
theorem Reachable.allSeated (reachable : e.Reachable) : e.AllSeated := by
  obtain ⟨edits, -⟩ := reachable.edits
  clear reachable
  induction edits with
  | refl => exact fun c lt => by cases lt
  | tail _ edit ih => exact edit.allSeated ih

end Engine

end LiveUpdate
