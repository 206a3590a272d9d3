import LiveUpdate.Proofs.Overriding

/-!
# Engines that are put together

The laws of classes and objects do not depend on how the scopes use them.  So an engine is
considered here that is put together in any way: classes are defined from whatever specifications,
objects are allocated, code runs, and scopes are operated.  Every class of it is as it was
specified, and every object has the slots of its class.
-/

set_option autoImplicit false

namespace LiveUpdate.Engine

open Exec

variable {e e' : Engine} {c : ClassRef}

/-- An engine that is put together from the empty one.  Every engine that operations lead to is
such an engine, and so it is at any moment while code runs. -/
inductive Assembled : Engine → Prop
  | empty : Assembled {}
  /-- A class is defined below classes that are there. -/
  | define {e : Engine} {spec : ClassSpec} {id : Nat} {cls : Class} (before : Assembled e)
      (parent_lt : ∀ p ∈ spec.parent, p < e.classes.size)
      (interface_lt : ∀ i ∈ spec.interfaces, i < e.classes.size)
      (defined : Class.define e.classes.size id spec (spec.parent.map e.classAt)
        (spec.interfaces.map e.classAt) = .ok cls) :
      Assembled { e with classes := e.classes.push cls }
  | allocate {e : Engine} {c : ClassRef} (before : Assembled e) (lt : c < e.classes.size) :
      Assembled (e.newObject c).2
  | operate {e e' : Engine} (before : Assembled e) (operation : e.Operation e') : Assembled e'
  | execute {e : Engine} (before : Assembled e) (s : ScopeRef) (fuel : Nat) (instr : Instr)
      (frame : Frame) : Assembled (((Machine.of s fuel).execute instr frame).final e)
  /-- Code gets on without touching an object: it enters or leaves a call, or it begins or ends
  the initialization of a class. -/
  | proceed {e e' : Engine} (before : Assembled e) (during : e.During e')
      (objects : e'.objects = e.objects) : Assembled e'

theorem Reachable.assembled (reachable : e.Reachable) : e.Assembled := by
  induction reachable with
  | refl => exact .empty
  | tail _ operation ih => exact ih.operate operation

/-- The class that was defined last. -/
def lastClass? (e : Engine) : Option ClassRef :=
  if e.classes.size = 0 then none else some (e.classes.size - 1)

/-- The engine with a class below the last one that is defined from a unit, if there can be one. -/
def extended (e : Engine) (u : TypeUnit) : Engine :=
  match Class.define e.classes.size 0 (.plain u e.lastClass? []) (e.lastClass?.map e.classAt) [] with
  | .ok cls => { e with classes := e.classes.push cls }
  | .error _ => e

theorem Assembled.extended (assembled : e.Assembled) (u : TypeUnit) :
    (e.extended u).Assembled := by
  have parent_lt : ∀ p ∈ e.lastClass?, p < e.classes.size := by
    intro p last
    unfold lastClass? at last
    split at last
    · cases last
    next some_ =>
      obtain rfl : e.classes.size - 1 = p := Option.some.inj last
      exact Nat.sub_one_lt some_
  unfold Engine.extended
  split
  next cls defined =>
    exact .define assembled parent_lt (fun i mem => absurd mem List.not_mem_nil) defined
  next => exact assembled

/-- What holds of classes however an engine is put together. -/
structure Orderly (e : Engine) : Prop where
  grounded : e.Grounded
  described : e.Described
  permits : ∀ c < e.classes.size, e.Permits c

section Classes

variable (orderly : e.Orderly) (grows : e.Grows e')
include orderly grows

theorem Orderly.of_sizes (grounded : e'.Grounded) (size : e'.classes.size = e.classes.size) :
    e'.Orderly := by
  refine ⟨grounded, fun c lt => ?_, fun c lt => ?_⟩
  · obtain ⟨spec, here⟩ := orderly.described c (size ▸ lt)
    exact ⟨spec, here.of_grows grows⟩
  · exact (orderly.permits c (size ▸ lt)).of_grows (size ▸ lt) grows orderly.grounded

/-- A class that is added is described, and it overrides no final method. -/
theorem Orderly.push (grounded : e'.Grounded) (size : e'.classes.size = e.classes.size + 1)
    {spec : ClassSpec} {id : Nat} {cls : Class} (described : e'.Describes e.classes.size spec)
    (parent_lt : ∀ p ∈ spec.parent, p < e.classes.size)
    (defined : Class.define e.classes.size id spec (spec.parent.map e.classAt)
      (spec.interfaces.map e.classAt) = .ok cls) : e'.Orderly := by
  have old_or_last {c : ClassRef} (lt : c < e'.classes.size) :
      c < e.classes.size ∨ c = e.classes.size := by
    rw [size] at lt
    exact Nat.lt_or_eq_of_le (Nat.le_of_lt_succ lt)
  refine ⟨grounded, fun c lt => ?_, fun c lt => ?_⟩
  · rcases old_or_last lt with old | rfl
    · obtain ⟨spec, here⟩ := orderly.described c old
      exact ⟨spec, here.of_grows grows⟩
    · exact ⟨spec, described⟩
  · rcases old_or_last lt with old | rfl
    · exact (orderly.permits c old).of_grows old grows orderly.grounded
    · exact described.permits defined fun p mem => grows.classAt p (parent_lt p mem)

omit grows in
theorem Orderly.during (during : e.During e') : e'.Orderly := by
  have types : e'.types.size = e.types.size := by
    have size := congrArg (fun e : Engine => e.types.size) during.skeleton
    simpa only [Engine.skeleton, Array.size_map] using size
  have grounded : e'.Grounded := orderly.grounded.of_same during.grows during.classes_size types
    during.scopes_size during.class?
  exact orderly.of_sizes during.grows grounded during.classes_size

omit grows in
/-- A class that is defined below what is there. -/
theorem Orderly.define {spec : ClassSpec} {id : Nat} {cls : Class}
    (parent_lt : ∀ p ∈ spec.parent, p < e.classes.size)
    (interface_lt : ∀ i ∈ spec.interfaces, i < e.classes.size)
    (defined : Class.define e.classes.size id spec (spec.parent.map e.classAt)
      (spec.interfaces.map e.classAt) = .ok cls) :
    ({ e with classes := e.classes.push cls } : Engine).Orderly := by
  have size : (e.classes.push cls).size = e.classes.size + 1 := Array.size_push _
  have at_ (c : ClassRef) : ({ e with classes := e.classes.push cls } : Engine).classAt c =
      if c = e.classes.size then cls else e.classAt c := getD_push _ _ _ _
  have named : cls.parent = spec.parent := by
    rw [(Class.define_eq_ok defined).1]
    rfl
  refine orderly.push (grows_pushClass cls) ⟨orderly.grounded.registry, ?_, ?_, ?_⟩ size
    (describes_pushClass parent_lt interface_lt defined) parent_lt defined
  · intro s name c known
    have before := orderly.grounded.class_lt s name c known
    exact Nat.lt_of_lt_of_eq (Nat.lt_succ_of_lt before) size.symm
  · intro c lt p parent
    rw [at_] at parent
    split at parent
    next last =>
      subst last
      exact parent_lt p (named ▸ parent)
    next old =>
      have lt : c < e.classes.size + 1 := Nat.lt_of_lt_of_eq lt size
      exact orderly.grounded.parent_lt c
        (Nat.lt_of_le_of_ne (Nat.le_of_lt_succ lt) old) p parent
  · intro t lt c native
    obtain ⟨before, scope⟩ := orderly.grounded.hosted t lt c native
    exact ⟨Nat.lt_of_lt_of_eq (Nat.lt_succ_of_lt before) size.symm, scope⟩

end Classes

theorem Edit.orderly (edit : e.Edit e') (orderly : e.Orderly) : e'.Orderly := by
  have grounded := edit.grounded orderly.grounded
  rcases edit.adds with same | ⟨s, spec, cls, admits, -, rfl⟩ |
      ⟨s, type, form, parent, interfaces, cls, -, admits, rfl⟩
  · exact orderly.of_sizes edit.grows grounded same
  · obtain ⟨id, defined⟩ := admits.defined
    exact orderly.push edit.grows grounded (size_addClass e s cls) admits.describes
      admits.parent_lt defined
  · obtain ⟨id, defined⟩ := admits.defined
    exact orderly.push edit.grows grounded (size_addClass (e.addType s type) s cls)
      (admits.describes.of_classes_eq rfl) admits.parent_lt defined

theorem Edits.orderly (edits : e.Edits e') (orderly : e.Orderly) : e'.Orderly := by
  induction edits with
  | refl => exact orderly
  | tail _ edit ih => exact edit.orderly ih

/-- Every object has as many slots as its class lays out. -/
def LaidOut (e : Engine) : Prop :=
  ∀ o < e.objects.size, (e.objectAt o).slots.length = (e.classOf o).instanceFields.length

theorem LaidOut.evolves (laidOut : e.LaidOut) (evolves : e.Evolves e') : e'.LaidOut := by
  intro o lt
  by_cases before : o < e.objects.size
  · unfold classOf
    rw [evolves.slots o before, evolves.cls o before, evolves.during.instanceFields]
    exact laidOut o before
  · exact evolves.seated o lt (Nat.le_of_not_lt before)

theorem LaidOut.rests {new : Class → Prop} (laidOut : e.LaidOut) (peopled : e.Peopled)
    (rests : e.Rests new e') : e'.LaidOut := by
  intro o lt
  rw [rests.objects] at lt
  rw [rests.objectAt, rests.classOf (peopled o lt)]
  exact laidOut o lt

/-- What holds of classes and objects however an engine is put together. -/
structure Solid (e : Engine) : Prop where
  orderly : e.Orderly
  peopled : e.Peopled
  laidOut : e.LaidOut

theorem solid_empty : Solid {} where
  orderly := ⟨grounded_empty, fun _ lt => (by cases lt), fun _ lt => (by cases lt)⟩
  peopled _ lt := by cases lt
  laidOut _ lt := by cases lt

theorem Solid.evolves (solid : e.Solid) (evolves : e.Evolves e') : e'.Solid where
  orderly := solid.orderly.during evolves.during
  peopled := solid.peopled.evolves evolves solid.orderly.grounded.class_lt
  laidOut := solid.laidOut.evolves evolves

theorem Solid.define (solid : e.Solid) {spec : ClassSpec} {id : Nat} {cls : Class}
    (parent_lt : ∀ p ∈ spec.parent, p < e.classes.size)
    (interface_lt : ∀ i ∈ spec.interfaces, i < e.classes.size)
    (defined : Class.define e.classes.size id spec (spec.parent.map e.classAt)
      (spec.interfaces.map e.classAt) = .ok cls) :
    ({ e with classes := e.classes.push cls } : Engine).Solid where
  orderly := solid.orderly.define parent_lt interface_lt defined
  peopled o lt := Nat.lt_of_lt_of_eq (Nat.lt_succ_of_lt (solid.peopled o lt))
    (Array.size_push _).symm
  laidOut o lt := by
    have same := classAt_push_of_lt (e := e) cls (solid.peopled o lt)
    refine (solid.laidOut o lt).trans ?_
    exact congrArg (fun c : Class => c.instanceFields.length) same.symm

theorem Solid.operate (solid : e.Solid) (operation : e.Operation e') : e'.Solid := by
  have orderly := Edits.orderly (operation.edits solid.orderly.grounded) solid.orderly
  obtain ⟨e₁, e₂, rests, ⟨evolves, -⟩, trace, rfl⟩ := operation.advances_untouched
  refine ⟨orderly, operation.peopled orderly.grounded solid.peopled, ?_⟩
  have later := (solid.laidOut.rests solid.peopled rests).evolves evolves
  exact later

theorem Assembled.solid (assembled : e.Assembled) : e.Solid := by
  induction assembled with
  | empty => exact solid_empty
  | define _ parent_lt interface_lt defined ih => exact ih.define parent_lt interface_lt defined
  | allocate _ lt ih => exact ih.evolves (evolves_newObject _ fun _ => lt)
  | operate _ operation ih => exact ih.operate operation
  | @execute e _ s fuel instr frame ih =>
    -- what an instruction does to classes and objects does not depend on the frame being sound
    have tame : e.Tame False ((Machine.of s fuel).execute instr frame) Machine.Stepped :=
      Machine.tame_execute (tame_of False s fuel) instr False.elim
    exact ih.evolves tame.evolves
  | @proceed e e' _ during objects ih =>
    have at_ (o : ObjectRef) : e'.objectAt o = e.objectAt o := by
      unfold objectAt
      rw [objects]
    refine ⟨ih.orderly.during during, fun o lt => ?_, fun o lt => ?_⟩
    · rw [objects] at lt
      rw [at_, during.classes_size]
      exact ih.peopled o lt
    · rw [objects] at lt
      unfold classOf
      rw [at_, during.instanceFields]
      exact ih.laidOut o lt

end LiveUpdate.Engine
