import LiveUpdate.Machine.Basic
import LiveUpdate.Proofs.ConstructorCalls
import LiveUpdate.Proofs.Outcomes

/-!
# How the heap evolves

Running code allocates, writes, and initializes classes.  It takes nothing away: what a value
refers to stays in the heap and keeps its type, and a class that is initialized stays so.
The module says this for the steps that a computation changes the engine in, and how such
statements about the parts of a computation make one about the whole.
-/

set_option autoImplicit false

namespace LiveUpdate

open Exec

/-- What a value refers to is in the heap. -/
def Value.Exists (e : Engine) : Value → Prop
  | .object o => o < e.objects.size
  | .array a => a < e.arrays.size
  | _ => True

namespace Engine

variable {e e' e'' : Engine}

theorem During.trans (first : e.During e') (second : e'.During e'') : e.During e'' := by
  obtain ⟨depth, same⟩ := first
  obtain ⟨depth', same'⟩ := second
  refine ⟨depth', ?_⟩
  rw [same', skeleton_setDepth, same]
  rfl

theorem During.symm (during : e.During e') : e'.During e := by
  obtain ⟨depth, same⟩ := during
  exact ⟨e.depth, (congrArg (fun e'' : Engine => { e'' with depth := e.depth }) same).symm⟩

theorem During.of_skeleton_eq (same : e'.skeleton = e.skeleton) : e.During e' := ⟨e.depth, same⟩

theorem During.classes_size (during : e.During e') : e'.classes.size = e.classes.size := by
  have size := congrArg (fun e : Engine => e.classes.size) during.skeleton
  simpa only [Engine.skeleton, Array.size_map] using size

theorem During.scopes_size (during : e.During e') : e'.scopes.size = e.scopes.size := by
  have size := congrArg (fun e : Engine => e.scopes.size) during.skeleton
  simpa only [Engine.skeleton, Array.size_map] using size

theorem During.method? (during : e.During e') (c : ClassRef) (key : MemberKey) :
    (e'.classAt c).method? key = (e.classAt c).method? key := by
  have methods := congrArg Class.methods (during.classAt c)
  simp only [Class.skeleton] at methods
  unfold Class.method?
  rw [methods]

/-- The classes that scopes know exist. -/
def Known (e : Engine) : Prop := ∀ s name c, e.class? s name = some c → c < e.classes.size

theorem Known.during (known : e.Known) (during : e.During e') : e'.Known := by
  intro s name c found
  rw [during.class?] at found
  rw [during.classes_size]
  exact known s name c found

/-- What running code leaves of an engine: the classes and what is in the heap.  New objects are
of classes that some scope knows, and they have the slots of their classes. -/
structure Evolves (e e' : Engine) : Prop where
  during : e.During e'
  done : ∀ c, (e.classAt c).init = .done → (e'.classAt c).init = .done
  objects : e.objects.size ≤ e'.objects.size
  arrays : e.arrays.size ≤ e'.arrays.size
  cls : ∀ o < e.objects.size, (e'.objectAt o).cls = (e.objectAt o).cls
  element : ∀ a < e.arrays.size, (e'.arrayAt a).element = (e.arrayAt a).element
  fresh : e.Known → ∀ o < e'.objects.size, e.objects.size ≤ o →
    (e'.objectAt o).cls < e.classes.size
  slots : ∀ o < e.objects.size, (e'.objectAt o).slots.length = (e.objectAt o).slots.length
  seated : ∀ o < e'.objects.size, e.objects.size ≤ o →
    (e'.objectAt o).slots.length = (e'.classOf o).instanceFields.length

@[refl] theorem Evolves.refl (e : Engine) : e.Evolves e where
  during := During.refl e
  done _ done := done
  objects := Nat.le_refl _
  arrays := Nat.le_refl _
  cls _ _ := rfl
  element _ _ := rfl
  fresh _ _ lt added := absurd lt (Nat.not_lt_of_le added)
  slots _ _ := rfl
  seated _ lt added := absurd lt (Nat.not_lt_of_le added)

/-- Code does not change the layout of a class. -/
theorem During.instanceFields (during : e.During e') (c : ClassRef) :
    (e'.classAt c).instanceFields = (e.classAt c).instanceFields := by
  have same := congrArg Class.instanceFields (during.classAt c)
  exact same

/-- Neither does it change what the class extends and implements. -/
theorem During.isSubtypeOf (during : e.During e') (c : ClassRef) (name : String) :
    (e'.classAt c).isSubtypeOf name = (e.classAt c).isSubtypeOf name := by
  have names : (e'.classAt c).typeNames = (e.classAt c).typeNames := by
    have same := congrArg Class.typeNames (during.classAt c)
    exact same
  unfold Class.isSubtypeOf
  rw [names]

theorem Evolves.trans (first : e.Evolves e') (second : e'.Evolves e'') : e.Evolves e'' where
  during := first.during.trans second.during
  done c done := second.done c (first.done c done)
  objects := Nat.le_trans first.objects second.objects
  arrays := Nat.le_trans first.arrays second.arrays
  cls o lt := (second.cls o (Nat.lt_of_lt_of_le lt first.objects)).trans (first.cls o lt)
  element a lt := (second.element a (Nat.lt_of_lt_of_le lt first.arrays)).trans (first.element a lt)
  fresh known o lt added := by
    by_cases before : o < e'.objects.size
    · rw [second.cls o before]
      exact first.fresh known o before added
    · rw [← first.during.classes_size]
      exact second.fresh (known.during first.during) o lt (Nat.le_of_not_lt before)
  slots o lt :=
    (second.slots o (Nat.lt_of_lt_of_le lt first.objects)).trans (first.slots o lt)
  seated o lt added := by
    by_cases before : o < e'.objects.size
    · unfold classOf
      rw [second.slots o before, second.cls o before, second.during.instanceFields]
      exact first.seated o before added
    · exact second.seated o lt (Nat.le_of_not_lt before)

section Steps

variable (e)

/-- A lookup in an array in which one entry was changed, also beyond its end. -/
theorem getD_modify_or {α : Type} (xs : Array α) (i : Nat) (f : α → α) (j : Nat) (d : α) :
    (xs.modify i f).getD j d = if i = j ∧ j < xs.size then f (xs.getD j d) else xs.getD j d := by
  by_cases lt : j < xs.size
  · simp only [getD_modify xs i f j d lt, lt, and_true]
  · rw [if_neg fun here => lt here.2]
    simp [Array.getD_eq_getD_getElem?, lt]

/-- A class changes in what its skeleton does not show. -/
theorem evolves_updateClass (c : ClassRef) {f : Class → Class}
    (skeleton : ∀ cls, (f cls).skeleton = cls.skeleton)
    (done : (e.classAt c).init = .done → (f (e.classAt c)).init = .done) :
    e.Evolves (e.updateClass c f) := by
  refine { Evolves.refl e with
    during := .of_skeleton_eq (e.skeleton_updateClass c f skeleton)
    done := fun d initialized => ?_
    seated := fun _ lt added => absurd lt (Nat.not_lt_of_le added) }
  have at_ : (e.updateClass c f).classAt d =
      if c = d ∧ d < e.classes.size then f (e.classAt d) else e.classAt d :=
    getD_modify_or _ _ _ _ _
  rw [at_]
  split
  next here =>
    obtain ⟨rfl, -⟩ := here
    exact done initialized
  next => exact initialized

theorem evolves_beginInit (c : ClassRef) : e.Evolves (e.beginInit c).2 := by
  unfold beginInit
  split
  next pending =>
    refine e.evolves_updateClass c (fun _ => rfl) fun done => ?_
    rw [pending] at done
    cases done
  next => exact Evolves.refl e

theorem evolves_finishInit (c : ClassRef) : e.Evolves (e.finishInit c) :=
  e.evolves_updateClass c (fun _ => rfl) fun _ => rfl

theorem evolves_setStatic (c : ClassRef) (index : Nat) (value : Value) :
    e.Evolves (e.updateClass c fun cls => cls.setStatic index value) :=
  e.evolves_updateClass c (fun _ => rfl) fun done => done

theorem evolves_updateType (t : TypeRef) {f : ManagedType → ManagedType}
    (skeleton : ∀ type, (f type).skeleton = type.skeleton) : e.Evolves (e.updateType t f) :=
  { Evolves.refl e with during := .of_skeleton_eq (e.skeleton_updateType t f skeleton) }

theorem evolves_updateScope (s : ScopeRef) {f : Scope → Scope}
    (skeleton : ∀ scope, (f scope).skeleton = scope.skeleton) : e.Evolves (e.updateScope s f) :=
  { Evolves.refl e with during := .of_skeleton_eq (e.skeleton_updateScope s f skeleton) }

theorem evolves_setDepth (depth : Nat) : e.Evolves { e with depth } :=
  { Evolves.refl e with during := ⟨depth, rfl⟩ }

theorem objectAt_updateObject (o : ObjectRef) (f : Object → Object) {o' : ObjectRef}
    (lt : o' < e.objects.size) :
    (e.updateObject o f).objectAt o' = if o = o' then f (e.objectAt o') else e.objectAt o' :=
  getD_modify _ _ _ _ _ lt

theorem arrayAt_updateArray (a : ArrayRef) (f : ArrayCell → ArrayCell) {a' : ArrayRef}
    (lt : a' < e.arrays.size) :
    (e.updateArray a f).arrayAt a' = if a = a' then f (e.arrayAt a') else e.arrayAt a' :=
  getD_modify _ _ _ _ _ lt

/-- An object changes, but neither its class nor the number of its slots. -/
theorem evolves_updateObject (o : ObjectRef) {f : Object → Object}
    (cls : ∀ object, (f object).cls = object.cls)
    (slots : ∀ object, (f object).slots.length = object.slots.length) :
    e.Evolves (e.updateObject o f) := by
  refine { Evolves.refl e with
    during := .of_skeleton_eq rfl
    objects := by simp [updateObject]
    cls := fun o' lt => ?_
    fresh := fun _ o' lt added => absurd lt (by simpa [updateObject] using added)
    slots := fun o' lt => ?_
    seated := fun o' lt added => absurd lt (by simpa [updateObject] using added) }
  · rw [e.objectAt_updateObject o f lt]
    split
    · exact cls _
    · rfl
  · rw [e.objectAt_updateObject o f lt]
    split
    · exact slots _
    · rfl

/-- An array changes, but not the type of its elements. -/
theorem evolves_updateArray (a : ArrayRef) {f : ArrayCell → ArrayCell}
    (element : ∀ cell, (f cell).element = cell.element) : e.Evolves (e.updateArray a f) := by
  refine { Evolves.refl e with
    during := .of_skeleton_eq rfl
    arrays := by simp [updateArray]
    element := fun a' lt => ?_ }
  rw [e.arrayAt_updateArray a f lt]
  split
  · exact element _
  · rfl

/-- A new object has the slots of its class, each with the zero of its type. -/
theorem objectAt_newObject (c : ClassRef) : (e.newObject c).2.objectAt e.objects.size =
    ⟨c, (e.classAt c).instanceFields.map fun f => Value.zeroOf f.sig, none⟩ := by
  simp [newObject, Engine.objectAt]

theorem evolves_newObject {c : ClassRef} (exists_ : e.Known → c < e.classes.size) :
    e.Evolves (e.newObject c).2 := by
  have last {o : ObjectRef} (lt : o < (e.newObject c).2.objects.size)
      (added : e.objects.size ≤ o) : o = e.objects.size := by
    have lt : o < e.objects.size + 1 := by simpa [newObject] using lt
    exact Nat.le_antisymm (Nat.le_of_lt_succ lt) added
  refine { Evolves.refl e with
    during := .of_skeleton_eq rfl
    objects := by simp [newObject]
    cls := fun _ lt => congrArg Object.cls (getD_push_of_lt _ _ _ _ lt)
    fresh := fun known o lt added => ?_
    slots := fun _ lt => congrArg (fun object : Object => object.slots.length)
      (getD_push_of_lt _ _ _ _ lt)
    seated := fun o lt added => ?_ }
  · obtain rfl := last lt added
    rw [e.objectAt_newObject c]
    exact exists_ known
  · obtain rfl := last lt added
    unfold classOf
    rw [e.objectAt_newObject c]
    exact List.length_map _

theorem evolves_newArray (cell : ArrayCell) : e.Evolves (e.newArray cell).2 :=
  { Evolves.refl e with
    during := .of_skeleton_eq rfl
    arrays := by simp [newArray]
    element := fun _ lt => congrArg ArrayCell.element (getD_push_of_lt _ _ _ _ lt) }

end Steps

end Engine

/-- What exists goes on to exist. -/
theorem Value.Exists.mono {e e' : Engine} {v : Value} (there : v.Exists e)
    (evolves : e.Evolves e') : v.Exists e' := by
  cases v with
  | object o => exact Nat.lt_of_lt_of_le there evolves.objects
  | array a => exact Nat.lt_of_lt_of_le there evolves.arrays
  | _ => trivial

/-- What exists goes on to have the types that it has. -/
theorem Value.Exists.conforms {e e' : Engine} {v : Value} (there : v.Exists e)
    (evolves : e.Evolves e') (sig : TypeSig) : v.conforms e' sig = v.conforms e sig := by
  cases v with
  | object o =>
    cases sig with
    | ref name =>
      show (e'.classAt (e'.objectAt o).cls).isSubtypeOf name = (e.classOf o).isSubtypeOf name
      rw [evolves.cls o there]
      exact evolves.during.isSubtypeOf _ name
    | _ => rfl
  | array a =>
    cases sig with
    | array declared =>
      show (e'.arrayAt a).element.elementConforms declared = _
      rw [evolves.element a there]
      rfl
    | _ => rfl
  | _ => cases sig <;> rfl

end LiveUpdate
