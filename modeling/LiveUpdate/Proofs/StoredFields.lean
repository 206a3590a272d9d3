import LiveUpdate.Proofs.LinkedFields
import LiveUpdate.Proofs.StoreReads

/-!
# Fields kept in stores

An instance field that is new or has changed is kept in the store of the object.  A read of
it asks the store, and the first read of all may be answered with what the type used to
inherit: a field of the same name and type of a class that is not managed.  That field is
looked for above the class of the object, not above the type that declares the new one.

So the answer comes from above the type exactly when no class between the object's class and
the type has such a field.
-/

set_option autoImplicit false

namespace LiveUpdate

open Exec

namespace Engine

variable {e : Engine} {s : ScopeRef} {o : ObjectRef} {live : LiveField}

/-- The engine with another store in an object. -/
def withStore (e : Engine) (o : ObjectRef) (store : FieldStore) : Engine :=
  e.updateObject o fun object => { object with store := some store }

/-- What the store of an object answers to a read of a field, and the store afterwards. -/
def askStore (e : Engine) (s : ScopeRef) (o : ObjectRef) (live : LiveField) :
    Except RunError (Value × FieldSource) × FieldStore :=
  (e.storeOf o).get live.declaring live.name live.sig (e.scopeAt s).options.fieldPolicy
    (fun v => v.conforms e live.sig) fun store => (e.inheritedValue? s o live.name live.sig, store)

/-- What is not changed about an object is not changed about the engine. -/
theorem updateObject_congr (e : Engine) (o : ObjectRef) {f g : Object → Object}
    (same : f (e.objectAt o) = g (e.objectAt o)) : e.updateObject o f = e.updateObject o g := by
  have objects : e.objects.modify o f = e.objects.modify o g := by
    refine Array.ext (by simp only [Array.size_modify]) fun i _ lt => ?_
    rw [Array.size_modify] at lt
    rw [Array.getElem_modify, Array.getElem_modify]
    split
    next here =>
      subst here
      have there : e.objectAt o = e.objects[o] := dif_pos lt
      rw [← there, same]
    · rfl
  unfold updateObject
  rw [objects]

theorem updateObject_self (e : Engine) (o : ObjectRef) : e.updateObject o id = e := by
  have objects : e.objects.modify o id = e.objects := by
    refine Array.ext (by simp only [Array.size_modify]) fun i lt _ => ?_
    rw [Array.getElem_modify]
    split <;> rfl
  unfold updateObject
  rw [objects]

/-- An object that has an entry in its store is as it was with the store that it has. -/
theorem withStore_storeOf {declaring name : String} {value : Value}
    (held : (e.storeOf o).value? declaring name = some value) :
    e.withStore o (e.storeOf o) = e := by
  have kept : (e.objectAt o).store = some (e.storeOf o) := by
    unfold storeOf at held ⊢
    cases has : (e.objectAt o).store with
    | some store => rfl
    | none =>
      rw [has] at held
      cases held
  refine (e.updateObject_congr o ?_).trans (e.updateObject_self o)
  show { e.objectAt o with store := some (e.storeOf o) } = e.objectAt o
  rw [← kept]

end Engine

namespace Machine

variable {m : Machine} {e : Engine} {t : TypeRef} {live : LiveField}

/-- A read of a field that is kept in a store asks the store. -/
theorem readField_stored (kept : live.storedBy? = some t) (o : ObjectRef) :
    m.readField live (some o) e = match e.askStore m.scope o live with
      | (.ok (value, _), store) => .ok value (e.withStore o store)
      | (.error error, store) => .error (.error error) (e.withStore o store) := by
  unfold readField readStored
  rw [kept]
  dsimp only
  rw [bind_apply, ask_apply]
  dsimp only
  rw [bind_apply, ask_apply]
  have answer : e.readStore (e.storeOf o) (e.scopeAt m.scope).options.fieldPolicy live
      (e.inheritedValue? m.scope o live.name live.sig) =
        ((e.askStore m.scope o live).1.map Prod.fst, (e.askStore m.scope o live).2) := rfl
  dsimp only
  rw [answer]
  obtain ⟨answer, store⟩ := e.askStore m.scope o live
  rw [bind_apply, modify_apply]
  dsimp only
  rw [ofResult_apply]
  cases answer <;> rfl

/-- A write of a field that is kept in a store writes to the store. -/
theorem writeField_stored (kept : live.storedBy? = some t) (o : ObjectRef) (value : Value) :
    m.writeField live (some o) value e =
      if value.conforms e live.sig then
        .ok () (e.withStore o ((e.storeOf o).set live.declaring live.name value))
      else .error (.error (value.mismatch e live.sig.text)) e := by
  unfold writeField
  rw [kept, bind_apply, check_apply]
  unfold Value.checkConforms
  cases value.conforms e live.sig with
  | false => rfl
  | true => exact congrArg (EStateM.Result.ok ()) (e.updateObject_congr o rfl)

end Machine

namespace Engine

variable {e : Engine} {s : ScopeRef} {o : ObjectRef} {name : String} {sig : TypeSig} {v : Value}
  {b c d : ClassRef}

/-- A class that is not managed declares an instance field with a name and a type, and an
object has a value in the slot of this field. -/
structure Bequeaths (e : Engine) (s : ScopeRef) (o : ObjectRef) (name : String) (sig : TypeSig)
    (b : ClassRef) (v : Value) : Prop where
  unmanaged : e.managedOf? s b = none
  declares : ∃ f ∈ (e.classAt b).unit.fields, f.name = name ∧ f.isStatic = false ∧ f.sig = sig
  held : e.slotValue? o (e.nameOf b) name = some v

/-- What one class has for an object to inherit. -/
def bequest? (e : Engine) (s : ScopeRef) (o : ObjectRef) (name : String) (sig : TypeSig)
    (b : ClassRef) : Option Value :=
  if (e.managedOf? s b).isNone then
    match (e.classAt b).unit.fields.find? fun f => f.name = name && !f.isStatic with
    | some f => if f.sig = sig then e.slotValue? o (e.classAt b).name name else none
    | none => none
  else none

/-- What an object inherits is what the first superclass has for it that has anything. -/
theorem inheritedValue?_eq (e : Engine) (s : ScopeRef) (o : ObjectRef) (name : String)
    (sig : TypeSig) : e.inheritedValue? s o name sig =
      (e.classOf o).superclasses.findSome? (e.bequest? s o name sig) := by
  unfold inheritedValue?
  dsimp only
  induction (e.classOf o).superclasses with
  | nil => rfl
  | cons b above ih =>
    rw [List.findSome?_cons, ← ih]
    cases unmanaged : (e.managedOf? s b).isNone with
    | false =>
      rw [List.filter_cons_of_neg (by simp [unmanaged]), bequest?, unmanaged]
      rfl
    | true =>
      have here : e.bequest? s o name sig b = _ := if_pos unmanaged
      rw [List.filter_cons_of_pos (by simp [unmanaged]), List.findSome?_cons]
      exact here ▸ rfl

theorem Lineage.bequest?_eq_some_iff (lineage : e.Lineage) :
    e.bequest? s o name sig b = some v ↔ e.Bequeaths s o name sig b v := by
  unfold bequest?
  constructor
  · intro found
    split at found
    next unmanaged =>
      split at found
      next f declared =>
        split at found
        next typed =>
          have matching := List.find?_some declared
          simp only [Bool.and_eq_true, decide_eq_true_eq, Bool.not_eq_true'] at matching
          exact ⟨Option.isNone_iff_eq_none.1 unmanaged, ⟨f, List.mem_of_find?_eq_some declared,
            matching.1, matching.2, typed⟩, found⟩
        next => cases found
      next => cases found
    next => cases found
  · rintro ⟨unmanaged, ⟨f, mem, called, instance_, typed⟩, held⟩
    rw [unmanaged, Option.isNone_none, if_pos rfl]
    split
    next g declared =>
      -- no other field of the class goes by the name
      have matching := List.find?_some declared
      simp only [Bool.and_eq_true, decide_eq_true_eq] at matching
      obtain rfl := lineage.field_eq mem (List.mem_of_find?_eq_some declared)
        (called.trans matching.1.symm)
      rw [if_pos typed]
      exact held
    next absent =>
      have missed := List.find?_eq_none.1 absent f mem
      exact absurd (by simp [called, instance_]) missed

/-- What an object inherits is from the nearest superclass that has it. -/
theorem Lineage.exists_of_inheritedValue? (lineage : e.Lineage)
    (found : e.inheritedValue? s o name sig = some v) :
    ∃ below d above, (e.classOf o).superclasses = below ++ d :: above ∧
      e.Bequeaths s o name sig d v ∧ ∀ b ∈ below, ∀ w, ¬ e.Bequeaths s o name sig b w := by
  rw [inheritedValue?_eq, List.findSome?_eq_some_iff] at found
  obtain ⟨below, d, above, split, here, missed⟩ := found
  refine ⟨below, d, above, split, lineage.bequest?_eq_some_iff.1 here, fun b mem w has => ?_⟩
  cases (lineage.bequest?_eq_some_iff.2 has).symm.trans (missed b mem)

/-- A superclass of an object's class that stands below a class. -/
structure StandsBelow (e : Engine) (o : ObjectRef) (c b : ClassRef) : Prop where
  superclass : b ∈ (e.classOf o).superclasses
  other : b ≠ c
  notAbove : b ∉ (e.classAt c).superclasses

/-- A class of which an object is belongs to a scope, and the classes above it stand behind it. -/
theorem Housed.superclasses_from (housed : e.Housed) (lineage : e.Lineage)
    (lt : c < e.classes.size) (above : c ∈ (e.objectAt o).cls :: (e.classOf o).superclasses) :
    (e.classOf o).superclasses.Pairwise (· > ·) ∧
      (c = (e.objectAt o).cls ∨
        ∃ below, (e.classOf o).superclasses = below ++ c :: (e.classAt c).superclasses) := by
  have own_lt : (e.objectAt o).cls < e.classes.size := by
    rcases List.mem_cons.1 above with rfl | mem
    · exact lt
    · by_contra out
      unfold classOf at mem
      rw [classAt_of_le (Nat.le_of_not_lt out)] at mem
      cases mem
  obtain ⟨spec, founded⟩ := lineage _ own_lt
  obtain ⟨s, known⟩ := founded.known
  refine ⟨(housed.superclasses_descend ⟨_, known⟩).2, ?_⟩
  rcases List.mem_cons.1 above with same | mem
  · exact .inl same
  · exact .inr (housed.superclasses_split ⟨_, known⟩ mem)

/-- Of two superclasses of an object's class, the one of which something is inherited stands
above a class exactly when no class below that has anything to inherit. -/
theorem Housed.above_iff (housed : e.Housed) (lineage : e.Lineage) (lt : c < e.classes.size)
    (position : c ∈ (e.objectAt o).cls :: (e.classOf o).superclasses)
    (managed : e.managedOf? s c ≠ none) {below above : List ClassRef}
    (split : (e.classOf o).superclasses = below ++ d :: above)
    (inherits : e.Bequeaths s o name sig d v)
    (nearest : ∀ b ∈ below, ∀ w, ¬ e.Bequeaths s o name sig b w) :
    d ∈ (e.classAt c).superclasses ↔
      ∀ b, e.StandsBelow o c b → ∀ w, ¬ e.Bequeaths s o name sig b w := by
  have mem : d ∈ (e.classOf o).superclasses := by simp [split]
  constructor
  · intro higher b stands w has
    obtain ⟨descend, same | ⟨under, whole⟩⟩ := housed.superclasses_from lineage lt position
    · subst same
      exact stands.notAbove stands.superclass
    · -- `b` stands in front of the class, `d` behind it
      have front : b ∈ under := by
        have there := stands.superclass
        rw [whole] at there
        rcases List.mem_append.1 there with front | behind
        · exact front
        · rcases List.mem_cons.1 behind with same | upper
          · exact absurd same stands.other
          · exact absurd upper stands.notAbove
      have later : d < b := by
        rw [whole] at descend
        exact (List.pairwise_append.1 descend).2.2 b front d (List.mem_cons_of_mem _ higher)
      have there := stands.superclass
      rw [split] at there descend
      rcases List.mem_append.1 there with near | behind
      · exact nearest b near w has
      · rcases List.mem_cons.1 behind with same | upper
        · exact Nat.lt_irrefl _ (same ▸ later)
        · have earlier : b < d :=
            (List.pairwise_cons.1 (List.pairwise_append.1 descend).2.1).1 b upper
          exact Nat.lt_asymm later earlier
  · intro free
    by_contra lower
    have other : d ≠ c := fun same => managed (same ▸ inherits.unmanaged)
    exact free d ⟨mem, other, lower⟩ v inherits

end Engine

/-- A field of a managed type is kept in stores, and an object is of the type's host class or of
one below.  When a read of the field is answered with a value that was revealed, this is what
the object has in the slot of a field with the same name and type, which a class declares that
is not managed: the nearest such superclass of the object's class.  The class stands above the
type exactly when no class between the object's class and the type has such a field.  The
value is then kept as the entry of the field. -/
theorem revealed_from_above_iff {e₀ e : Engine} {t : TypeRef} {c : ClassRef} {f : FieldDef}
    {o : ObjectRef} {v : Value} {store : FieldStore}
    (reachable : e₀.Reachable) (during : e₀.During e) (managed : e.IsManaged t)
    (native : (e.typeAt t).native = some c)
    (stored : (e.typeAt t).fieldPlacement f = .store)
    (position : c ∈ (e.objectAt o).cls :: (e.classOf o).superclasses)
    (answer : e.askStore (e.typeAt t).scope o (e.fieldOf t c f) = (.ok (v, .revealed), store)) :
    (∀ m : Machine, m.scope = (e.typeAt t).scope →
      m.readField (e.fieldOf t c f) (some o) e = .ok v (e.withStore o store)) ∧
    store.value? (e.nameOf c) f.name = some v ∧
    ∃ below d above, (e.classOf o).superclasses = below ++ d :: above ∧
      e.Bequeaths (e.typeAt t).scope o f.name f.sig d v ∧
      (∀ b ∈ below, ∀ w, ¬ e.Bequeaths (e.typeAt t).scope o f.name f.sig b w) ∧
      (d ∈ (e.classAt c).superclasses ↔ ∀ b, e.StandsBelow o c b →
        ∀ w, ¬ e.Bequeaths (e.typeAt t).scope o f.name f.sig b w) := by
  have housed := during.housed reachable.housed reachable.grounded
  have lineage := during.lineage reachable.lineage
  obtain ⟨c', hosted⟩ := housed.hosts t managed
  obtain rfl : c = c' := Option.some.inj (native.symm.trans hosted.native)
  have lt : c < e.classes.size := during.classes_size ▸
    reachable.grounded.class_lt _ _ c ((during.class? _ _).symm.trans hosted.known)
  have belongs : e.managedOf? (e.typeAt t).scope c = some t := by
    unfold Engine.managedOf?
    rw [hosted.managed_eq]
    exact hosted.registered
  have kept : (e.fieldOf t c f).storedBy? = some t := if_pos stored
  obtain ⟨left, unanswered, revealed, -, entry⟩ := FieldStore.revealed_of_get answer
  obtain ⟨below, d, above, split, inherits, nearest⟩ := lineage.exists_of_inheritedValue? revealed
  refine ⟨fun m scope => ?_, entry, below, d, above, split, inherits, nearest, ?_⟩
  · rw [Machine.readField_stored kept, scope, answer]
  · exact housed.above_iff lineage lt position (by rw [belongs]; exact nofun) split inherits nearest

namespace Revealing

theorem ok_and_of_toOption {ε α σ : Type} {x : Except ε α × σ} {a : α}
    (answered : x.1.toOption = some a) : x = (.ok a, x.2) := by
  obtain ⟨answer, store⟩ := x
  rw [show answer = .ok a from Exec.ok_of_toOption answered]

def x : FieldDef := ⟨"x", .int, .publicBit, none, []⟩

/-- The type at the top. -/
def top (fields : List FieldDef) : TypeUnit :=
  { TypeUnit.named "app.S" with fields }.addDefaultConstructor

/-- A type below it that is not managed and has the field. -/
def middle : TypeUnit :=
  { (TypeUnit.named "lib.B").extending "app.S" with fields := [x] }.addDefaultConstructor

/-- The type at the bottom. -/
def bottom (fields : List FieldDef) : TypeUnit :=
  { (TypeUnit.named "app.T").extending "lib.B" with fields }.addDefaultConstructor

/-- A scope in which the first two were defined. -/
def upper : Engine :=
  ((Engine.opened { included := ["app.*"] }).defining 8 (top [])).defining 8 middle

def defined : Engine := upper.defining 8 (bottom [])

def made : Engine := ((Scope.Use.newInstance "app.T" .void []).perform 8 0).final defined

/-- The field was written in an object of the type at the bottom. -/
def written : Engine := ((Scope.Use.setField (.object 0) "x" (.int 5)).perform 8 0).final made

/-- Both managed types have got a field of that name and type. -/
def engine : Engine :=
  (written.reloading 8 0 "second" (top [x])).reloading 8 1 "second" (bottom [x])

set_option maxRecDepth 100000 in
theorem outcomes :
    (((Engine.opened { included := ["app.*"] }).defining 8 (top [])).scopes.size = 1 ∧
      upper.scopes.size = 1 ∧ written.types.size = 2 ∧
      (written.reloading 8 0 "second" (top [x])).types.size = 2) ∧
    (engine.IsManaged 0 ∧ (engine.typeAt 0).native = some 0 ∧ (engine.typeAt 0).scope = 0 ∧
      (engine.typeAt 0).live.shape.field? "x" = some x ∧
      (engine.typeAt 0).fieldPlacement x = .store) ∧
    (engine.IsManaged 1 ∧ (engine.typeAt 1).native = some 2 ∧ (engine.typeAt 1).scope = 0 ∧
      (engine.typeAt 1).fieldPlacement x = .store) ∧
    ((engine.objectAt 0).cls = 2 ∧ (engine.classAt 2).superclasses = [1, 0] ∧
      (engine.classAt 0).superclasses = []) ∧
    (engine.askStore 0 0 (engine.fieldOf 0 0 x)).1.toOption = some (.int 5, .revealed) ∧
    (engine.askStore 0 0 (engine.fieldOf 1 2 x)).1.toOption = some (.int 5, .revealed) := by
  decide +kernel

theorem reachable : engine.Reachable := by
  obtain ⟨⟨first, scopes, types, reloaded⟩, -⟩ := outcomes
  have opened : (Engine.opened { included := ["app.*"] }).Reachable := Engine.reachable_opened _
  have upper : upper.Reachable := (opened.defining 8 (top []) (by decide)).defining 8 middle
    (by rw [first]; exact Nat.one_pos)
  have written : written.Reachable :=
    ((upper.defining 8 (bottom []) (by rw [scopes]; exact Nat.one_pos)).step
      (.use 8 0 (.newInstance "app.T" .void []))).step
      (.use 8 0 (.setField (.object 0) "x" (.int 5)))
  exact (written.reloading 8 0 "second" (top [x]) (by rw [types]; exact Nat.two_pos)).reloading 8 1
    "second" (bottom [x]) (by rw [reloaded]; exact Nat.one_lt_two)

end Revealing

open Revealing in
/-- The new field of the type at the bottom reveals the one of the type in the middle, which is
above it. -/
theorem revealed_from_above_below_nothing :
    (∃ store, (Machine.of 0 8).readField (engine.fieldOf 1 2 x) (some 0) engine =
      .ok (.int 5) (engine.withStore 0 store)) ∧
    ∃ d ∈ (engine.classAt 2).superclasses, engine.Bequeaths 0 0 "x" .int d (.int 5) := by
  obtain ⟨-, -, ⟨managed, native, scope, placed⟩, ⟨cls, -, -⟩, -, answer⟩ := outcomes
  have reachable := reachable
  -- What matters about the engine is known; its definition is not to be unfolded.
  generalize engine = e at *
  have own : (2 : ClassRef) ∈ (e.objectAt 0).cls :: (e.classOf 0).superclasses := by
    rw [cls]
    exact List.mem_cons_self
  have answer : e.askStore (e.typeAt 1).scope 0 (e.fieldOf 1 2 x) =
      (.ok (.int 5, .revealed), (e.askStore 0 0 (e.fieldOf 1 2 x)).2) := by
    rw [scope]
    exact ok_and_of_toOption answer
  obtain ⟨reads, -, below, d, above, -, inherits, -, iff⟩ :=
    revealed_from_above_iff reachable (.refl e) managed native placed own answer
  rw [scope] at inherits
  refine ⟨⟨_, reads (Machine.of 0 8) scope.symm⟩, d, iff.2 fun b stands => ?_, inherits⟩
  have notAbove := stands.notAbove
  rw [← cls] at notAbove
  exact absurd stands.superclass notAbove

open Revealing in
/-- The new field of the type at the top reveals the one of the type in the middle too, which is
below it. -/
theorem revealed_from_above_of_below :
    ¬ ∀ (e : Engine) (t : TypeRef) (c : ClassRef) (f : FieldDef) (o : ObjectRef) (v : Value)
      (store : FieldStore), e.Reachable → e.IsManaged t → (e.typeAt t).native = some c →
      (e.typeAt t).live.shape.field? f.name = some f → f.isStatic = false →
      (e.typeAt t).fieldPlacement f = .store →
      c ∈ (e.objectAt o).cls :: (e.classOf o).superclasses →
      e.askStore (e.typeAt t).scope o (e.fieldOf t c f) = (.ok (v, .revealed), store) →
      ∃ d ∈ (e.classAt c).superclasses,
        e.Bequeaths (e.typeAt t).scope o f.name f.sig d v := by
  intro right
  obtain ⟨-, ⟨managed, native, scope, declared, placed⟩, -, ⟨cls, chain, top⟩, answer, -⟩ :=
    outcomes
  have reachable := reachable
  generalize engine = e at *
  have position : (0 : ClassRef) ∈ (e.objectAt 0).cls :: (e.classOf 0).superclasses := by
    unfold Engine.classOf
    rw [cls, chain]
    exact List.mem_cons_of_mem _ (List.mem_cons_of_mem _ List.mem_cons_self)
  have answer : e.askStore (e.typeAt 0).scope 0 (e.fieldOf 0 0 x) =
      (.ok (.int 5, .revealed), (e.askStore 0 0 (e.fieldOf 0 0 x)).2) := by
    rw [scope]
    exact ok_and_of_toOption answer
  obtain ⟨d, mem, -⟩ := right e 0 0 x 0 _ _ reachable managed native declared rfl placed position
    answer
  rw [top] at mem
  cases mem

end LiveUpdate
