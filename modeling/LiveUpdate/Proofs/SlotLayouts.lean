import LiveUpdate.Proofs.Assembling
import LiveUpdate.Proofs.Receivers

/-!
# Slot layouts

The instances of a class have the slots of its superclass first and then its own.  So a field that
is declared in a class has one place in the objects of all classes below, as long as the classes
of a chain have different names and so have the fields of a class.  An access of the field reads
and writes that place and no other.
-/

set_option autoImplicit false

namespace LiveUpdate

/-- The names that a slot is looked for by. -/
def FieldSlot.names (slot : FieldSlot) : String × String := (slot.declaring, slot.name)

namespace Engine

variable {e : Engine} {c d a b p : ClassRef} {o : ObjectRef}

section Layouts

variable (described : e.Described)
include described

/-- The slots of a superclass come first. -/
theorem Described.prefix_instanceFields (mem : a ∈ c :: (e.classAt c).superclasses) :
    (e.classAt a).instanceFields <+: (e.classAt c).instanceFields := by
  refine described.below_induction ?_ ?_ mem
  · exact List.prefix_refl _
  · intro c spec p here parent above
    rw [here.instanceFields_eq, parent]
    exact above.trans (List.prefix_append _ _)

/-- A place among the slots of a superclass is the same place below. -/
theorem Described.fieldSlot?_below (mem : a ∈ c :: (e.classAt c).superclasses)
    {declaring name : String} {i : Nat}
    (place : (e.classAt a).fieldSlot? declaring name = some i) :
    (e.classAt c).fieldSlot? declaring name = some i :=
  (described.prefix_instanceFields mem).findIdx?_eq_some place

end Layouts

/-- The classes of a chain have different names, and so have the fields of each. -/
structure Chained (e : Engine) (c : ClassRef) : Prop where
  classes : ((c :: (e.classAt c).superclasses).map e.nameOf).Nodup
  fields : ∀ d ∈ c :: (e.classAt c).superclasses, ((e.classAt d).unit.fields.map FieldDef.name).Nodup

/-- A field of a class has one place in the instances of a class below, and every class between
them has it there. -/
structure Placed (e : Engine) (c a : ClassRef) (f : FieldDef) (i : Nat) : Prop where
  slot : (e.classAt c).instanceFields[i]? = some (Class.slotOf (e.nameOf a) f)
  only : ∀ j slot, (e.classAt c).instanceFields[j]? = some slot →
    slot.declaring = e.nameOf a → slot.name = f.name → j = i
  found : ∀ b ∈ c :: (e.classAt c).superclasses, a ∈ b :: (e.classAt b).superclasses →
    (e.classAt b).fieldSlot? (e.nameOf a) f.name = some i

section Chains

variable (described : e.Described)
include described

theorem Described.chained_parent (chained : e.Chained c) (parent : (e.classAt c).parent = some p) :
    e.Chained p ∧ e.nameOf c ∉ (p :: (e.classAt p).superclasses).map e.nameOf := by
  have above := (described.superclasses_eq c).1
  rw [parent] at above
  obtain ⟨classes, fields⟩ := chained
  rw [above] at classes fields
  obtain ⟨fresh, classes⟩ := List.nodup_cons.1 classes
  exact ⟨⟨classes, fun d mem => fields d (List.mem_cons_of_mem _ mem)⟩, fresh⟩

/-- No two slots of an object are looked for by the same names. -/
theorem Described.nodup_instanceFields (chained : e.Chained c) :
    ((e.classAt c).instanceFields.map FieldSlot.names).Nodup := by
  induction c using described.induction with
  | absent c absent =>
    rw [absent]
    exact List.nodup_nil
  | present c spec here ih =>
    have own : (((spec.unit.fields.filter fun f => !f.isStatic).map
        (Class.slotOf spec.unit.name)).map FieldSlot.names).Nodup := by
      have distinct := chained.fields c List.mem_cons_self
      rw [here.unit_eq] at distinct
      have kept : (spec.unit.fields.filter fun f => !f.isStatic).Sublist spec.unit.fields :=
        List.filter_sublist
      refine List.Nodup.of_map Prod.snd ?_
      rw [List.map_map, List.map_map]
      exact distinct.sublist (kept.map FieldDef.name)
    rw [here.instanceFields_eq, List.map_append]
    cases parent : spec.parent with
    | none => exact own
    | some p =>
      obtain ⟨above, fresh⟩ := described.chained_parent chained (here.parent_eq.trans parent)
      -- an inherited slot has the name of a class above, which is not that of the class
      refine List.nodup_append.2 ⟨ih p (here.parent_lt p parent) above, own, ?_⟩
      rintro x inherited y mine rfl
      obtain ⟨slot, slot_mem, rfl⟩ := List.mem_map.1 inherited
      obtain ⟨slot', slot_mem', same⟩ := List.mem_map.1 mine
      obtain ⟨d, d_mem, f, -, -, rfl⟩ := described.mem_instanceFields slot_mem
      obtain ⟨f', -, rfl⟩ := List.mem_map.1 slot_mem'
      have named : spec.unit.name = e.nameOf d := congrArg Prod.fst same
      rw [here.nameOf_eq, named] at fresh
      exact fresh (List.mem_map_of_mem d_mem)

/-- So a slot of an object is told by its names. -/
theorem Described.place_eq (chained : e.Chained c) {i j : Nat} {slot slot' : FieldSlot}
    (there : (e.classAt c).instanceFields[i]? = some slot)
    (there' : (e.classAt c).instanceFields[j]? = some slot')
    (same : slot.names = slot'.names) : i = j := by
  refine (List.getElem?_inj ?_ (described.nodup_instanceFields chained)).1 ?_
  · rw [List.length_map]
    exact (List.getElem?_eq_some_iff.1 there).1
  · rw [List.getElem?_map, List.getElem?_map, there, there', Option.map_some, Option.map_some, same]

/-- A field of a class of a chain is placed: the class itself has a place for it, and below it is the
same place. -/
theorem Described.exists_placed (chained : e.Chained c)
    (mem : a ∈ c :: (e.classAt c).superclasses) {f : FieldDef}
    (declared : f ∈ (e.classAt a).unit.fields) (plain : f.isStatic = false) :
    ∃ i, e.Placed c a f i := by
  have own := described.slotOf_mem declared
  rw [plain] at own
  obtain ⟨i, place⟩ := described.exists_fieldSlot? declared plain
  have there : (e.classAt c).instanceFields[i]? = some (Class.slotOf (e.nameOf a) f) := by
    have below := described.fieldSlot?_below mem place
    obtain ⟨lt, -⟩ := List.findIdx?_eq_some_iff_getElem.1 below
    have held := List.getElem?_eq_getElem lt
    obtain ⟨-, declaring, called⟩ := Machine.declared_of_fieldSlot? below held
    obtain ⟨j, there⟩ := List.mem_iff_getElem?.1 ((described.prefix_instanceFields mem).subset own)
    have same := described.place_eq chained there held (Prod.ext declaring.symm called.symm)
    exact same ▸ there
  refine ⟨i, there, fun j slot there' declaring called => ?_, fun b _ between => ?_⟩
  · exact described.place_eq chained there' there (Prod.ext declaring called)
  · exact described.fieldSlot?_below between place

/-- An instance field that a class itself has under a name is declared there and has its place. -/
theorem Described.placed_of_ownField? (chained : e.Chained c)
    (mem : a ∈ c :: (e.classAt c).superclasses) {name : String} {i : Nat} {slot : FieldSlot}
    (own : (e.classAt a).ownField? name = some (i, slot)) (plain : slot.isStatic = false) :
    ∃ f ∈ (e.classAt a).unit.fields, f.name = name ∧ slot = Class.slotOf (e.nameOf a) f ∧
      e.Placed c a f i := by
  unfold Class.ownField? at own
  split at own
  next =>
    obtain ⟨slot', there, same⟩ := Option.map_eq_some_iff.1 own
    cases same
    obtain ⟨f, -, static, rfl⟩ := described.mem_staticFields (List.mem_of_getElem? there)
    have static : (Class.slotOf (e.nameOf a) f).isStatic = true := static
    cases plain.symm.trans static
  next =>
    split at own
    next declares =>
      obtain ⟨place, placed, own⟩ := Option.bind_eq_some_iff.1 own
      obtain ⟨slot', there, same⟩ := Option.bind_eq_some_iff.1 own
      cases same
      obtain ⟨f, declared, here⟩ := List.any_eq_true.1 declares
      obtain ⟨called, static⟩ : f.name = name ∧ f.isStatic = false := by simpa using here
      subst called
      obtain ⟨j, at_⟩ := described.exists_placed chained mem declared static
      have same : some i = some j := placed.symm.trans (at_.found a mem List.mem_cons_self)
      obtain rfl : i = j := Option.some.inj same
      have above := described.prefix_instanceFields mem
      obtain ⟨lt, rfl⟩ := List.getElem?_eq_some_iff.1 there
      refine ⟨f, declared, rfl, ?_, at_⟩
      have slot := at_.slot
      rw [List.getElem?_eq_getElem (Nat.lt_of_lt_of_le lt above.length_le), ← above.getElem lt]
        at slot
      exact Option.some.inj slot
    next => cases own

end Chains

/-! ### Accesses -/

/-- The engine with another value at a place of an object. -/
def withSlot (e : Engine) (o : ObjectRef) (i : Nat) (value : Value) : Engine :=
  e.updateObject o fun object => object.setSlot i value

section Slots

variable (there : o < e.objects.size) (i : Nat) (value : Value)
include there

theorem objectAt_withSlot :
    (e.withSlot o i value).objectAt o = (e.objectAt o).setSlot i value := by
  unfold withSlot
  rw [objectAt_updateObject e o _ there, if_pos rfl]

theorem classOf_withSlot : (e.withSlot o i value).classOf o = e.classOf o := by
  unfold classOf
  rw [objectAt_withSlot there]
  rfl

/-- What is looked for by names after a write. -/
theorem slotValue?_withSlot (declaring name : String) :
    (e.withSlot o i value).slotValue? o declaring name =
      ((e.classOf o).fieldSlot? declaring name).bind
        fun j => ((e.objectAt o).slots.set i value)[j]? := by
  unfold slotValue?
  rw [classOf_withSlot there, objectAt_withSlot there]
  rfl

end Slots

/-- What is looked for by the names in an object is what it has at the place: it is read there and
written there, and a write leaves everything else as it is. -/
structure KeptAt (e : Engine) (o : ObjectRef) (declaring name : String) (i : Nat) : Prop where
  read : ∀ missing, ∃ value, (e.objectAt o).slots[i]? = some value ∧
    e.readSlot o declaring name missing = .ok value
  write : ∀ value missing,
    Machine.writeSlot o declaring name value missing e = .ok () (e.withSlot o i value)
  written : ∀ value, (e.withSlot o i value).slotValue? o declaring name = some value
  kept : ∀ value declaring' name', (declaring', name') ≠ (declaring, name) →
    (e.withSlot o i value).slotValue? o declaring' name' = e.slotValue? o declaring' name'
  framed : ∀ value, ((e.withSlot o i value).objectAt o).store = (e.objectAt o).store ∧
    ∀ o' < e.objects.size, o' ≠ o → (e.withSlot o i value).objectAt o' = e.objectAt o'

/-- Other names have another place. -/
theorem place_ne_of_names_ne {cls : Class} {declaring name declaring' name' : String} {i j : Nat}
    (place : cls.fieldSlot? declaring name = some i)
    (place' : cls.fieldSlot? declaring' name' = some j)
    (other : (declaring', name') ≠ (declaring, name)) : i ≠ j := by
  rintro rfl
  obtain ⟨lt, -⟩ := List.findIdx?_eq_some_iff_getElem.1 place
  have held := List.getElem?_eq_getElem lt
  obtain ⟨-, rfl, rfl⟩ := Machine.declared_of_fieldSlot? place held
  obtain ⟨-, rfl, rfl⟩ := Machine.declared_of_fieldSlot? place' held
  exact other rfl

/-- Where an object has the slots of its class, a place that the class has for names keeps what is
looked for by them. -/
theorem keptAt_of_fieldSlot? (there : o < e.objects.size)
    (laidOut : (e.objectAt o).slots.length = (e.classOf o).instanceFields.length)
    {declaring name : String} {i : Nat}
    (place : (e.classOf o).fieldSlot? declaring name = some i) : e.KeptAt o declaring name i := by
  obtain ⟨lt, -⟩ := List.findIdx?_eq_some_iff_getElem.1 place
  have inside : i < (e.objectAt o).slots.length := laidOut ▸ lt
  refine ⟨fun missing => ?_, fun value missing => ?_, fun value => ?_, ?_, fun value => ?_⟩
  · refine ⟨_, List.getElem?_eq_getElem inside, ?_⟩
    unfold readSlot slotValue?
    rw [place, Option.bind_some, List.getElem?_eq_getElem inside]
  · unfold Machine.writeSlot Machine.putSlot
    rw [Exec.bind_apply, Exec.check_apply]
    unfold instanceSlot
    rw [place]
    dsimp only
    rw [Exec.bind_apply, Exec.check_apply]
    unfold checkSlot
    rw [if_pos inside]
    rfl
  · rw [slotValue?_withSlot there, place]
    exact List.getElem?_set_self inside
  · intro value declaring' name' other
    rw [slotValue?_withSlot there]
    unfold slotValue?
    cases place' : (e.classOf o).fieldSlot? declaring' name' with
    | none => rfl
    | some j => exact List.getElem?_set_ne (place_ne_of_names_ne place place' other)
  · refine ⟨by rw [objectAt_withSlot there]; rfl, fun o' lt' other => ?_⟩
    unfold withSlot
    rw [objectAt_updateObject e o _ lt', if_neg (Ne.symm other)]

/-- The instructions that access an instance field of the host read and write one place of an
object. -/
structure Serves (e : Engine) (o : ObjectRef) (host : HostField) : Prop where
  kept : e.KeptAt o host.slot.declaring host.slot.name host.index
  get : ∀ (m : Machine) (field : FieldRef) (f : Frame) (rest : List Value),
    m.hostField f.cls .get field e = .ok host e → f.stack = .object o :: rest →
    ∃ value, (e.objectAt o).slots[host.index]? = some value ∧
      m.accessHost .get field f e = .ok ((), { f with stack := value :: rest }) e
  put : ∀ (m : Machine) (field : FieldRef) (f : Frame) (value : Value) (rest : List Value),
    m.hostField f.cls .put field e = .ok host e → f.stack = value :: .object o :: rest →
    value.checkConforms e host.slot.sig = .ok () →
    m.accessHost .put field f e = .ok ((), { f with stack := rest })
      (e.withSlot o host.index value)

theorem KeptAt.serves {host : HostField}
    (kept : e.KeptAt o host.slot.declaring host.slot.name host.index) : e.Serves o host := by
  refine ⟨kept, ?_, ?_⟩
  · intro m field f rest found stacked
    obtain ⟨value, held, read⟩ := kept.read (.fieldMissing field)
    refine ⟨value, held, ?_⟩
    rw [Machine.accessHost_apply, found]
    dsimp only [Machine.accessFound]
    rw [Step.pop_bind stacked, Step.check_bind]
    dsimp only [fieldReceiver]
    rw [Step.check_bind, read]
    rfl
  · intro m field f value rest found stacked conforms
    rw [Machine.accessHost_apply, found]
    dsimp only [Machine.accessFound]
    rw [Step.pop_bind stacked, Step.pop_bind rfl, Step.check_bind]
    dsimp only [fieldReceiver]
    rw [Step.check_bind, conforms]
    dsimp only
    rw [Step.lift_apply, kept.write value (.fieldMissing field)]

end Engine

/-- The slots of superclasses come first, a field of a chain has one place in all objects of the
classes below, and an instance field that is found through any class is read and written at its
place, whatever the class of the object. -/
theorem slot_layout_inherited {e : Engine} {c : ClassRef} (assembled : e.Assembled)
    (chained : e.Chained c) :
    (∀ o < e.objects.size, (e.objectAt o).slots.length = (e.classOf o).instanceFields.length) ∧
    (∀ a ∈ (e.classAt c).superclasses,
      (e.classAt a).instanceFields <+: (e.classAt c).instanceFields) ∧
    (∀ a ∈ c :: (e.classAt c).superclasses, ∀ f ∈ (e.classAt a).unit.fields, f.isStatic = false →
      ∃ i, e.Placed c a f i ∧ ∀ o < e.objects.size, (e.objectAt o).cls = c →
        e.KeptAt o (e.nameOf a) f.name i) ∧
    ∀ b name host, e.hostField? b name = some host → host.slot.isStatic = false →
      host.cls ∈ c :: (e.classAt c).superclasses →
      (∃ f ∈ (e.classAt host.cls).unit.fields, f.name = name ∧
        host.slot = Class.slotOf (e.nameOf host.cls) f ∧ e.Placed c host.cls f host.index) ∧
      ∀ o < e.objects.size, (e.objectAt o).cls = c → e.Serves o host := by
  obtain ⟨⟨-, described, -⟩, -, laidOut⟩ := assembled.solid
  have kept {a : ClassRef} {f : FieldDef} {i : Nat} (placed : e.Placed c a f i) {o : ObjectRef}
      (there : o < e.objects.size) (cls : (e.objectAt o).cls = c)
      (mem : a ∈ c :: (e.classAt c).superclasses) : e.KeptAt o (e.nameOf a) f.name i := by
    refine Engine.keptAt_of_fieldSlot? there (laidOut o there) ?_
    have found := placed.found c List.mem_cons_self mem
    unfold Engine.classOf
    rw [cls]
    exact found
  refine ⟨laidOut, fun a mem => ?_, fun a mem f declared plain => ?_, ?_⟩
  · exact described.prefix_instanceFields (List.mem_cons_of_mem _ mem)
  · obtain ⟨i, placed⟩ := described.exists_placed chained mem declared plain
    exact ⟨i, placed, fun o there cls => kept placed there cls mem⟩
  · intro b name host found plain mem
    obtain ⟨d, -, here⟩ := List.exists_of_findSome?_eq_some found
    obtain ⟨⟨i, slot⟩, own, rfl⟩ := Option.map_eq_some_iff.1 here
    dsimp only at plain mem ⊢
    obtain ⟨f, declared, called, slotted, placed⟩ :=
      described.placed_of_ownField? chained mem own plain
    refine ⟨⟨f, declared, called, slotted, placed⟩, fun o there cls => ?_⟩
    refine Engine.KeptAt.serves ?_
    dsimp only
    rw [slotted]
    exact kept placed there cls mem

namespace Stacked

/-- A type with an instance field, and a static one in front of it. -/
def declaring (typeName : String) : TypeUnit :=
  ((TypeUnit.named typeName).addField ⟨"s", .int, .publicBit ||| .staticBit, none, []⟩).addField
    ⟨"n", .int, .publicBit, none, []⟩

/-- Three classes below each other, of which two have a field under one name. -/
def classes : Engine :=
  ((({} : Engine).extended (declaring "A")).extended (declaring "B")).extended (.named "C")

/-- The classes and an object of the lowest. -/
def engine : Engine :=
  (classes.newObject 2).2

set_option maxRecDepth 100000 in
theorem outcomes :
    classes.classes.size = 3 ∧
    engine.Chained 2 ∧ (engine.classAt 2).superclasses = [1, 0] ∧
    (engine.objects.size = 1 ∧ (engine.objectAt 0).cls = 2) ∧
    ((engine.hostField? 0 "n").map fun host => (host.cls, host.index, host.slot.isStatic)) =
      some (0, 0, false) ∧
    ((engine.hostField? 2 "n").map fun host => (host.cls, host.index, host.slot.isStatic)) =
      some (1, 1, false) := by
  refine ⟨by decide +kernel, ⟨?_, ?_⟩, ?_⟩
  all_goals decide +kernel

theorem assembled : engine.Assembled := by
  obtain ⟨three, -⟩ := outcomes
  have before : classes.Assembled := ((Engine.Assembled.empty.extended _).extended _).extended _
  refine before.allocate ?_
  rw [three]
  decide

end Stacked

open Stacked in
/-- In one object the name means one place through the uppermost class and another through the
lowest, and both are accessed. -/
theorem slot_layout_inherited_stacked : ∃ upper lower,
    (engine.hostField? 0 "n" = some upper ∧ upper.index = 0 ∧ engine.Serves 0 upper) ∧
    engine.hostField? 2 "n" = some lower ∧ lower.index = 1 ∧ engine.Serves 0 lower := by
  obtain ⟨-, chained, above, ⟨objects, cls⟩, far, near⟩ := outcomes
  have assembled := assembled
  generalize engine = e at *
  obtain ⟨upper, far, same⟩ := Option.map_eq_some_iff.1 far
  obtain ⟨lower, near, same'⟩ := Option.map_eq_some_iff.1 near
  obtain ⟨⟨upper_cls, upper_index, upper_kind⟩, lower_cls, lower_index, lower_kind⟩ :
      (upper.cls = 0 ∧ upper.index = 0 ∧ upper.slot.isStatic = false) ∧
      lower.cls = 1 ∧ lower.index = 1 ∧ lower.slot.isStatic = false := by
    simpa using And.intro same same'
  obtain ⟨-, -, -, served⟩ := slot_layout_inherited assembled chained
  rw [above] at served
  have there : 0 < e.objects.size := objects ▸ Nat.one_pos
  refine ⟨upper, lower, ⟨far, upper_index, ?_⟩, near, lower_index, ?_⟩
  · exact (served 0 "n" upper far upper_kind (by rw [upper_cls]; decide)).2 0 there cls
  · exact (served 2 "n" lower near lower_kind (by rw [lower_cls]; decide)).2 0 there cls

end LiveUpdate
