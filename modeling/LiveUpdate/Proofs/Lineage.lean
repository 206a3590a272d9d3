import LiveUpdate.Proofs.Ancestry
import LiveUpdate.Proofs.ExecutorEntries
import LiveUpdate.Proofs.HeapTypes
import LiveUpdate.Proofs.Reachable
import LiveUpdate.Proofs.Verified

/-!
# Where classes and slots come from

Every class of a reachable engine was defined from a specification, and what it extends and
implements was defined before it.  So the slots of its instances go back to fields that its
superclasses and itself declare.  In an engine with one scope a class is told by its name and a
field of it by the name of the field, so a slot has the type that is declared under its names.
-/

set_option autoImplicit false

namespace LiveUpdate

/-- A search for a field finds one of the name. -/
theorem TypeShape.name_of_field? {shape : TypeShape} {name : String} {f : FieldDef}
    (found : shape.field? name = some f) : f.name = name := by
  simpa using List.find?_some found

namespace Engine

variable {e e' : Engine} {s : ScopeRef} {c d : ClassRef} {t : TypeRef}

/-- A class was defined from a specification whose fields have different names, and a scope
knows the class by its name. -/
structure Founded (e : Engine) (c : ClassRef) (spec : ClassSpec) : Prop where
  described : e.Describes c spec
  distinct : (spec.unit.fields.map FieldDef.name).Nodup
  known : ∃ s, e.class? s spec.unit.name = some c

/-- Every class is as some specification describes it. -/
def Described (e : Engine) : Prop := ∀ c < e.classes.size, ∃ spec, e.Describes c spec

/-- All classes go back to specifications. -/
def Lineage (e : Engine) : Prop := ∀ c < e.classes.size, ∃ spec, e.Founded c spec

theorem Lineage.described (lineage : e.Lineage) : e.Described := fun c lt =>
  (lineage c lt).imp fun _ founded => founded.described

theorem Founded.of_grows {spec : ClassSpec} (founded : e.Founded c spec) (grows : e.Grows e') :
    e'.Founded c spec := by
  obtain ⟨s, known⟩ := founded.known
  exact ⟨founded.described.of_grows grows, founded.distinct, s,
    grows.class? (scope_lt_of_class? known) known⟩

/-- The fields of a class that is not a host have different names. -/
theorem PlainOrigin.distinct {spec : ClassSpec} (origin : e.PlainOrigin s spec) :
    (spec.unit.fields.map FieldDef.name).Nodup := by
  cases origin with
  | unit u names parent interfaces verified links had named =>
    have distinct := TypeUnit.nodup_names_of_verify verified
    exact distinct
  | contract | executor => exact List.nodup_nil

/-- An edit that adds a class defines a plain one or a host. -/
theorem Edit.adds (edit : e.Edit e') : e'.classes.size = e.classes.size ∨
    (∃ s spec cls, e.Admits s spec cls ∧ e.PlainOrigin s spec ∧ e' = e.addClass s cls) ∨
    ∃ s type form parent interfaces cls, e.Manages s type form parent interfaces ∧
      e.Admits s (form.spec type.id parent interfaces) cls ∧
      e' = (e.addType s type).addClass s cls := by
  cases edit with
  | run same lawful =>
    exact .inl (During.of_skeleton_eq same).classes_size
  | addClass s spec cls admits origin => exact .inr (.inl ⟨s, spec, cls, admits, origin, rfl⟩)
  | manage s type form parent interfaces cls manages hosted admits =>
    exact .inr (.inr ⟨s, type, form, parent, interfaces, cls, manages, admits, rfl⟩)
  | _ => exact .inl rfl

theorem Lineage.push (lineage : e.Lineage) (grows : e.Grows e')
    (size : e'.classes.size = e.classes.size + 1)
    (last : ∃ spec, e'.Founded e.classes.size spec) : e'.Lineage := by
  intro c lt
  by_cases new : c = e.classes.size
  · exact new ▸ last
  · obtain ⟨spec, founded⟩ := lineage c (by omega)
    exact ⟨spec, founded.of_grows grows⟩

theorem Edit.lineage (edit : e.Edit e') (lineage : e.Lineage) : e'.Lineage := by
  have grows := edit.grows
  rcases edit.adds with same | ⟨s, spec, cls, admits, origin, rfl⟩ |
      ⟨s, type, form, parent, interfaces, cls, manages, admits, rfl⟩
  · intro c lt
    obtain ⟨spec, founded⟩ := lineage c (same ▸ lt)
    exact ⟨spec, founded.of_grows grows⟩
  · refine lineage.push grows (size_addClass e s cls)
      ⟨spec, admits.describes, origin.distinct, s, ?_⟩
    rw [class?_addClass, if_pos ⟨rfl, admits.scope_lt, admits.name_eq⟩]
  · obtain ⟨names, -, -, rfl⟩ := manages.hosted
    have distinct := TypeUnit.nodup_names_of_verify manages.verified
    refine lineage.push grows (size_addClass (e.addType s type) s cls)
      ⟨_, admits.describes.of_classes_eq rfl, distinct, s, ?_⟩
    have scope_lt : s < (e.addType s type).scopes.size := by
      simpa [Engine.addType, updateScope] using admits.scope_lt
    rw [class?_addClass, if_pos ⟨rfl, scope_lt, admits.name_eq⟩]
    rfl

/-- Classes that come about by edits go back to specifications. -/
theorem Edits.lineage (edits : Edits {} e) : e.Lineage := by
  induction edits with
  | refl => exact fun c lt => by cases lt
  | tail _ edit ih => exact edit.lineage ih

/-- The classes of reachable engines go back to specifications. -/
theorem Reachable.lineage (reachable : e.Reachable) : e.Lineage := Edits.lineage reachable.edits.1

/-- A class that is not there has nothing. -/
theorem classAt_of_le (beyond : e.classes.size ≤ c) : e.classAt c = default :=
  getD_of_le _ _ beyond

/-- A class that has something is there. -/
theorem lt_of_classAt (has : Class → Prop) (here : has (e.classAt c)) (empty : ¬ has default) :
    c < e.classes.size := by
  refine Nat.lt_of_not_le fun beyond => empty ?_
  rw [← classAt_of_le beyond]
  exact here

/-- What holds where there is no class, and of a class that goes back to something if it holds of
all that were there before, holds everywhere. -/
theorem classes_induction {origin : ClassRef → ClassSpec → Prop}
    (all : ∀ c < e.classes.size, ∃ spec, origin c spec) {motive : ClassRef → Prop}
    (absent : ∀ c, e.classAt c = default → motive c)
    (present : ∀ c spec, origin c spec → (∀ d < c, motive d) → motive c) (c : ClassRef) :
    motive c := by
  induction c using Nat.strongRecOn with
  | ind c ih =>
    by_cases lt : c < e.classes.size
    · obtain ⟨spec, here⟩ := all c lt
      exact present c spec here ih
    · exact absent c (classAt_of_le (Nat.le_of_not_lt lt))

section Described

variable (described : e.Described)
include described

theorem Described.induction {motive : ClassRef → Prop}
    (absent : ∀ c, e.classAt c = default → motive c)
    (present : ∀ c spec, e.Describes c spec → (∀ d < c, motive d) → motive c) (c : ClassRef) :
    motive c :=
  classes_induction described absent present c

/-- The superclasses of a class are its parent and the superclasses of that, which was there
before it. -/
theorem Described.superclasses_eq (c : ClassRef) :
    (e.classAt c).superclasses = (match (e.classAt c).parent with
      | some p => p :: (e.classAt p).superclasses
      | none => []) ∧
    ∀ p, (e.classAt c).parent = some p → p < c := by
  by_cases lt : c < e.classes.size
  · obtain ⟨spec, here⟩ := described c lt
    rw [here.superclasses_eq, here.parent_eq]
    refine ⟨?_, here.parent_lt⟩
    cases spec.parent <;> rfl
  · rw [classAt_of_le (Nat.le_of_not_lt lt)]
    exact ⟨rfl, fun p parent => nomatch parent⟩

/-- What holds of a class, and passes from a parent to every class that extends it, holds of all
classes below. -/
@[elab_as_elim]
theorem Described.below_induction {a : ClassRef} {motive : ClassRef → Prop} (first : motive a)
    (step : ∀ c spec p, e.Describes c spec → spec.parent = some p → motive p → motive c)
    (mem : a ∈ c :: (e.classAt c).superclasses) : motive c := by
  induction c using described.induction with
  | absent c absent =>
    rw [absent] at mem
    exact List.mem_singleton.1 mem ▸ first
  | present c spec here ih =>
    rcases List.mem_cons.1 mem with rfl | above
    · exact first
    · rw [here.superclasses_eq] at above
      cases parent : spec.parent with
      | none =>
        rw [parent] at above
        cases above
      | some p =>
        rw [parent] at above
        exact step c spec p here parent (ih p (here.parent_lt p parent) above)

/-- The superclasses of a class were there before it. -/
theorem Described.superclass_lt : ∀ d ∈ (e.classAt c).superclasses, d < c := by
  induction c using described.induction with
  | absent c absent =>
    intro d mem
    rw [absent] at mem
    cases mem
  | present c spec here ih =>
    intro d mem
    rw [here.superclasses_eq] at mem
    cases parent : spec.parent with
    | none =>
      rw [parent] at mem
      cases mem
    | some p =>
      have before := here.parent_lt p parent
      rw [parent] at mem
      rcases List.mem_cons.1 mem with rfl | mem
      · exact before
      · exact Nat.lt_trans (ih p before d mem) before

/-- A slot of the instances of a class is that of a field which the class or one above it
declares. -/
theorem Described.mem_instanceFields {slot : FieldSlot}
    (mem : slot ∈ (e.classAt c).instanceFields) : ∃ d ∈ c :: (e.classAt c).superclasses,
      ∃ f ∈ (e.classAt d).unit.fields, f.isStatic = false ∧ slot = Class.slotOf (e.nameOf d) f := by
  induction c using described.induction with
  | absent c absent =>
    rw [absent] at mem
    cases mem
  | present c spec here ih =>
    rw [here.instanceFields_eq] at mem
    rcases List.mem_append.1 mem with inherited | own
    · cases parent : spec.parent with
      | none =>
        rw [parent] at inherited
        cases inherited
      | some p =>
        rw [parent] at inherited
        obtain ⟨d, above, declares⟩ := ih p (here.parent_lt p parent) inherited
        refine ⟨d, List.mem_cons_of_mem _ ?_, declares⟩
        rw [here.superclasses_eq, parent]
        exact above
    · obtain ⟨f, f_mem, rfl⟩ := List.mem_map.1 own
      obtain ⟨declared, plain⟩ := List.mem_filter.1 f_mem
      refine ⟨c, List.mem_cons_self, f, ?_, by simpa using plain, ?_⟩
      · exact here.unit_eq ▸ declared
      · rw [here.nameOf_eq]

/-- A static slot of a class is that of a field which the class declares. -/
theorem Described.mem_staticFields {slot : FieldSlot} (mem : slot ∈ (e.classAt c).staticFields) :
    ∃ f ∈ (e.classAt c).unit.fields, f.isStatic = true ∧ slot = Class.slotOf (e.nameOf c) f := by
  induction c using described.induction with
  | absent c absent =>
    rw [absent] at mem
    cases mem
  | present c spec here _ =>
    rw [here.staticFields_eq] at mem
    obtain ⟨f, f_mem, rfl⟩ := List.mem_map.1 mem
    obtain ⟨declared, static⟩ := List.mem_filter.1 f_mem
    refine ⟨f, here.unit_eq ▸ declared, static, ?_⟩
    rw [here.nameOf_eq]

end Described

section Members

variable (lineage : e.Lineage)
include lineage

/-- The fields of a class have different names. -/
theorem Lineage.field_eq {f g : FieldDef} (mem : f ∈ (e.classAt c).unit.fields)
    (mem' : g ∈ (e.classAt c).unit.fields) (same : f.name = g.name) : f = g := by
  by_cases lt : c < e.classes.size
  · obtain ⟨spec, founded⟩ := lineage c lt
    rw [founded.described.unit_eq] at mem mem'
    exact List.inj_on_of_nodup_map founded.distinct mem mem' same
  · rw [classAt_of_le (Nat.le_of_not_lt lt)] at mem
    cases mem

theorem Lineage.induction {motive : ClassRef → Prop}
    (absent : ∀ c, e.classAt c = default → motive c)
    (founded : ∀ c spec, e.Founded c spec → (∀ d < c, motive d) → motive c) (c : ClassRef) :
    motive c :=
  classes_induction lineage absent founded c

theorem Lineage.superclass_lt : ∀ d ∈ (e.classAt c).superclasses, d < c :=
  lineage.described.superclass_lt

/-- The interfaces of a class were there before it. -/
theorem Lineage.interface_lt : ∀ i ∈ (e.classAt c).interfaces, i < c := by
  induction c using lineage.induction with
  | absent c absent =>
    intro i mem
    rw [absent] at mem
    cases mem
  | founded c spec founded _ =>
    intro i mem
    exact founded.described.interface_lt i (founded.described.interfaces_eq ▸ mem)

/-- A search order that begins with the class and goes on with those of classes that were there
before does not come to a class that was defined after it. -/
theorem Lineage.order_le {order : Class → List ClassRef} (empty : order default = [])
    (joined : ∀ d spec, e.Founded d spec → ∃ above : List Class,
      (∀ cls ∈ above, ∃ b < d, cls = e.classAt b) ∧
        order (e.classAt d) = SearchOrder.joined ([d] :: above.map order)) :
    ∀ d ∈ order (e.classAt c), d ≤ c := by
  induction c using lineage.induction with
  | absent c absent =>
    intro d mem
    rw [absent, empty] at mem
    cases mem
  | founded c spec founded ih =>
    intro d mem
    obtain ⟨above, before, order_eq⟩ := joined c spec founded
    rw [order_eq, SearchOrder.mem_joined] at mem
    obtain ⟨part, part_mem, mem⟩ := List.mem_flatten.1 mem
    rcases List.mem_cons.1 part_mem with rfl | part_mem
    · exact Nat.le_of_eq (List.mem_singleton.1 mem)
    · obtain ⟨cls, cls_mem, rfl⟩ := List.mem_map.1 part_mem
      obtain ⟨b, lt, rfl⟩ := before cls cls_mem
      exact Nat.le_of_lt (Nat.lt_of_le_of_lt (ih b lt d mem) lt)

omit lineage in
/-- What a class was defined from was there before it. -/
theorem Founded.above {spec : ClassSpec} (founded : e.Founded c spec) {cls : Class}
    (mem : cls ∈ spec.interfaces.map e.classAt ∨ cls ∈ (spec.parent.map e.classAt).toList) :
    ∃ b < c, cls = e.classAt b := by
  rcases mem with implemented | extended
  · obtain ⟨i, i_mem, rfl⟩ := List.mem_map.1 implemented
    exact ⟨i, founded.described.interface_lt i i_mem, rfl⟩
  · obtain ⟨p, p_mem, rfl⟩ := Option.map_eq_some_iff.1 (Option.mem_toList.1 extended)
    exact ⟨p, founded.described.parent_lt p p_mem, rfl⟩

/-- The classes that the host searches for a field of a class were not defined after it. -/
theorem Lineage.fieldOrder_le : ∀ d ∈ (e.classAt c).fieldOrder, d ≤ c := by
  refine lineage.order_le rfl fun d spec founded => ?_
  obtain ⟨id, fresh⟩ := founded.described.fresh
  exact ⟨_, fun cls mem => founded.above (List.mem_append.1 mem), congrArg Class.fieldOrder fresh⟩

/-- Nor were those that it searches for a method. -/
theorem Lineage.methodOrder_le : ∀ d ∈ (e.classAt c).methodOrder, d ≤ c := by
  refine lineage.order_le rfl fun d spec founded => ?_
  obtain ⟨id, fresh⟩ := founded.described.fresh
  exact ⟨_, fun cls mem => founded.above (List.mem_append.1 mem).symm,
    congrArg Class.methodOrder fresh⟩

theorem Lineage.mem_instanceFields {slot : FieldSlot}
    (mem : slot ∈ (e.classAt c).instanceFields) : ∃ d ∈ c :: (e.classAt c).superclasses,
      ∃ f ∈ (e.classAt d).unit.fields, f.isStatic = false ∧ slot = Class.slotOf (e.nameOf d) f :=
  lineage.described.mem_instanceFields mem

theorem Lineage.mem_staticFields {slot : FieldSlot} (mem : slot ∈ (e.classAt c).staticFields) :
    ∃ f ∈ (e.classAt c).unit.fields, f.isStatic = true ∧ slot = Class.slotOf (e.nameOf c) f :=
  lineage.described.mem_staticFields mem

end Members

section Search

/-- What a search for a field finds in one class. -/
def fieldIn? (e : Engine) (s : ScopeRef) (name : String) (c : ClassRef) : Option LiveField :=
  e.ownLiveField? s name c <|> e.interfaceField? name c

/-- A field that a name means for a class is found in a class of its chain. -/
theorem fieldIn?_of_resolveField {name : String} {live : LiveField}
    (found : e.resolveField s c name = .ok (some live)) :
    (e.liveChain s c).classes.findSome? (e.fieldIn? s name) = some live :=
  LiveChain.findSome?_eq_ok found

end Search

section Hosts

/-- What a class of a scope belongs to is a managed type of the scope. -/
theorem Housed.managed_of_managedOf? (housed : e.Housed) (managed : e.managedOf? s c = some t) :
    e.IsManaged t ∧ (e.typeAt t).scope = s := by
  obtain ⟨id, -, registered⟩ := Option.bind_eq_some_iff.1 managed
  obtain ⟨managed, scope, -⟩ := housed.types s id t registered
  exact ⟨managed, scope⟩

/-- A class that a scope knows, and that belongs to a managed type of the scope, is the host
class of the type. -/
theorem Housed.hosted_of_managedOf? (housed : e.Housed) (home : e.Homes s c)
    (managed : e.managedOf? s c = some t) : e.Hosted t c := by
  obtain ⟨name, known⟩ := home
  obtain ⟨spec, described, -, -, types⟩ := housed.classes s name c known
  obtain ⟨id, some_id, registered⟩ := Option.bind_eq_some_iff.1 managed
  obtain ⟨t', registered', native⟩ := types id (described.managed_eq ▸ some_id)
  obtain rfl : t = t' := Option.some.inj (registered.symm.trans registered')
  obtain ⟨host, hosted⟩ := housed.hosts t (housed.types s id t registered).1
  obtain rfl : host = c := Option.some.inj (hosted.native.symm.trans native)
  exact hosted

/-- The host class of a managed type carries the number of the type. -/
theorem Hosted.managed_eq (hosted : e.Hosted t c) :
    (e.classAt c).managed = some (e.typeAt t).id := by
  obtain ⟨names, parent, interfaces, -, -, -, described, -⟩ := hosted.form
  exact described.managed_eq

/-- The host class of a managed type declares the fields of the first version. -/
theorem Hosted.fields (hosted : e.Hosted t c) :
    (e.classAt c).unit.fields = (e.typeAt t).first.unit.fields := by
  obtain ⟨names, parent, interfaces, -, -, -, described, -⟩ := hosted.form
  rw [described.unit_eq]
  rfl

/-- A class whose live version has the supertype of the first one has the live parent that it
was defined with. -/
theorem Housed.liveParent_of_keeps (housed : e.Housed) (home : e.Homes s c)
    (keeps : ∀ t, e.managedOf? s c = some t →
      (e.typeAt t).live.shape.superName = (e.typeAt t).first.unit.superName) :
    e.liveParent s c = .ok (e.classAt c).parent := by
  unfold liveParent
  cases managed : e.managedOf? s c with
  | none => rfl
  | some t =>
    have hosted := housed.hosted_of_managedOf? home managed
    have scope := (housed.managed_of_managedOf? managed).2
    obtain ⟨names, parent, interfaces, -, -, links, described, -⟩ := hosted.form
    rw [scope] at links
    dsimp only
    rw [keeps t managed, described.parent_eq]
    have superclass := links.superclass
    show _ = Except.ok parent
    cases named : (e.typeAt t).first.unit.superName with
    | none =>
      rw [named] at superclass
      cases parent with
      | none => rfl
      | some p => cases superclass
    | some name =>
      rw [named] at superclass
      cases parent with
      | none => cases superclass
      | some p =>
        have known : e.class? s name = some p := Option.some.inj superclass
        dsimp only
        rw [known]

end Hosts

end Engine

end LiveUpdate
