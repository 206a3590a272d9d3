import LiveUpdate.Proofs.Lineage
import LiveUpdate.Proofs.SuperDispatchers

/-!
# Members of host classes

A class has the methods of its unit, and virtual calls select from those and from what its
parent has.  In the host class of a managed type the methods of the first version stand with
the modifiers that they are declared with, whatever the host makes of them, and what was
generated beside them is open to everyone and not final.
-/

set_option autoImplicit false

namespace LiveUpdate

namespace Modifiers

/-- A bit that is not added is set if it was. -/
theorem contains_or (m : Modifiers) {added bit : Modifiers} (apart : added.bits &&& bit.bits = 0) :
    (m ||| added).contains bit = m.contains bit := by
  have same : (m.bits ||| added.bits) &&& bit.bits = m.bits &&& bit.bits := by
    have parts : (m.bits ||| added.bits) &&& bit.bits =
        (m.bits &&& bit.bits) ||| (added.bits &&& bit.bits) :=
      UInt32.eq_of_toBitVec_eq BitVec.and_or_distrib_right
    rw [parts, apart, UInt32.or_zero]
  show decide ((m.bits ||| added.bits) &&& bit.bits = bit.bits) = _
  rw [same]
  rfl

/-- A bit that is not taken away is set if it was. -/
theorem contains_without (m : Modifiers) {removed bit : Modifiers}
    (apart : ~~~removed.bits &&& bit.bits = bit.bits) :
    (m.without removed).contains bit = m.contains bit := by
  show decide (m.bits &&& ~~~removed.bits &&& bit.bits = bit.bits) = _
  rw [UInt32.and_assoc, apart]
  rfl

/-- The marks of a catcher are not about visibility. -/
theorem visibility_caught (m : Modifiers) :
    (m ||| .syntheticBit ||| .catcherBit).visibility = m.visibility := by
  have kept {bit : Modifiers} (apart : syntheticBit.bits &&& bit.bits = 0)
      (apart' : catcherBit.bits &&& bit.bits = 0) :
      (m ||| .syntheticBit ||| .catcherBit).contains bit = m.contains bit :=
    (contains_or _ apart').trans (contains_or m apart)
  unfold visibility
  rw [kept rfl rfl, kept rfl rfl, kept rfl rfl]

/-- What is made public was neither static nor final if it is not so afterwards. -/
theorem contains_withVisibility_everyone (m : Modifiers) {bit : Modifiers}
    (apart : ~~~(publicBit ||| privateBit ||| protectedBit).bits &&& bit.bits = bit.bits)
    (apart' : publicBit.bits &&& bit.bits = 0) :
    (m.withVisibility .everyone).contains bit = m.contains bit :=
  (contains_or _ apart').trans (contains_without m apart)

/-- What is made public is not private. -/
theorem isPrivate_withVisibility_everyone (m : Modifiers) :
    (m.withVisibility .everyone).isPrivate = false := by
  have cleared : (m.bits &&& ~~~(publicBit ||| privateBit ||| protectedBit).bits) &&& 2 = 0 := by
    rw [UInt32.and_assoc]
    exact UInt32.and_zero
  have open_ : ((m.without (publicBit ||| privateBit ||| protectedBit)) ||| publicBit).contains
      privateBit = (m.without (publicBit ||| privateBit ||| protectedBit)).contains privateBit :=
    contains_or _ rfl
  refine open_.trans (decide_eq_false fun set => ?_)
  exact absurd (cleared.symm.trans set) (by decide)

end Modifiers

namespace Class

/-- The method of a class under a key is made from the last of the unit with the key. -/
theorem get?_methodsOf (spec : ClassSpec) (key : MemberKey) :
    (methodsOf spec).get? key = (spec.unit.methods.reverse.find? fun m => m.key = key).map
      (bind spec.unit.name spec.declaredAccess) := by
  unfold methodsOf
  rw [Table.get?_putAll_nil, ← List.map_reverse, List.find?_map, Option.map_map]
  rfl

theorem nodup_methodsOf (spec : ClassSpec) : ((methodsOf spec).map Prod.fst).Nodup :=
  Table.nodup_putAll (t := []) List.nodup_nil _

theorem key_of_methodsOf {spec : ClassSpec} {key : MemberKey} {m : Method}
    (found : (methodsOf spec).get? key = some m) : m.key = key := by
  rw [get?_methodsOf] at found
  obtain ⟨own, here, rfl⟩ := Option.map_eq_some_iff.1 found
  have keyed : own.key = key := by simpa using List.find?_some here
  exact keyed

end Class

namespace Engine

variable {e : Engine} {c : ClassRef} {spec : ClassSpec} {key : MemberKey}

/-- Virtual calls select what a class declares, and otherwise what its parent has. -/
theorem Describes.get?_vtable (described : e.Describes c spec) (key : MemberKey) :
    (e.classAt c).vtable.get? key = (((e.classAt c).method? key).filter Method.isSelectable).or
      ((e.inheritedVtable c).get? key) := by
  obtain ⟨id, fresh⟩ := described.fresh
  have vtable : (e.classAt c).vtable =
      Table.putAll (((spec.parent.map e.classAt).map Class.vtable).getD [])
        ((Class.methodsOf spec).filter fun entry => entry.2.isSelectable) :=
    congrArg Class.vtable fresh
  have inherited : e.inheritedVtable c =
      ((spec.parent.map e.classAt).map Class.vtable).getD [] := by
    unfold inheritedVtable
    rw [described.parent_eq]
    cases spec.parent <;> rfl
  have distinct := Class.nodup_methodsOf spec
  have distinct' : (((Class.methodsOf spec).filter fun entry => entry.2.isSelectable).map
      Prod.fst).Nodup := distinct.sublist (List.filter_sublist.map _)
  rw [vtable, inherited, Table.get?_putAll_table _ distinct', Table.get?_filter distinct,
    Class.method?, described.methods_eq]

/-- In what virtual calls select every key occurs once. -/
theorem Lineage.nodup_vtable (lineage : e.Lineage) (c : ClassRef) :
    ((e.classAt c).vtable.map Prod.fst).Nodup := by
  induction c using lineage.induction with
  | absent c absent =>
    rw [absent]
    exact List.nodup_nil
  | founded c spec founded ih =>
    obtain ⟨id, fresh⟩ := founded.described.fresh
    have vtable : (e.classAt c).vtable =
        Table.putAll (((spec.parent.map e.classAt).map Class.vtable).getD [])
          ((Class.methodsOf spec).filter fun entry => entry.2.isSelectable) :=
      congrArg Class.vtable fresh
    rw [vtable]
    refine Table.nodup_putAll ?_ _
    cases parent : spec.parent with
    | none => exact List.nodup_nil
    | some p => exact ih p (founded.described.parent_lt p parent)

end Engine

namespace HostForm

variable (u : TypeUnit) (id : TypeId) (parent : Option Class)

/-- The members that the host has besides those of the unit. -/
def generated : List MethodDef :=
  ((parent.map (catchers u)).getD []).map Catcher.method ++
    (parent.map (superDispatchers u)).getD []

/-- A member as it stands in the host class. -/
def place (m : MethodDef) : MethodDef := addCheck id (ofUnit u id parent).slots (widen m)

theorem methods_ofUnit : (ofUnit u id parent).unit.methods =
    (u.methods ++ generated u parent).map (place u id parent) := by
  unfold generated
  rw [← List.append_assoc]
  rfl

@[simp] theorem key_place (m : MethodDef) : (place u id parent m).key = m.key :=
  key_addCheck_widen _ _ m

@[simp] theorem modifiers_place (m : MethodDef) :
    (place u id parent m).modifiers = (widen m).modifiers := by
  unfold place addCheck
  split
  · split <;> rfl
  · rfl

variable {u id parent}

/-- A generated member forwards to an inherited method and is not declared in the unit. -/
theorem mem_generated {m : MethodDef} (mem : m ∈ generated u parent) :
    u.method? m.key = none ∧ ∃ name owner key mark,
      m = forwardingMethod name owner key mark ∧
        (mark = .catcherBit ∨ mark = .superDispatcherBit) := by
  cases parent with
  | none => cases mem
  | some above =>
    rcases List.mem_append.1 mem with caught | dispatches
    · obtain ⟨catcher, listed, rfl⟩ := List.mem_map.1 caught
      obtain ⟨⟨key, m'⟩, inherited, rfl⟩ := List.mem_map.1 listed
      have free := (List.mem_filter.1 inherited).2
      simp only [Bool.and_eq_true, Option.isNone_iff_eq_none] at free
      exact ⟨free.2, _, _, _, _, rfl, .inl rfl⟩
    · obtain ⟨⟨key, m'⟩, -, made⟩ := List.mem_filterMap.1 dispatches
      dsimp only at made
      split at made
      · cases made
      next free =>
        cases made
        exact ⟨Option.not_isSome_iff_eq_none.1 free, _, _, _, _, rfl, .inr rfl⟩

/-- A generated member is open to everyone, and neither static nor final. -/
theorem modifiers_generated {m : MethodDef} (mem : m ∈ generated u parent) :
    m.modifiers.visibility = .everyone ∧ m.modifiers.isStatic = false ∧
      m.modifiers.isPrivate = false ∧ m.modifiers.isFinal = false := by
  obtain ⟨-, name, owner, key, mark, rfl, marked⟩ := mem_generated mem
  have modifiers : (forwardingMethod name owner key mark).modifiers =
      .publicBit ||| .syntheticBit ||| mark := rfl
  rw [modifiers]
  rcases marked with rfl | rfl <;> decide

/-- What is open to everyone is not widened. -/
theorem widen_generated {m : MethodDef} (mem : m ∈ generated u parent) :
    isWidened m = false ∧ widen m = m := by
  have open_ := (modifiers_generated mem).1
  have unwidened : isWidened m = false := by
    unfold isWidened
    rw [open_]
    rfl
  refine ⟨unwidened, ?_⟩
  unfold widen
  rw [if_neg (by simp [unwidened])]

/-- The host has a method of the unit under its key, and a generated member only under a key
that the unit does not declare. -/
theorem find?_methods (distinct : (u.methods.map MethodDef.key).Nodup) (key : MemberKey) :
    (ofUnit u id parent).unit.methods.reverse.find? (fun m => m.key = key) =
      ((u.method? key).or ((generated u parent).reverse.find? fun m => m.key = key)).map
        (place u id parent) := by
  have keyed : (fun m : MethodDef => decide (m.key = key)) ∘ place u id parent =
      fun m => decide (m.key = key) := by
    funext m
    simp
  rw [methods_ofUnit, ← List.map_reverse, List.find?_map, keyed, List.reverse_append,
    List.find?_append, find?_label_reverse distinct]
  congr 1
  show _ = (u.methods.find? fun m => m.key = key).or _
  cases own : u.methods.find? fun m => m.key = key with
  | none => rw [Option.or_none, Option.none_or]
  | some m =>
    have absent : (generated u parent).reverse.find? (fun m => m.key = key) = none := by
      refine List.find?_eq_none.2 fun g mem named => ?_
      have free := (mem_generated (List.mem_reverse.1 mem)).1
      rw [of_decide_eq_true named] at free
      exact absurd (own.symm.trans free) (Option.some_ne_none m)
    rw [absent, Option.none_or, Option.some_or]

/-- The modifiers that catchers stand for. -/
def caughtAccess (u : TypeUnit) (parent : Option Class) : Table MemberKey Modifiers :=
  Table.putAll [] (((parent.map (catchers u)).getD []).map fun c => (c.method.key, c.declared))

/-- What a catcher stands for is a method that virtual calls select in the parent. -/
theorem get?_caughtAccess {key : MemberKey} {m : Modifiers}
    (found : (caughtAccess u parent).get? key = some m) :
    u.method? key = none ∧ ∃ above ∈ parent, ∃ inherited, (key, inherited) ∈ above.vtable ∧
      m = inherited.declared ||| .syntheticBit ||| .catcherBit := by
  unfold caughtAccess at found
  rw [Table.get?_putAll_nil] at found
  obtain ⟨entry, here, rfl⟩ := Option.map_eq_some_iff.1 found
  have keyed : entry.1 = key := by simpa using List.find?_some here
  obtain ⟨catcher, mem, rfl⟩ := List.mem_map.1 (List.mem_reverse.1 (List.mem_of_find?_eq_some here))
  cases parent with
  | none => cases mem
  | some above =>
    obtain ⟨⟨key', inherited⟩, listed, rfl⟩ := List.mem_map.1 mem
    obtain ⟨mem', free⟩ := List.mem_filter.1 listed
    simp only [Bool.and_eq_true, Option.isNone_iff_eq_none] at free
    obtain rfl : key' = key := keyed
    exact ⟨free.2, above, rfl, inherited, (List.mem_filter.1 (List.mem_mergeSort.1 mem')).1, rfl⟩

/-- The declared modifiers that a host form records are those that catchers stand for, and those
of the widened methods of the unit. -/
theorem get?_declaredAccess (distinct : (u.methods.map MethodDef.key).Nodup) (key : MemberKey) :
    (ofUnit u id parent).declaredAccess.get? key = ((caughtAccess u parent).get? key).or
      (((u.method? key).filter isWidened).map MethodDef.modifiers) := by
  have access : (ofUnit u id parent).declaredAccess =
      ((u.methods ++ generated u parent).filter isWidened).foldl
        (fun t m => t.putNew m.key m.modifiers) (caughtAccess u parent) := by
    unfold generated
    rw [← List.append_assoc]
    rfl
  have none_generated : (generated u parent).filter isWidened = [] :=
    List.filter_eq_nil_iff.2 fun m mem => by simp [(widen_generated mem).1]
  rw [access, Table.get?_putNewAll, List.filter_append, none_generated, List.append_nil]
  congr 2
  refine Option.ext fun m => ?_
  unfold TypeUnit.method?
  rw [Option.filter_eq_some_iff]
  constructor
  · intro found
    have keyed : m.key = key := by simpa using List.find?_some found
    obtain ⟨mem, widened⟩ := List.mem_filter.1 (List.mem_of_find?_eq_some found)
    subst keyed
    exact ⟨find?_label_eq_some distinct mem, widened⟩
  · rintro ⟨found, widened⟩
    have keyed : m.key = key := by simpa using List.find?_some found
    have mem := List.mem_filter.2 ⟨List.mem_of_find?_eq_some found, widened⟩
    subst keyed
    exact find?_label_eq_some (distinct.sublist (List.filter_sublist.map _)) mem

end HostForm

/-! ### What the host makes of a first version -/

section Guarded

variable (u : TypeUnit) (options : Options) (names : NameTable)

/-- Guards leave the keys of methods alone. -/
theorem TypeUnit.keys_withGuards :
    (u.withGuards options names).methods.map MethodDef.key = u.methods.map MethodDef.key := by
  unfold withGuards
  exact List.map_map

/-- Guards leave the modifiers of methods alone. -/
theorem TypeUnit.modifiers_withGuards (key : MemberKey) :
    ((u.withGuards options names).method? key).map MethodDef.modifiers =
      (u.method? key).map MethodDef.modifiers := by
  unfold method? withGuards
  show ((u.methods.map _).find? _).map _ = _
  rw [List.find?_map, Option.map_map]
  rfl

end Guarded

/-- Making a method public changes neither its kind nor whether it is final, and does not make it
private. -/
theorem HostForm.modifiers_widen (m : MethodDef) :
    (widen m).modifiers.isFinal = m.modifiers.isFinal ∧
      (widen m).modifiers.isStatic = m.modifiers.isStatic ∧
      (m.modifiers.isPrivate = false → (widen m).modifiers.isPrivate = false) := by
  unfold widen
  split
  · exact ⟨Modifiers.contains_withVisibility_everyone _ (by decide) (by decide),
      Modifiers.contains_withVisibility_everyone _ (by decide) (by decide),
      fun _ => Modifiers.isPrivate_withVisibility_everyone _⟩
  · exact ⟨rfl, rfl, id⟩

/-- A method of a host class stands there with the modifiers of its declaration. -/
structure Method.Represents (b : Method) (access : Modifiers) : Prop where
  declared : b.declared = access
  isFinal : b.modifiers.isFinal = access.isFinal
  isStatic : b.modifiers.isStatic = access.isStatic
  isPrivate : access.isPrivate = false → b.modifiers.isPrivate = false

/-- A generated method of a host class is open to everyone, and it is declared so or as what it
was generated for. -/
structure Method.Generated (b : Method) (inherited : Option Method) : Prop where
  isFinal : b.modifiers.isFinal = false
  isStatic : b.modifiers.isStatic = false
  isPrivate : b.modifiers.isPrivate = false
  declared : b.declared.visibility = .everyone ∨
    ∃ above ∈ inherited, b.declared.visibility = above.declared.visibility

namespace Engine

variable {e : Engine} {t : TypeRef} {c : ClassRef} {key : MemberKey}

section Hosts

variable (hosted : e.Hosted t c) (verified : (e.typeAt t).first.unit.verify = .ok ())
include hosted verified

/-- Under a key of the first version the host class has the method of it, with its guards, in its
place among the members of the host class. -/
theorem Hosted.method?_placed {m : MethodDef}
    (declared : (e.typeAt t).first.unit.method? key = some m) : ∃ names above,
      let u := (e.typeAt t).first.unit.withGuards (e.optionsOf t) names
      let form := HostForm.ofUnit u (e.typeAt t).id above
      ∃ m', u.method? key = some m' ∧ m'.modifiers = m.modifiers ∧
        m'.code = relocate [] (withGuard (e.optionsOf t) names) m.code ∧
        form.slots.slots <+: (e.typeAt t).slots.slots ∧ (e.classAt c).method? key =
          some (Class.bind u.name form.declaredAccess (HostForm.place u (e.typeAt t).id above m')) := by
  obtain ⟨names, parent, interfaces, -, -, -, described, slots⟩ := hosted.form
  let u := (e.typeAt t).first.unit.withGuards (e.optionsOf t) names
  let above := parent.map fun p => (e.classAt p).skeleton
  let guarded (m : MethodDef) : MethodDef :=
    { m with code := relocate [] (withGuard (e.optionsOf t) names) m.code }
  have own : u.method? key = some (guarded m) := by
    have methods : u.methods = (e.typeAt t).first.unit.methods.map guarded := rfl
    unfold TypeUnit.method? at declared ⊢
    rw [methods, List.find?_map]
    exact congrArg (Option.map guarded) declared
  have distinct : (u.methods.map MethodDef.key).Nodup := by
    rw [TypeUnit.keys_withGuards]
    exact TypeUnit.nodup_keys_of_verify verified
  have found : (HostForm.ofUnit u (e.typeAt t).id above).unit.methods.reverse.find?
      (fun m => m.key = key) = some (HostForm.place u (e.typeAt t).id above (guarded m)) := by
    rw [HostForm.find?_methods distinct, own, Option.some_or]
    rfl
  refine ⟨names, above, guarded m, own, rfl, rfl, slots, ?_⟩
  unfold Class.method?
  rw [described.methods_eq, Class.get?_methodsOf]
  exact congrArg (Option.map _) found

/-- Under a key of the first version the host class has the method of it. -/
theorem Hosted.method?_declared {m : MethodDef}
    (declared : (e.typeAt t).first.unit.method? key = some m) :
    ∃ b, (e.classAt c).method? key = some b ∧ b.Represents m.modifiers := by
  obtain ⟨names, above, m', own, same, -, -, bound⟩ := hosted.method?_placed verified declared
  let u := (e.typeAt t).first.unit.withGuards (e.optionsOf t) names
  have distinct : (u.methods.map MethodDef.key).Nodup := by
    rw [TypeUnit.keys_withGuards]
    exact TypeUnit.nodup_keys_of_verify verified
  obtain ⟨final, static, private_⟩ := HostForm.modifiers_widen m'
  have keyed : m'.key = key := by simpa using List.find?_some own
  have uncaught : (HostForm.caughtAccess u above).get? key = none := by
    cases caught : (HostForm.caughtAccess u above).get? key with
    | none => rfl
    | some access =>
      obtain ⟨free, -⟩ := HostForm.get?_caughtAccess caught
      cases own.symm.trans free
  refine ⟨_, bound, ?_, ?_, ?_, fun open_ => ?_⟩
  · show (Table.get? _ (HostForm.place u (e.typeAt t).id above m').key).getD
      (HostForm.place u (e.typeAt t).id above m').modifiers = m.modifiers
    have own : u.method? key = some m' := own
    rw [HostForm.key_place, keyed, HostForm.get?_declaredAccess distinct, uncaught, own,
      Option.none_or, HostForm.modifiers_place, ← same]
    unfold HostForm.widen
    cases widened : HostForm.isWidened m' <;> simp [Option.filter, widened]
  · exact (congrArg Modifiers.isFinal (HostForm.modifiers_place ..)).trans (same ▸ final)
  · exact (congrArg Modifiers.isStatic (HostForm.modifiers_place ..)).trans (same ▸ static)
  · exact (congrArg Modifiers.isPrivate (HostForm.modifiers_place ..)).trans
      (private_ (same ▸ open_))

/-- Under any other key the host class has a member that was generated for its parent, or none.
The type has kept the slots of the form that the member was generated in. -/
theorem Hosted.exists_generated_placed {b : Method}
    (free : (e.typeAt t).first.unit.method? key = none)
    (found : (e.classAt c).method? key = some b) : ∃ names parent,
      let u := (e.typeAt t).first.unit.withGuards (e.optionsOf t) names
      let above := parent.map fun p => (e.classAt p).skeleton
      (e.classAt c).parent = parent ∧ u.method? key = none ∧
        (HostForm.ofUnit u (e.typeAt t).id above).slots.slots <+: (e.typeAt t).slots.slots ∧
        ∃ g ∈ HostForm.generated u above, g.key = key ∧
          b = Class.bind u.name (HostForm.ofUnit u (e.typeAt t).id above).declaredAccess
            (HostForm.place u (e.typeAt t).id above g) := by
  obtain ⟨names, parent, interfaces, -, -, -, described, grown⟩ := hosted.form
  let u := (e.typeAt t).first.unit.withGuards (e.optionsOf t) names
  let above := parent.map fun p => (e.classAt p).skeleton
  have distinct : (u.methods.map MethodDef.key).Nodup := by
    rw [TypeUnit.keys_withGuards]
    exact TypeUnit.nodup_keys_of_verify verified
  have free : u.method? key = none := by
    have modifiers := TypeUnit.modifiers_withGuards (e.typeAt t).first.unit (e.optionsOf t) names key
    rw [free] at modifiers
    exact Option.map_eq_none_iff.1 modifiers
  unfold Class.method? at found
  rw [described.methods_eq, Class.get?_methodsOf] at found
  obtain ⟨m, here, rfl⟩ := Option.map_eq_some_iff.1 found
  have here : (HostForm.ofUnit u (e.typeAt t).id above).unit.methods.reverse.find?
    (fun m => m.key = key) = some m := here
  rw [HostForm.find?_methods distinct, free, Option.none_or] at here
  obtain ⟨g, generated, rfl⟩ := Option.map_eq_some_iff.1 here
  have keyed : g.key = key := by simpa using List.find?_some generated
  exact ⟨names, parent, described.parent_eq, free, grown, g,
    List.mem_reverse.1 (List.mem_of_find?_eq_some generated), keyed, rfl⟩

theorem Hosted.exists_generated {b : Method} (free : (e.typeAt t).first.unit.method? key = none)
    (found : (e.classAt c).method? key = some b) : ∃ names parent,
      let u := (e.typeAt t).first.unit.withGuards (e.optionsOf t) names
      let above := parent.map fun p => (e.classAt p).skeleton
      (e.classAt c).parent = parent ∧ u.method? key = none ∧
        ∃ g ∈ HostForm.generated u above, g.key = key ∧
          b = Class.bind u.name (HostForm.ofUnit u (e.typeAt t).id above).declaredAccess
            (HostForm.place u (e.typeAt t).id above g) := by
  obtain ⟨names, parent, above, free, -, made⟩ :=
    hosted.exists_generated_placed verified free found
  exact ⟨names, parent, above, free, made⟩

/-- A generated member is open to everyone and not final, whatever it stands for. -/
theorem Hosted.method?_generated (lineage : e.Lineage) {b : Method}
    (free : (e.typeAt t).first.unit.method? key = none)
    (found : (e.classAt c).method? key = some b) :
    b.Generated ((e.inheritedVtable c).get? key) := by
  obtain ⟨names, parent, parent_eq, free, g, mem, keyed, rfl⟩ :=
    hosted.exists_generated verified free found
  let u := (e.typeAt t).first.unit.withGuards (e.optionsOf t) names
  let above := parent.map fun p => (e.classAt p).skeleton
  have distinct : (u.methods.map MethodDef.key).Nodup := by
    rw [TypeUnit.keys_withGuards]
    exact TypeUnit.nodup_keys_of_verify verified
  obtain ⟨open_, static, private_, final⟩ := HostForm.modifiers_generated mem
  have modifiers : (HostForm.place u (e.typeAt t).id above g).modifiers = g.modifiers := by
    rw [HostForm.modifiers_place, (HostForm.widen_generated mem).2]
  have declared : (Class.bind u.name (HostForm.ofUnit u (e.typeAt t).id above).declaredAccess
      (HostForm.place u (e.typeAt t).id above g)).declared =
        ((HostForm.caughtAccess u above).get? key).getD g.modifiers := by
    show (Table.get? _ (HostForm.place u (e.typeAt t).id above g).key).getD
      (HostForm.place u (e.typeAt t).id above g).modifiers = _
    rw [HostForm.key_place, keyed, HostForm.get?_declaredAccess distinct, free, modifiers]
    simp
  refine ⟨?_, ?_, ?_, ?_⟩
  · exact (congrArg Modifiers.isFinal modifiers).trans final
  · exact (congrArg Modifiers.isStatic modifiers).trans static
  · exact (congrArg Modifiers.isPrivate modifiers).trans private_
  · show (Class.bind u.name (HostForm.ofUnit u (e.typeAt t).id above).declaredAccess
      (HostForm.place u (e.typeAt t).id above g)).declared.visibility = _ ∨ _
    cases caught : (HostForm.caughtAccess u above).get? key with
    | none =>
      rw [caught] at declared
      exact .inl ((congrArg Modifiers.visibility declared).trans open_)
    | some access =>
      rw [caught] at declared
      obtain ⟨-, cls, some_cls, inherited, listed, rfl⟩ := HostForm.get?_caughtAccess caught
      obtain ⟨p, some_p, rfl⟩ := Option.map_eq_some_iff.1 some_cls
      have selected : (e.inheritedVtable c).get? key = some inherited := by
        unfold inheritedVtable
        rw [parent_eq.trans some_p]
        exact (Table.get?_eq_some_iff (lineage.nodup_vtable p)).2 listed
      refine .inr ⟨inherited, selected, ?_⟩
      exact (congrArg Modifiers.visibility declared).trans (Modifiers.visibility_caught _)

end Hosts

end Engine

end LiveUpdate
