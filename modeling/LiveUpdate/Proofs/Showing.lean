import LiveUpdate.Proofs.LinkedFields
import LiveUpdate.Proofs.Metadata
import LiveUpdate.Proofs.Overriding

/-!
# What a type shows

Reflection lists the members of the shape that a type has now, without the generated ones.  Where
nothing that a shape lists is generated, it lists the field and the method that a live reference
finds in the type under the same name or key, with the same signature and the same modifiers.
-/

set_option autoImplicit false

namespace LiveUpdate

open Exec

/-- Two names are shown in their order. -/
theorem MethodShape.sorted_pair (a b : String) :
    sorted [a, b] = if a ≤ b then [a, b] else [b, a] := by
  unfold sorted
  simp [List.mergeSort, List.MergeSort.Internal.splitInTwo, List.merge]

/-- A field that reflection reports is the one that live versions declare. -/
structure FieldInfo.Names (info : FieldInfo) (live : LiveField) : Prop where
  declaring : info.declaring = live.declaring
  sig : info.member.sig = live.sig
  modifiers : info.member.modifiers = live.modifiers

/-- A method that reflection reports is the one that live versions declare. -/
structure MethodInfo.Names (info : MethodInfo) (live : LiveMethod) : Prop where
  declaring : info.declaring = live.declaring
  modifiers : info.member.modifiers = live.modifiers

/-- A key of a method that is inherited. -/
def MemberKey.isPlain (key : MemberKey) : Bool := !key.isConstructor && !key.isStaticInit

/-- Nothing that a shape lists is generated. -/
structure TypeShape.Plain (shape : TypeShape) : Prop where
  fields : ∀ f ∈ shape.fields, f.modifiers.isSynthetic = false
  methods : ∀ m ∈ shape.plainMethods, m.modifiers.isSynthetic = false

instance (shape : TypeShape) : Decidable shape.Plain :=
  decidable_of_iff ((∀ f ∈ shape.fields, f.modifiers.isSynthetic = false) ∧
      ∀ m ∈ shape.plainMethods, m.modifiers.isSynthetic = false)
    ⟨fun h => ⟨h.1, h.2⟩, fun h => ⟨h.fields, h.methods⟩⟩

namespace TypeShape.Plain

variable {shape : TypeShape} (plain : shape.Plain)
include plain

/-- Reflection reports the field of a name. -/
theorem field?_ofShape (version : Nat) (name : String) :
    (TypeMetadata.ofShape shape version).field? name =
      (shape.field? name).map (Declared.mk shape.name) := by
  have listed : (shape.fields.filter fun f => !f.modifiers.isSynthetic) = shape.fields :=
    List.filter_eq_self.2 fun f mem => by rw [plain.fields f mem]; rfl
  unfold TypeMetadata.field? TypeMetadata.ofShape
  dsimp only
  rw [listed, List.find?_map]
  rfl

/-- Reflection reports the method of a key that is inherited. -/
theorem method?_ofShape (version : Nat) {key : MemberKey} (inherited : key.isPlain = true) :
    (TypeMetadata.ofShape shape version).method? key =
      (shape.method? key).map (Declared.mk shape.name) := by
  have listed : (shape.plainMethods.filter fun m => !m.modifiers.isSynthetic) =
      shape.plainMethods :=
    List.filter_eq_self.2 fun m mem => by rw [plain.methods m mem]; rfl
  have kept : shape.plainMethods.find? (fun m => m.key = key) = shape.method? key := by
    unfold TypeShape.plainMethods TypeShape.method?
    rw [List.find?_filter]
    refine congrArg (fun p => shape.methods.find? p) (funext fun m => ?_)
    by_cases same : m.key = key
    · have isPlain : m.isPlain = true := by
        unfold MethodShape.isPlain MethodShape.isConstructor MethodShape.isStaticInit
        rw [same]
        exact inherited
      simp [same, isPlain]
    · simp [same]
  unfold TypeMetadata.method? TypeMetadata.ofShape
  dsimp only
  rw [listed, List.find?_map, ← kept]
  rfl

end TypeShape.Plain

namespace TypeUnit

variable {u : TypeUnit}

/-- Methods of a unit with one key have the same modifiers. -/
def Uniform (u : TypeUnit) : Prop :=
  ∀ m ∈ u.methods, ∀ m' ∈ u.methods, m.key = m'.key → m.modifiers = m'.modifiers

theorem uniform_of_verify (verified : u.verify = .ok ()) : u.Uniform :=
  fun _ mem _ mem' same => congrArg MethodDef.modifiers (eq_of_key_eq verified mem mem' same)

/-- Guards leave modifiers alone. -/
theorem Uniform.withGuards (uniform : u.Uniform) (options : Options) (names : NameTable) :
    (u.withGuards options names).Uniform := by
  intro m mem m' mem' same
  obtain ⟨origin, there, rfl⟩ := List.mem_map.1 mem
  obtain ⟨origin', there', rfl⟩ := List.mem_map.1 mem'
  exact uniform origin there origin' there' same

/-- All members of a contract have the same modifiers. -/
theorem uniform_contractUnit (typeName : String) (number : Nat) (shape : TypeShape) :
    (contractUnit typeName number shape).Uniform := by
  intro m mem m' mem' _
  obtain ⟨member, -, rfl⟩ := List.mem_map.1 mem
  obtain ⟨member', -, rfl⟩ := List.mem_map.1 mem'
  rfl

/-- So have all members of an executor. -/
theorem uniform_executorUnit (ctx : ExecutorContext) (options : Options) (names : NameTable)
    (number : Nat) : (ctx.executorUnit options names number u).Uniform := by
  intro m mem m' mem' _
  obtain ⟨entry, -, rfl⟩ := List.mem_map.1 mem
  obtain ⟨entry', -, rfl⟩ := List.mem_map.1 mem'
  rfl

/-- In such a unit the first and the last method with a key have the same modifiers. -/
theorem Uniform.find?_reverse (uniform : u.Uniform) (key : MemberKey) :
    Option.Rel (fun m m' => m.modifiers = m'.modifiers) (u.methods.find? fun m => m.key = key)
      (u.methods.reverse.find? fun m => m.key = key) := by
  cases first : u.methods.find? fun m => m.key = key with
  | none =>
    have last : u.methods.reverse.find? (fun m => m.key = key) = none := by
      rw [List.find?_eq_none] at first ⊢
      exact fun m mem => first m (List.mem_reverse.1 mem)
    rw [last]
    exact .none
  | some m =>
    have mem := List.mem_of_find?_eq_some first
    have keyed : m.key = key := by simpa using List.find?_some first
    obtain ⟨m', last⟩ : ∃ m', u.methods.reverse.find? (fun m => m.key = key) = some m' :=
      Option.isSome_iff_exists.1
        (List.find?_isSome.2 ⟨m, List.mem_reverse.2 mem, decide_eq_true keyed⟩)
    have keyed' : m'.key = key := by simpa using List.find?_some last
    rw [last]
    exact .some (uniform m mem m' (List.mem_reverse.1 (List.mem_of_find?_eq_some last))
      (keyed.trans keyed'.symm))

end TypeUnit

namespace Engine

variable {e e' : Engine} {s : ScopeRef} {c : ClassRef} {shape : TypeShape}

section Uniform

/-- The unit of every class that is not a host is uniform. -/
def AllUniform (e : Engine) : Prop :=
  ∀ c < e.classes.size, (e.classAt c).managed = none → (e.classAt c).unit.Uniform

theorem PlainOrigin.uniform {spec : ClassSpec} (origin : e.PlainOrigin s spec) :
    spec.unit.Uniform := by
  cases origin with
  | unit u names parent interfaces verified =>
    exact (TypeUnit.uniform_of_verify verified).withGuards _ _
  | contract typeName number shape => exact TypeUnit.uniform_contractUnit typeName number shape
  | executor ctx names number u contract => exact TypeUnit.uniform_executorUnit ctx _ names number

theorem Edit.allUniform (edit : e.Edit e') (all : e.AllUniform) : e'.AllUniform := by
  have grows := edit.grows
  have old (c : ClassRef) (lt : c < e.classes.size) (unmanaged : (e'.classAt c).managed = none) :
      (e'.classAt c).unit.Uniform := by
    rw [grows.class_eq lt Class.managed fun _ => rfl] at unmanaged
    rw [grows.class_eq lt Class.unit fun _ => rfl]
    exact all c lt unmanaged
  have either (size : e'.classes.size = e.classes.size + 1)
      (last : (e'.classAt e.classes.size).managed = none →
        (e'.classAt e.classes.size).unit.Uniform) : e'.AllUniform := by
    intro c lt
    by_cases new : c = e.classes.size
    · exact new ▸ last
    · rw [size] at lt
      exact old c (Nat.lt_of_le_of_ne (Nat.le_of_lt_succ lt) new)
  rcases edit.adds with same | ⟨s, spec, cls, admits, origin, rfl⟩ |
      ⟨s, type, form, parent, interfaces, cls, manages, admits, rfl⟩
  · exact fun c lt => old c (same ▸ lt)
  · refine either (size_addClass e s cls) fun _ => ?_
    rw [admits.describes.unit_eq]
    exact origin.uniform
  · refine either (size_addClass (e.addType s type) s cls) fun unmanaged => ?_
    have described : ((e.addType s type).addClass s cls).Describes e.classes.size
      (form.spec type.id parent interfaces) := admits.describes.of_classes_eq rfl
    exact nomatch described.managed_eq.symm.trans unmanaged

theorem Reachable.allUniform (reachable : e.Reachable) : e.AllUniform := by
  obtain ⟨edits, -⟩ := reachable.edits
  clear reachable
  induction edits with
  | refl => exact fun c lt => by cases lt
  | tail _ edit ih => exact edit.allUniform ih

end Uniform

/-- The shape that a class shows now. -/
def shownShape? (e : Engine) (s : ScopeRef) (c : ClassRef) : Option TypeShape :=
  (Reflect.shapeOf e s c).toOption

/-- The field that reflection reports of a class itself. -/
def shownField? (e : Engine) (s : ScopeRef) (name : String) (c : ClassRef) : Option FieldInfo :=
  (e.shownShape? s c).bind fun shape => (TypeMetadata.ofShape shape 0).field? name

/-- The method that reflection reports of a class itself. -/
def shownMethod? (e : Engine) (s : ScopeRef) (key : MemberKey) (c : ClassRef) :
    Option MethodInfo :=
  (e.shownShape? s c).bind fun shape => (TypeMetadata.ofShape shape 0).method? key

/-- The interfaces that a class shows, in the order in which it shows them. -/
def shownInterfaces (e : Engine) (s : ScopeRef) (c : ClassRef) : List ClassRef :=
  ((e.shownShape? s c).map TypeShape.interfaces).getD [] |>.filterMap (e.class? s)

/-- A class shows a shape that lists nothing generated, and whose supertype and interfaces are
those that the class was defined with, the interfaces in whatever order. -/
structure Shows (e : Engine) (s : ScopeRef) (c : ClassRef) (shape : TypeShape) : Prop where
  shaped : Reflect.shapeOf e s c = .ok shape
  plain : shape.Plain
  parent : shape.superName.map (e.class? s) = (e.classAt c).parent.map some
  implemented : ∀ name ∈ shape.interfaces, ∃ i ∈ (e.classAt c).interfaces,
    e.class? s name = some i
  listed : ∀ i ∈ (e.classAt c).interfaces, ∃ name ∈ shape.interfaces, e.class? s name = some i

instance (e : Engine) (s : ScopeRef) (c : ClassRef) : Decidable (∃ shape, e.Shows s c shape) :=
  decidable_of_iff ((e.shownShape? s c).any (fun shape => decide (shape.Plain ∧
      shape.superName.map (e.class? s) = (e.classAt c).parent.map some ∧
      (∀ name ∈ shape.interfaces, ∃ i ∈ (e.classAt c).interfaces, e.class? s name = some i) ∧
      ∀ i ∈ (e.classAt c).interfaces, ∃ name ∈ shape.interfaces, e.class? s name = some i)) = true)
    (by
      rw [Option.any_eq_true]
      refine exists_congr fun shape => ?_
      rw [decide_eq_true_iff]
      exact ⟨fun ⟨shaped, plain, parent, implemented, listed⟩ =>
          ⟨Exec.ok_of_toOption shaped, plain, parent, implemented, listed⟩,
        fun shown => ⟨congrArg Except.toOption shown.shaped, shown.plain, shown.parent,
          shown.implemented, shown.listed⟩⟩)

/-- A class that is not managed shows what it was defined above if its unit names that. -/
theorem shows_of_unmanaged (unmanaged : e.managedOf? s c = none)
    (extracted : (TypeShape.extract (e.classAt c).unit).toOption = some shape)
    (plain : shape.Plain)
    (parent : (e.classAt c).unit.superName.map (e.class? s) = (e.classAt c).parent.map some)
    (implemented : ∀ name ∈ (e.classAt c).unit.interfaces, ∃ i ∈ (e.classAt c).interfaces,
      e.class? s name = some i)
    (listed : ∀ i ∈ (e.classAt c).interfaces, ∃ name ∈ (e.classAt c).unit.interfaces,
      e.class? s name = some i) : e.Shows s c shape := by
  have extracted := Exec.ok_of_toOption extracted
  have shaped : Reflect.shapeOf e s c = .ok shape := by
    unfold Reflect.shapeOf
    rw [unmanaged, extracted]
    rfl
  obtain rfl := TypeShape.eq_ofUnit extracted
  refine ⟨shaped, plain, parent, fun name mem => implemented name (List.mem_mergeSort.1 mem),
    fun i mem => ?_⟩
  obtain ⟨name, named, found⟩ := listed i mem
  exact ⟨name, List.mem_mergeSort.2 named, found⟩

section Shows

variable (shown : e.Shows s c shape)
include shown

theorem Shows.shownShape? : e.shownShape? s c = some shape := by
  unfold Engine.shownShape?
  rw [shown.shaped]
  rfl

theorem Shows.shownField? (name : String) :
    e.shownField? s name c = (shape.field? name).map (Declared.mk shape.name) := by
  unfold Engine.shownField?
  rw [shown.shownShape?]
  exact shown.plain.field?_ofShape 0 name

theorem Shows.shownMethod? {key : MemberKey} (inherited : key.isPlain = true) :
    e.shownMethod? s key c = (shape.method? key).map (Declared.mk shape.name) := by
  unfold Engine.shownMethod?
  rw [shown.shownShape?]
  exact shown.plain.method?_ofShape 0 inherited

theorem Shows.shownInterfaces :
    e.shownInterfaces s c = shape.interfaces.filterMap (e.class? s) := by
  unfold Engine.shownInterfaces
  rw [shown.shownShape?]
  rfl

/-- The interfaces that are shown are those that the class was defined with. -/
theorem Shows.mem_shownInterfaces {i : ClassRef} :
    i ∈ e.shownInterfaces s c ↔ i ∈ (e.classAt c).interfaces := by
  rw [shown.shownInterfaces, List.mem_filterMap]
  refine ⟨fun ⟨name, mem, found⟩ => ?_, shown.listed i⟩
  obtain ⟨i', implements, found'⟩ := shown.implemented name mem
  rw [found] at found'
  exact Option.some.inj found' ▸ implements

/-- The names that are shown are those of the interfaces. -/
theorem Shows.map_nameOf (housed : e.Housed) :
    (e.shownInterfaces s c).map e.nameOf = shape.interfaces := by
  rw [shown.shownInterfaces]
  have known : ∀ name ∈ shape.interfaces, ∃ i, e.class? s name = some i := fun name mem =>
    (shown.implemented name mem).imp fun i found => found.2
  generalize shape.interfaces = names at known ⊢
  induction names with
  | nil => rfl
  | cons name rest ih =>
    obtain ⟨i, found⟩ := known name List.mem_cons_self
    rw [List.filterMap_cons_some found, List.map_cons, housed.name_eq found,
      ih fun other mem => known other (List.mem_cons_of_mem _ mem)]

/-- The name that is shown is that of the parent. -/
theorem Shows.superName (housed : e.Housed) :
    shape.superName.toList = (e.classAt c).parent.toList.map e.nameOf := by
  have parent := shown.parent
  cases super : shape.superName with
  | none =>
    rw [super, Option.map_none, eq_comm, Option.map_eq_none_iff] at parent
    rw [parent]
    rfl
  | some name =>
    rw [super, Option.map_some, eq_comm, Option.map_eq_some_iff] at parent
    obtain ⟨p, extended, found⟩ := parent
    rw [extended, Option.toList_some, Option.toList_some, List.map_singleton,
      housed.name_eq found.symm]

/-- The live supertype of a class is the one that it was defined with. -/
theorem Shows.liveParent : e.liveParent s c = .ok (e.classAt c).parent := by
  unfold Engine.liveParent
  cases managed : e.managedOf? s c with
  | none => rfl
  | some t =>
    obtain rfl : (e.typeAt t).live.shape = shape :=
      Except.ok.inj ((shapeOf_of_managed managed).symm.trans shown.shaped)
    have parent := shown.parent
    dsimp only
    cases super : (e.typeAt t).live.shape.superName with
    | none =>
      rw [super, Option.map_none, eq_comm, Option.map_eq_none_iff] at parent
      rw [parent]
    | some name =>
      rw [super, Option.map_some, eq_comm, Option.map_eq_some_iff] at parent
      obtain ⟨p, extended, found⟩ := parent
      dsimp only
      rw [← found, extended]

variable (reachable : e.Reachable) (home : e.Homes s c)
include reachable home

theorem Shows.name_eq : shape.name = e.nameOf c := by
  obtain ⟨name, known⟩ := home
  have chronicled (t : TypeRef) (managed : e.IsManaged t) := reachable.chronicled managed
  rw [reachable.housed.name_of_shapeOf chronicled known shown.shaped,
    reachable.housed.name_eq known]

/-- The field that is reported of a class is the one that it itself declares now. -/
theorem Shows.names_field (name : String) :
    Option.Rel FieldInfo.Names (e.shownField? s name c) (e.ownLiveField? s name c) := by
  have named := shown.name_eq reachable home
  rw [shown.shownField?]
  unfold ownLiveField?
  dsimp only
  cases managed : e.managedOf? s c with
  | some t =>
    obtain rfl : (e.typeAt t).live.shape = shape :=
      Except.ok.inj ((shapeOf_of_managed managed).symm.trans shown.shaped)
    dsimp only
    cases (e.typeAt t).live.shape.field? name with
    | none => exact .none
    | some f => exact .some ⟨named, rfl, rfl⟩
  | none =>
    have fields : shape.field? name = (e.classAt c).unit.field? name := by
      rw [TypeShape.eq_ofUnit (shapeOf_of_unmanaged managed shown.shaped)]
      rfl
    dsimp only
    rw [fields]
    cases (e.classAt c).unit.field? name with
    | none => exact .none
    | some f => exact .some ⟨named, rfl, rfl⟩

/-- The method that is reported of a class is the one that it itself declares now. -/
theorem Shows.names_method {key : MemberKey} (inherited : key.isPlain = true) :
    Option.Rel MethodInfo.Names (e.shownMethod? s key c) (e.ownLiveMethod? s key c) := by
  have named := shown.name_eq reachable home
  rw [shown.shownMethod? inherited]
  unfold ownLiveMethod?
  dsimp only
  cases managed : e.managedOf? s c with
  | some t =>
    obtain rfl : (e.typeAt t).live.shape = shape :=
      Except.ok.inj ((shapeOf_of_managed managed).symm.trans shown.shaped)
    dsimp only
    cases (e.typeAt t).live.shape.method? key with
    | none => exact .none
    | some m => exact .some ⟨named, rfl⟩
  | none =>
    obtain ⟨_, known⟩ := id home
    have lt := reachable.grounded.class_lt s _ c known
    have unmanaged := reachable.housed.managed_eq_none home managed
    have uniform := reachable.allUniform c lt unmanaged
    obtain ⟨spec, described, -, -, -⟩ := reachable.housed.classes s _ c known
    have methods : shape.method? key =
        ((e.classAt c).unit.methods.find? fun m => m.key = key).map MethodShape.ofDef := by
      rw [TypeShape.eq_ofUnit (shapeOf_of_unmanaged managed shown.shaped)]
      exact List.find?_map ..
    have bound : (e.classAt c).method? key =
        ((e.classAt c).unit.methods.reverse.find? fun m => m.key = key).map
          (Class.bind spec.unit.name spec.declaredAccess) := by
      unfold Class.method?
      rw [described.methods_eq, Class.get?_methodsOf, described.unit_eq]
    have same := uniform.find?_reverse key
    dsimp only
    rw [methods, bound]
    cases first : (e.classAt c).unit.methods.find? fun m => m.key = key with
    | none =>
      rw [first] at same
      cases last : (e.classAt c).unit.methods.reverse.find? fun m => m.key = key with
      | none => exact .none
      | some m' =>
        rw [last] at same
        cases same
    | some m =>
      rw [first] at same
      cases last : (e.classAt c).unit.methods.reverse.find? fun m => m.key = key with
      | none =>
        rw [last] at same
        cases same
      | some m' =>
        rw [last] at same bound
        cases same with
        | some same =>
          have declared := (reachable.bound lt).plain unmanaged key _ bound
          refine .some ⟨named, ?_⟩
          exact same.trans declared.symm

end Shows

end Engine

end LiveUpdate
