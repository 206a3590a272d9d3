import LiveUpdate.Proofs.Bookkeeping
import LiveUpdate.Proofs.Resolving

/-!
# What reflection remembers

Metadata is remembered under the name of a type and used again as long as the type is at the
version that it describes.  Whatever is remembered describes a version that the type has had, and
no two versions of a type have the same number.  So what is used again is what would be made now,
whatever has happened in between.
-/

set_option autoImplicit false

namespace LiveUpdate

open Exec

namespace Engine

variable {e e' : Engine} {s : ScopeRef} {t : TypeRef} {c : ClassRef} {typeName : String}
  {m : TypeMetadata} {shape : TypeShape}

/-- Metadata under a name describes a version that the managed type has had, or the unit of a
class that is not managed. -/
def Depicts (e : Engine) (s : ScopeRef) (typeName : String) (m : TypeMetadata) : Prop :=
  ∃ c, e.class? s typeName = some c ∧
    match e.managedOf? s c with
    | some t => ∃ v ∈ (e.typeAt t).versions, m = .ofShape v.shape v.number
    | none => ∃ shape, TypeShape.extract (e.classAt c).unit = .ok shape ∧ m = .ofShape shape 0

/-- Whatever a scope remembers describes the type under whose name it is remembered. -/
def Recollects (e : Engine) : Prop :=
  ∀ s typeName m, (e.scopeAt s).metadata.get? typeName = some m → e.Depicts s typeName m

/-- A description stays one. -/
theorem Depicts.of_grows (depicts : e.Depicts s typeName m) (grows : e.Grows e')
    (housed : e.Housed) : e'.Depicts s typeName m := by
  obtain ⟨c, known, depicted⟩ := depicts
  refine ⟨c, grows.class? (scope_lt_of_class? known) known, ?_⟩
  rw [grows.managedOf? housed ⟨_, known⟩]
  cases managed : e.managedOf? s c with
  | some t =>
    rw [managed] at depicted
    obtain ⟨v, mem, same⟩ := depicted
    have lt := (housed.managed_of_managedOf? managed).1.1
    exact ⟨v, (grows.typeAt t lt).versions.subset mem, same⟩
  | none =>
    rw [managed] at depicted
    obtain ⟨_, described, -⟩ := housed.classes s typeName c known
    rw [grows.class_eq described.lt Class.unit fun _ => rfl]
    exact depicted

/-- The version in force is one of the versions. -/
theorem Chronicled.live_mem (chronicled : e.Chronicled t) :
    (e.typeAt t).live ∈ (e.typeAt t).versions := by
  obtain ⟨later, all, published, -⟩ := chronicled.later
  unfold ManagedType.live
  rw [published, all]
  cases last : later.getLast? with
  | none => exact List.mem_cons_self
  | some v => exact List.mem_cons_of_mem _ (List.mem_of_getLast? last)

section Shown

/-! What a type shows now. -/

theorem During.managedOf? (during : e.During e') (s : ScopeRef) (c : ClassRef) :
    e'.managedOf? s c = e.managedOf? s c := by
  have same : (e'.classAt c).skeleton.managed = (e.classAt c).skeleton.managed :=
    congrArg Class.managed (during.classAt c)
  have managed : (e'.classAt c).managed = (e.classAt c).managed := same
  unfold Engine.managedOf?
  rw [managed, funext (during.typeWithId? s)]

theorem During.shapeOf (during : e.During e') (s : ScopeRef) (c : ClassRef) :
    Reflect.shapeOf e' s c = Reflect.shapeOf e s c := by
  have same {α : Type} (get : Class → α) :
      get (e'.classAt c).skeleton = get (e.classAt c).skeleton := congrArg get (during.classAt c)
  have unit : (e'.classAt c).unit = (e.classAt c).unit := same (·.unit)
  have name : e'.nameOf c = e.nameOf c := same (·.name)
  unfold Reflect.shapeOf
  rw [during.managedOf?, unit, name]
  cases e.managedOf? s c with
  | some t => exact congrArg (fun v : LiveVersion => Except.ok v.shape) (during.live t)
  | none => rfl

theorem During.versionOf (during : e.During e') (s : ScopeRef) (c : ClassRef) :
    Reflect.versionOf e' s c = Reflect.versionOf e s c := by
  unfold Reflect.versionOf
  rw [during.managedOf?]
  cases e.managedOf? s c with
  | some t => exact congrArg LiveVersion.number (during.live t)
  | none => rfl

/-- A class that is not managed shows its unit. -/
theorem shapeOf_of_unmanaged (unmanaged : e.managedOf? s c = none)
    (shaped : Reflect.shapeOf e s c = .ok shape) :
    TypeShape.extract (e.classAt c).unit = .ok shape := by
  unfold Reflect.shapeOf at shaped
  rw [unmanaged] at shaped
  exact ok_of_mapError shaped

/-- A managed type shows its version in force. -/
theorem shapeOf_of_managed (managed : e.managedOf? s c = some t) :
    Reflect.shapeOf e s c = .ok (e.typeAt t).live.shape := by
  unfold Reflect.shapeOf
  rw [managed]

variable (housed : e.Housed) (chronicled : ∀ t, e.IsManaged t → e.Chronicled t)
  (known : e.class? s typeName = some c) (shaped : Reflect.shapeOf e s c = .ok shape)
include housed chronicled known shaped

/-- What a type shows has its name. -/
theorem Housed.name_of_shapeOf : shape.name = typeName := by
  cases managed : e.managedOf? s c with
  | some t =>
    obtain rfl : (e.typeAt t).live.shape = shape :=
      Except.ok.inj ((shapeOf_of_managed managed).symm.trans shaped)
    have here := chronicled t (housed.managed_of_managedOf? managed).1
    have hosted := housed.hosted_of_managedOf? ⟨_, known⟩ managed
    have named : (e.typeAt t).live.shape.name = (e.typeAt t).name := by
      rcases here.live_cases with ⟨-, isFirst⟩ | ⟨-, recorded⟩
      · rw [isFirst, TypeShape.eq_ofUnit here.shaped]
        exact here.named
      · rw [TypeShape.eq_ofUnit recorded.shaped]
        exact recorded.named
    exact named.trans ((housed.name_eq hosted.known).symm.trans (housed.name_eq known))
  | none =>
    rw [TypeShape.eq_ofUnit (shapeOf_of_unmanaged managed shaped)]
    obtain ⟨spec, described, named, -, -⟩ := housed.classes s typeName c known
    exact (congrArg TypeUnit.name described.unit_eq).trans named

/-- What a type shows describes it. -/
theorem Housed.depicts_shown :
    e.Depicts s typeName (.ofShape shape (Reflect.versionOf e s c)) := by
  refine ⟨c, known, ?_⟩
  unfold Reflect.versionOf
  cases managed : e.managedOf? s c with
  | some t =>
    obtain rfl : (e.typeAt t).live.shape = shape :=
      Except.ok.inj ((shapeOf_of_managed managed).symm.trans shaped)
    have here := chronicled t (housed.managed_of_managedOf? managed).1
    exact ⟨_, here.live_mem, rfl⟩
  | none => exact ⟨shape, shapeOf_of_unmanaged managed shaped, rfl⟩

end Shown

end Engine

/-- What code does not change, and what reflection remembers. -/
def Engine.recollection (e : Engine) : Engine × (ScopeRef → Table String TypeMetadata) :=
  (e.skeleton, fun s => (e.scopeAt s).metadata)

/-- Routing an invocation leaves both as they are. -/
theorem Machine.keeps_recollection (m : Machine) (caller : ClassRef) (id : TypeId)
    (kind : InvokeKind) (method : MethodRef) :
    Keeps Engine.recollection (m.routeInvoke caller id kind method) := by
  refine keeps_routeInvoke (fun e s key route => ?_) caller id kind method
  refine Prod.ext (e.skeleton_updateScope s _ fun _ => rfl) (funext fun s' => ?_)
  refine e.view_updateScope s Scope.metadata (fun _ => ?_) s'
  rfl

/-- The law that what is remembered while code runs describes the types of the engine in which it
began to run. -/
def Law.recollecting (bones : Engine) (housed : bones.Housed)
    (chronicled : ∀ t, bones.IsManaged t → bones.Chronicled t) : Law where
  holds e := bones.During e ∧ ∀ s typeName m,
    (e.scopeAt s).metadata.get? typeName = some m → bones.Depicts s typeName m
  runs _ := True
  writes written he := by
    refine ⟨he.1.trans written.during, fun s typeName m held => ?_⟩
    rw [written.metadata] at held
    exact he.2 s typeName m held
  declared _ _ := True.intro
  selected _ _ := True.intro
  entered _ _ := True.intro
  routed _ _ _ caller := by
    refine (Exec.obeys_of_view (Machine.keeps_recollection _ caller _ _ _)
      fun e e' same he => ?_).weaken fun _ _ _ _ _ _ _ => True.intro
    have skeleton : e'.skeleton = e.skeleton := congrArg Prod.fst same
    have metadata (s : ScopeRef) : (e'.scopeAt s).metadata = (e.scopeAt s).metadata :=
      congrFun (congrArg Prod.snd same) s
    refine ⟨⟨he.1.trans (.of_skeleton_eq skeleton), fun s typeName m held => ?_⟩,
      Engine.depth_of_skeleton_eq skeleton⟩
    rw [metadata] at held
    exact he.2 s typeName m held
  reflects {e e'} reflected he := by
    refine ⟨he.1.trans reflected.during, fun s typeName m held => ?_⟩
    cases reflected with
    | @remembers s' typeName' c shape known shaped =>
      rw [he.1.class?] at known
      rw [he.1.shapeOf] at shaped
      rw [Engine.withMetadata, Engine.scopeAt_updateScope] at held
      split at held
      next here =>
        obtain ⟨rfl, -⟩ := here
        rw [Table.get?_put] at held
        split at held
        next named =>
          have named : shape.name = typeName := named
          rw [housed.name_of_shapeOf chronicled known shaped] at named
          cases held
          rw [he.1.versionOf, ← named]
          exact housed.depicts_shown chronicled known shaped
        · exact he.2 _ typeName m held
      · exact he.2 s typeName m held
    | forgets s' typeName' =>
      rw [Engine.withoutMetadata, Engine.scopeAt_updateScope] at held
      split at held
      · rw [Table.get?_erase] at held
        split at held
        · cases held
        · exact he.2 s typeName m held
      · exact he.2 s typeName m held

namespace Engine

variable {e e' : Engine} {s : ScopeRef} {c : ClassRef} {typeName : String} {m : TypeMetadata}
  {shape : TypeShape}

theorem metadata_updateScope (e : Engine) (s : ScopeRef) {f : Scope → Scope}
    (same : ∀ scope, (f scope).metadata = scope.metadata) (s' : ScopeRef) :
    ((e.updateScope s f).scopeAt s').metadata = (e.scopeAt s').metadata :=
  e.view_updateScope s Scope.metadata same s'

theorem metadata_addClass (e : Engine) (s : ScopeRef) (cls : Class) (s' : ScopeRef) :
    ((e.addClass s cls).scopeAt s').metadata = (e.scopeAt s').metadata := by
  refine metadata_updateScope { e with classes := e.classes.push cls } s (fun _ => ?_) s'
  rfl

/-- Nothing but code and reflection adds to what is remembered. -/
theorem Edit.metadata (edit : e.Edit e') : (∀ law : Law, law.holds e → law.holds e') ∨
    ∀ s typeName m, (e'.scopeAt s).metadata.get? typeName = some m →
      (e.scopeAt s).metadata.get? typeName = some m := by
  have of_eq {e' : Engine} (same : ∀ s, (e'.scopeAt s).metadata = (e.scopeAt s).metadata) :
      ∀ s typeName m, (e'.scopeAt s).metadata.get? typeName = some m →
        (e.scopeAt s).metadata.get? typeName = some m := by
    intro s typeName m held
    rw [same] at held
    exact held
  cases edit with
  | run same lawful => exact .inl lawful
  | openScope options filter registry usable known =>
    refine .inr fun s typeName m held => ?_
    have at_ : ({ e with scopes := e.scopes.push (.empty options filter registry) } :
        Engine).scopeAt s = if s = e.scopes.size then .empty options filter registry
          else e.scopeAt s := getD_push _ _ _ _
    rw [at_] at held
    split at held
    · cases held
    · exact held
  | countClass s' | observe s' | close s' =>
    refine .inr (of_eq (e.metadata_updateScope s' fun _ => ?_))
    rfl
  | addClass s' spec cls => exact .inr (of_eq (e.metadata_addClass s' cls))
  | manage s' type form parent interfaces cls =>
    refine .inr (of_eq fun s => (metadata_addClass _ s' cls s).trans ?_)
    refine metadata_updateScope { e with types := e.types.push type } s' (fun _ => ?_) s
    rfl
  | publish t v offers =>
    refine .inr fun s typeName m held => ?_
    unfold Engine.publish at held
    rw [scopeAt_updateScope] at held
    split at held
    · rw [Table.get?_erase] at held
      split at held
      · cases held
      · exact held
    · exact held
  | _ => exact .inr fun _ _ _ held => held

/-- An edit keeps what is remembered true. -/
theorem Edit.recollects (edit : e.Edit e') (housed : e.Housed)
    (chronicled : ∀ t, e.IsManaged t → e.Chronicled t) (recollects : e.Recollects) :
    e'.Recollects := by
  intro s typeName m held
  rcases edit.metadata with lawful | less
  · have told := lawful (.recollecting e housed chronicled) ⟨.refl e, recollects⟩
    exact (told.2 s typeName m held).of_grows edit.grows housed
  · exact (recollects s typeName m (less s typeName m held)).of_grows edit.grows housed

/-- In a reachable engine everything that is remembered is true. -/
theorem Reachable.recollects (reachable : e.Reachable) : e.Recollects := by
  obtain ⟨edits, -⟩ := reachable.edits
  clear reachable
  induction edits with
  | refl => exact fun s typeName m held => nomatch held
  | tail before edit ih =>
    exact edit.recollects (Edits.housed before grounded_empty housed_empty)
      (Edits.chronicled before grounded_empty fun t held => by cases held.1) ih

/-- Two versions of a type with one number are the same. -/
theorem Reachable.version_eq {t : TypeRef} (reachable : e.Reachable) (managed : e.IsManaged t)
    {v w : LiveVersion} (mem : v ∈ (e.typeAt t).versions) (mem' : w ∈ (e.typeAt t).versions)
    (same : v.number = w.number) : v = w := by
  have numbered := (reachable.balanced t managed.1).numbered
  obtain ⟨i, at_⟩ := List.mem_iff_getElem?.1 mem
  obtain ⟨j, at'⟩ := List.mem_iff_getElem?.1 mem'
  rw [numbered i v at_, numbered j w at'] at same
  rw [same, at'] at at_
  exact (Option.some.inj at_).symm

/-- What describes a type and has the number of its version is what the type shows. -/
theorem Reachable.depicts_current (reachable : e.Reachable) (known : e.class? s typeName = some c)
    (shaped : Reflect.shapeOf e s c = .ok shape) (depicts : e.Depicts s typeName m)
    (current : m.version = Reflect.versionOf e s c) :
    m = .ofShape shape (Reflect.versionOf e s c) := by
  obtain ⟨c', known', depicted⟩ := depicts
  obtain rfl : c = c' := Option.some.inj (known.symm.trans known')
  unfold Reflect.versionOf at current ⊢
  cases managed : e.managedOf? s c with
  | some t =>
    rw [managed] at depicted current
    obtain ⟨v, mem, rfl⟩ := depicted
    obtain rfl : (e.typeAt t).live.shape = shape :=
      Except.ok.inj ((shapeOf_of_managed managed).symm.trans shaped)
    have held := (reachable.housed.managed_of_managedOf? managed).1
    rw [reachable.version_eq held mem (reachable.chronicled held).live_mem current]
  | none =>
    rw [managed] at depicted
    obtain ⟨shape', shaped', rfl⟩ := depicted
    rw [shapeOf_of_unmanaged managed shaped] at shaped'
    cases shaped'
    rfl

/-- The metadata of a type is made of what the type shows now, be it remembered or not, and asking
for it changes nothing that code could tell. -/
theorem Reachable.metadata_eq (reachable : e.Reachable) (known : e.class? s typeName = some c)
    (shaped : Reflect.shapeOf e s c = .ok shape) :
    ∃ e', Reflect.metadata s typeName e = .ok (.ofShape shape (Reflect.versionOf e s c)) e' ∧
      e'.Reachable ∧ e'.skeleton = e.skeleton := by
  have apply := Reflect.metadata_apply known
  have step := reachable.step (.metadata s typeName)
  cases recalled : Reflect.remembered? e s typeName (Reflect.versionOf e s c) with
  | some m =>
    obtain ⟨held, current⟩ := Option.filter_eq_some_iff.1 recalled
    have current := of_decide_eq_true current
    have depicts := reachable.recollects s typeName m held
    rw [recalled] at apply
    rw [← reachable.depicts_current known shaped depicts current]
    exact ⟨e, apply, reachable, rfl⟩
  | none =>
    rw [recalled, shaped] at apply
    refine ⟨_, apply, ?_, (Reflects.remembers known shaped).skeleton_eq⟩
    unfold Exec.final at step
    rw [apply] at step
    exact step

end Engine

end LiveUpdate
