import LiveUpdate.Proofs.Searching

/-!
# Reflection and live references

Reflection searches the interfaces of a type in the order in which the type shows them, which is
that of their names.  A live reference searches them in the order in which the class was defined
with them.  So reflection reports a field exactly where there is one, and it reports the one that
reads and writes go to exactly when the first type that declares it is the same in both orders.  A
method that the superclasses declare is found before any interface is searched, so reflection
reports the one that calls go to.
-/

set_option autoImplicit false

namespace LiveUpdate

open Exec

/-- The live field that the host finds in an interface. -/
def HostField.live (h : HostField) : LiveField :=
  ⟨h.slot.declaring, h.slot.name, h.slot.sig, h.slot.modifiers, none, h.cls, .native⟩

/-- The field and the object that reflection accesses, given the live field that a name means. -/
def Reflect.accessOf (e : Engine) (typeName name : String) (receiver : Option Value) :
    Option LiveField → Except RunError (LiveField × Option ObjectRef)
  | none => .error (.noSuchField typeName name "*")
  | some f =>
    if f.isStatic then .ok (f, none)
    else match receiver.bind Value.object? with
      | none => .error (.nullPointer (.fieldReceiver s!"{typeName}.{name}"))
      | some o =>
        if (e.classOf o).isSubtypeOf typeName then .ok (f, some o)
        else .error (.classCast (e.classOf o).name typeName)

/-- Reads and writes of reflection go to a live field, in the receiver unless it is static, or they
fail because there is no field or no fitting receiver. -/
structure Reflect.Accesses (e : Engine) (s : ScopeRef) (typeName name : String)
    (live : Option LiveField) : Prop where
  reads : ∀ fuel receiver, readField fuel s typeName name receiver e =
    match accessOf e typeName name receiver live with
    | .ok (f, o) => (Machine.of s fuel).readField f o e
    | .error error => .error (.error error) e
  writes : ∀ fuel receiver value, writeField fuel s typeName name receiver value e =
    match accessOf e typeName name receiver live with
    | .ok (f, o) => (Machine.of s fuel).writeField f o value e
    | .error error => .error (.error error) e

section Accesses

variable {e : Engine} {s : ScopeRef} {c : ClassRef} {typeName name : String}
  {live : Option LiveField} (known : e.class? s typeName = some c)
  (resolved : e.resolveField s c name = .ok live)
include known resolved

/-- Reflection accesses the field that the name means for the type. -/
theorem Reflect.liveField_apply (receiver : Option Value) :
    liveField s typeName name receiver e =
      (ofResult (accessOf e typeName name receiver live) : Run _) e := by
  have found : e.requireClass s typeName = .ok c := by
    unfold Engine.requireClass
    rw [known]
  unfold liveField
  rw [bind_apply, check_apply, found]
  dsimp only
  rw [bind_apply, resolve_apply, resolved]
  unfold accessOf
  cases live with
  | none => rfl
  | some f =>
    dsimp only
    cases f.isStatic with
    | true => rfl
    | false =>
      cases receiver.bind Value.object? with
      | none => rfl
      | some o =>
        have cls : e.classAt (e.objectAt o).cls = e.classOf o := rfl
        have checked : checkInstance (e.objectAt o).cls typeName e =
            if (e.classOf o).isSubtypeOf typeName then .ok () e
            else .error (.error (.classCast (e.classOf o).name typeName)) e := by
          unfold checkInstance Machine.checkReceiverClass
          rw [bind_apply, ask_apply]
          dsimp only
          rw [cls]
          cases (e.classOf o).isSubtypeOf typeName <;> rfl
        show (ask (fun e => (e.objectAt o).cls) >>= fun cls =>
          checkInstance cls typeName >>= fun _ => pure (f, some o)) e = _
        rw [bind_apply, ask_apply]
        dsimp only
        rw [bind_apply, checked]
        cases (e.classOf o).isSubtypeOf typeName <;> rfl

theorem Reflect.accesses_of_resolveField : Accesses e s typeName name live := by
  refine ⟨fun fuel receiver => ?_, fun fuel receiver value => ?_⟩
  · unfold readField
    rw [bind_apply, liveField_apply known resolved]
    cases accessOf e typeName name receiver live <;> rfl
  · unfold writeField
    rw [bind_apply, liveField_apply known resolved]
    cases accessOf e typeName name receiver live <;> rfl

end Accesses

namespace Engine

variable {e : Engine} {s : ScopeRef} {top c d : ClassRef} {name : String} {key : MemberKey}
  {shape : TypeShape}

/-- Nothing that an interface above a class extends or implements is managed. -/
def InterfacesUnmanaged (e : Engine) (s : ScopeRef) (c : ClassRef) : Prop :=
  ∀ i ∈ (e.classAt c).fieldOrder, (e.classAt i).isInterface = true →
    ∀ d ∈ (e.classAt i).fieldOrder, e.managedOf? s d = none

instance (e : Engine) (s : ScopeRef) (c : ClassRef) : Decidable (e.InterfacesUnmanaged s c) :=
  inferInstanceAs (Decidable (∀ i ∈ (e.classAt c).fieldOrder, (e.classAt i).isInterface = true →
    ∀ d ∈ (e.classAt i).fieldOrder, e.managedOf? s d = none))

/-- A class and everything above it show their interfaces in the order in which the classes were
defined with them. -/
def ShowsDeclaredOrder (e : Engine) (s : ScopeRef) (c : ClassRef) : Prop :=
  ∀ d ∈ (e.classAt c).fieldOrder, e.shownInterfaces s d = (e.classAt d).interfaces

/-- The classes that reflection searches for a field, each as often as it is above another. -/
def shownOrder (e : Engine) (s : ScopeRef) (c : ClassRef) : List ClassRef :=
  walk (e.shownAbove s) c

/-- Whether a class itself declares a field now. -/
def declaresField (e : Engine) (s : ScopeRef) (name : String) (c : ClassRef) : Bool :=
  (e.ownLiveField? s name c).isSome

/-- The field that a class itself declares now names the class. -/
theorem declaring_of_ownLiveField? {live : LiveField}
    (own : e.ownLiveField? s name c = some live) : live.declaring = e.nameOf c := by
  unfold ownLiveField? at own
  dsimp only at own
  split at own
  all_goals
    obtain ⟨f, -, rfl⟩ := Option.map_eq_some_iff.1 own
    rfl

section Live

/-! The searches of live references. -/

/-- A class that is not managed declares what it was defined with. -/
theorem Housed.map_ownHostField? (housed : e.Housed) (lineage : e.Lineage) (home : e.Homes s c)
    (unmanaged : e.managedOf? s c = none) (name : String) :
    (e.ownHostField? name c).map HostField.live = e.ownLiveField? s name c := by
  have declared := housed.ownField?_eq lineage home name
  unfold ownHostField? ownLiveField?
  dsimp only
  rw [unmanaged]
  dsimp only
  cases found : (e.classAt c).unit.field? name with
  | none =>
    rw [found, Option.map_none, Option.map_eq_none_iff] at declared
    rw [declared]
    rfl
  | some f =>
    rw [found, Option.map_some, Option.map_eq_some_iff] at declared
    obtain ⟨⟨index, slot⟩, own, slotted⟩ := declared
    have slotted : slot = Class.slotOf (e.nameOf c) f := slotted
    have called : f.name = name := by simpa using List.find?_some found
    rw [own, slotted, ← called]
    rfl

variable (layered : e.Layered) (housed : e.Housed) (lineage : e.Lineage)
include layered housed lineage

/-- The host finds in an interface what the classes that it searches declare now, as long as none
of them is managed. -/
theorem Layered.map_hostField? (home : e.Homes s c)
    (unmanaged : ∀ d ∈ (e.classAt c).fieldOrder, e.managedOf? s d = none) (name : String) :
    (e.hostField? c name).map HostField.live =
      (e.classAt c).fieldOrder.findSome? (e.ownLiveField? s name) := by
  show ((e.classAt c).fieldOrder.findSome? (e.ownHostField? name)).map HostField.live = _
  rw [List.map_findSome?]
  exact findSome?_congr fun d mem => housed.map_ownHostField? lineage
    (layered.fieldOrder_homes housed home d mem) (unmanaged d mem) name

variable (home : e.Homes s top)
include home

omit lineage in
/-- The superclasses are among the classes that are searched for a field. -/
theorem Layered.superclasses_mem (mem : c ∈ (e.classAt top).fieldOrder) :
    ∀ d ∈ c :: (e.classAt c).superclasses, d ∈ (e.classAt top).fieldOrder := by
  induction c using Nat.strongRecOn with
  | ind c ih =>
    intro d mem_d
    rcases List.mem_cons.1 mem_d with rfl | mem_d
    · exact mem
    · obtain ⟨above, -⟩ := housed.superclasses_eq (layered.fieldOrder_homes housed home c mem)
      rw [above] at mem_d
      cases parent : (e.classAt c).parent with
      | none =>
        rw [parent] at mem_d
        cases mem_d
      | some p =>
        rw [parent] at mem_d
        obtain ⟨lt, mem_p⟩ := layered.fieldOrder_closed housed home mem p
          (List.mem_append_right _ (Option.mem_toList.2 parent))
        exact ih p lt mem_p d mem_d

/-- A search through a class, what its interfaces have, and its superclasses in the same way goes
through the order in which the host searches it. -/
theorem Layered.findSome?_fieldIn? (unmanaged : e.InterfacesUnmanaged s top) (name : String)
    (mem : c ∈ (e.classAt top).fieldOrder) :
    (c :: (e.classAt c).superclasses).findSome? (e.fieldIn? s name) =
      (e.classAt c).fieldOrder.findSome? (e.ownLiveField? s name) := by
  induction c using Nat.strongRecOn with
  | ind c ih =>
    have home_c := layered.fieldOrder_homes housed home c mem
    have inherited : e.interfaceField? name c = (e.classAt c).interfaces.findSome? fun i =>
        (e.classAt i).fieldOrder.findSome? (e.ownLiveField? s name) := by
      show ((e.classAt c).interfaces.findSome? fun i => e.hostField? i name).map HostField.live = _
      rw [List.map_findSome?]
      refine findSome?_congr fun i implemented => ?_
      obtain ⟨-, mem_i⟩ := layered.fieldOrder_closed housed home mem i
        (List.mem_append_left _ implemented)
      exact layered.map_hostField? housed lineage (layered.homes s c home_c i implemented)
        (unmanaged i mem_i (layered.interfaces c i implemented)) name
    have first : (c :: (e.classAt c).superclasses).findSome? (e.fieldIn? s name) =
        (e.fieldIn? s name c).or
          ((e.classAt c).superclasses.findSome? (e.fieldIn? s name)) := by
      rw [List.findSome?_cons]
      cases e.fieldIn? s name c <;> rfl
    have own : e.fieldIn? s name c = (e.ownLiveField? s name c).or (e.interfaceField? name c) :=
      Option.orElse_eq_or
    rw [first, own, inherited, Option.or_assoc, (layered.fieldOrder_eq housed home_c).1,
      findSome?_order]
    unfold placesAbove
    rw [List.findSome?_append]
    refine congrArg (fun rest => (e.ownLiveField? s name c).or (Option.or _ rest)) ?_
    obtain ⟨above, -⟩ := housed.superclasses_eq home_c
    cases parent : (e.classAt c).parent with
    | none =>
      rw [above, parent]
      rfl
    | some p =>
      obtain ⟨lt, mem_p⟩ := layered.fieldOrder_closed housed home mem p
        (List.mem_append_right _ (Option.mem_toList.2 parent))
      rw [above, parent, Option.toList_some, List.findSome?_singleton]
      exact ih p lt mem_p

variable (all : e.ShowsAll s top)
include all

omit lineage in
/-- The live supertypes of a type are its superclasses. -/
theorem ShowsAll.liveChain : e.liveChain s top = ⟨top :: (e.classAt top).superclasses, .top⟩ := by
  refine housed.liveChain_of_parents home fun d mem => ?_
  obtain ⟨shape, shown⟩ := all d (layered.superclasses_mem housed home
    (layered.self_mem_fieldOrder housed home) d mem)
  exact shown.liveParent

/-- A name means the field of the first class in the host's order that declares one now. -/
theorem ShowsAll.resolveField_eq (unmanaged : e.InterfacesUnmanaged s top) (name : String) :
    e.resolveField s top name =
      .ok ((e.classAt top).fieldOrder.findSome? (e.ownLiveField? s name)) := by
  have search := layered.findSome?_fieldIn? housed lineage home unmanaged name
    (layered.self_mem_fieldOrder housed home)
  unfold resolveField
  rw [all.liveChain layered housed home, LiveChain.findSome?_top, ← search]
  rfl

omit lineage in
/-- A key means the method of the nearest superclass that declares one now. -/
theorem ShowsAll.resolveMethod_eq (inherited : key.isPlain = true) {live : LiveMethod}
    (nearest : (top :: (e.classAt top).superclasses).findSome? (e.ownLiveMethod? s key) =
      some live) : e.resolveMethod s top key = .ok (some live) := by
  unfold resolveMethod
  have special : (key.isConstructor || key.isStaticInit) = false := by
    unfold MemberKey.isPlain at inherited
    simpa using inherited
  rw [special, all.liveChain layered housed home, LiveChain.findSome?_top, nearest]
  rfl

end Live

section Orders

/-! What both searches find. -/

variable (reachable : e.Reachable) (home : e.Homes s top) (all : e.ShowsAll s top)
include reachable home all

/-- Every class that is searched reports the field that it declares now. -/
theorem ShowsAll.names_field (name : String) : ∀ d ∈ (e.classAt top).fieldOrder,
    Option.Rel FieldInfo.Names (e.shownField? s name d) (e.ownLiveField? s name d) := by
  intro d mem
  obtain ⟨shape, shown⟩ := all d mem
  exact shown.names_field reachable
    (reachable.layered.fieldOrder_homes reachable.housed home d mem) name

/-- A field that is reported of a class is declared there. -/
theorem ShowsAll.declaring_eq {info : FieldInfo} (mem : d ∈ (e.classAt top).fieldOrder)
    (reported : e.shownField? s name d = some info) : info.declaring = e.nameOf d := by
  obtain ⟨shape, shown⟩ := all d mem
  rw [shown.shownField?] at reported
  obtain ⟨f, -, rfl⟩ := Option.map_eq_some_iff.1 reported
  exact shown.name_eq reachable (reachable.layered.fieldOrder_homes reachable.housed home d mem)

/-- A walk through the same classes in another order finds the same field exactly when it comes
first to the same class that declares one. -/
theorem ShowsAll.names_iff {places places' : List ClassRef}
    (searched : ∀ d ∈ places, d ∈ (e.classAt top).fieldOrder)
    (searched' : ∀ d ∈ places', d ∈ (e.classAt top).fieldOrder) (name : String) :
    Option.Rel FieldInfo.Names (places.findSome? (e.shownField? s name))
        (places'.findSome? (e.ownLiveField? s name)) ↔
      places.find? (e.declaresField s name) = places'.find? (e.declaresField s name) := by
  have homes := reachable.layered.fieldOrder_homes reachable.housed home
  refine findSome?_rel_iff (fun d mem => all.names_field reachable home name d (searched d mem))
    fun d mem d' mem' info live reported declared named => ?_
  -- Classes of a scope are told apart by their names.
  refine reachable.housed.eq_of_nameOf_eq (homes d (searched d mem))
    (homes d' (searched' d' mem')) ?_
  rw [← all.declaring_eq reachable home (searched d mem) reported, named.declaring,
    declaring_of_ownLiveField? declared]

omit reachable home in
/-- A class that shows its interfaces in the order in which it was defined with them is searched in
the host's order. -/
theorem ShowsAll.findSome?_shownOrder (layered : e.Layered) (housed : e.Housed)
    (home : e.Homes s top) (declared : e.ShowsDeclaredOrder s top) {α : Type}
    (f : ClassRef → Option α) :
    (e.shownOrder s top).findSome? f = (e.classAt top).fieldOrder.findSome? f := by
  have descends := layered.descends housed home all.mem_shownAbove
  suffices every : ∀ c ∈ (e.classAt top).fieldOrder,
      (walk (e.shownAbove s) c).findSome? f = (e.classAt c).fieldOrder.findSome? f from
    every top (layered.self_mem_fieldOrder housed home)
  intro c mem
  induction c using Nat.strongRecOn with
  | ind c ih =>
    have home_c := layered.fieldOrder_homes housed home c mem
    have same : e.shownAbove s c = e.placesAbove c := by
      unfold shownAbove placesAbove
      rw [declared c mem]
    rw [findSome?_walk descends mem, same, (layered.fieldOrder_eq housed home_c).1,
      findSome?_order]
    refine congrArg ((f c).or ·) (findSome?_congr fun p above => ?_)
    obtain ⟨lt, mem_p⟩ := layered.fieldOrder_closed housed home mem p above
    exact ih p lt mem_p

/-- A method that a superclass reports is found before any interface is searched. -/
theorem ShowsAll.shownMethodAbove?_eq (mem : c ∈ (e.classAt top).fieldOrder) {info : MethodInfo}
    (nearest : (c :: (e.classAt c).superclasses).findSome? (e.shownMethod? s key) = some info) :
    e.shownMethodAbove? s key c = some info := by
  have layered := reachable.layered
  have housed := reachable.housed
  have descends := layered.descends housed home all.mem_shownMethodsAbove
  induction c using Nat.strongRecOn with
  | ind c ih =>
    have goesUp : e.shownMethodAbove? s key c = (e.shownMethod? s key c).or
        ((e.shownMethodsAbove s c).findSome? (e.shownMethodAbove? s key)) :=
      findSome?_walk descends mem _
    obtain ⟨above, -⟩ := housed.superclasses_eq (layered.fieldOrder_homes housed home c mem)
    rw [goesUp]
    rw [List.findSome?_cons] at nearest
    cases own : e.shownMethod? s key c with
    | some info' =>
      rw [own] at nearest
      exact nearest
    | none =>
      rw [own, above] at nearest
      rw [Option.none_or]
      cases parent : (e.classAt c).parent with
      | none =>
        rw [parent] at nearest
        cases nearest
      | some p =>
        rw [parent] at nearest
        obtain ⟨lt, mem_p⟩ := layered.fieldOrder_closed housed home mem p
          (List.mem_append_right _ (Option.mem_toList.2 parent))
        unfold shownMethodsAbove
        rw [parent, Option.toList_some, List.singleton_append, List.findSome?_cons,
          ih p lt mem_p nearest]

/-- A key that a class or a superclass declares now means for reflection and for calls the method
of the nearest of them. -/
theorem ShowsAll.names_method (inherited : key.isPlain = true)
    (declared : ∃ d ∈ top :: (e.classAt top).superclasses, (e.ownLiveMethod? s key d).isSome) :
    ∃ info live, e.shownMethodAbove? s key top = some info ∧
      e.resolveMethod s top key = .ok (some live) ∧ info.Names live := by
  have layered := reachable.layered
  have housed := reachable.housed
  have self := layered.self_mem_fieldOrder housed home
  have agree : ∀ d ∈ top :: (e.classAt top).superclasses,
      Option.Rel MethodInfo.Names (e.shownMethod? s key d) (e.ownLiveMethod? s key d) := by
    intro d mem
    have mem_d := layered.superclasses_mem housed home self d mem
    obtain ⟨shape, shown⟩ := all d mem_d
    exact shown.names_method reachable (layered.fieldOrder_homes housed home d mem_d) inherited
  have related := findSome?_rel agree
  obtain ⟨live, nearest⟩ := Option.isSome_iff_exists.1 (List.findSome?_isSome_iff.2 declared)
  rw [nearest] at related
  cases reported : (top :: (e.classAt top).superclasses).findSome? (e.shownMethod? s key) with
  | none =>
    rw [reported] at related
    cases related
  | some info =>
    rw [reported] at related
    cases related with
    | some named =>
      exact ⟨info, live, all.shownMethodAbove?_eq reachable home self reported,
        all.resolveMethod_eq layered housed home inherited nearest, named⟩

end Orders

end Engine

open Engine in
/-- Where a type and everything above it show what they were defined above, and list nothing
generated, reflection reports a field of a name exactly if there is one, and it reports the one
that reads and writes go to exactly if the first class that declares one is the same in the order
in which interfaces are shown and in the order in which classes were defined with them.  It reports
the method that calls go to under every key that a class of the superclass chain declares. -/
theorem reflection_names_first_declared_iff {e : Engine} {s : ScopeRef} {c : ClassRef}
    {typeName : String} {fuel : Nat} (reachable : e.Reachable)
    (known : e.class? s typeName = some c) (all : e.ShowsAll s c) (enough : c < fuel) :
    (e.InterfacesUnmanaged s c → ∀ name, ∃ found live e',
      Reflect.field fuel s typeName name e = .ok found e' ∧ e'.skeleton = e.skeleton ∧
      e.resolveField s c name = .ok live ∧ (found = none ↔ live = none) ∧
      (∀ e₁ : Engine, e₁.skeleton = e.skeleton → Reflect.Accesses e₁ s typeName name live) ∧
      (Option.Rel FieldInfo.Names found live ↔
        (e.shownOrder s c).find? (e.declaresField s name) =
          (e.classAt c).fieldOrder.find? (e.declaresField s name)) ∧
      (e.ShowsDeclaredOrder s c → Option.Rel FieldInfo.Names found live)) ∧
    ∀ key : MemberKey, key.isPlain = true →
      (∃ d ∈ c :: (e.classAt c).superclasses, (e.ownLiveMethod? s key d).isSome) →
      ∃ info live e', Reflect.method fuel s typeName key e = .ok (some info) e' ∧
        e'.skeleton = e.skeleton ∧ e.resolveMethod s c key = .ok (some live) ∧
        info.Names live := by
  have home : e.Homes s c := ⟨typeName, known⟩
  have layered := reachable.layered
  have housed := reachable.housed
  refine ⟨fun unmanaged name => ?_, fun key inherited declared => ?_⟩
  · obtain ⟨e', asked, skeleton⟩ := all.field_apply reachable home known enough name
    have resolved := all.resolveField_eq layered housed reachable.lineage home unmanaged name
    have names := all.names_field reachable home name
    have searched (d : ClassRef) : d ∈ e.shownOrder s c ↔ d ∈ (e.classAt c).fieldOrder :=
      layered.mem_walk_iff housed home all.mem_shownAbove
    refine ⟨_, _, e', asked, skeleton, resolved, ?_, fun e₁ same => ?_,
      all.names_iff reachable home (fun d => (searched d).1) (fun _ mem => mem) name,
      fun declared => ?_⟩
    · show (e.shownOrder s c).findSome? _ = none ↔ _
      rw [List.findSome?_eq_none_iff, List.findSome?_eq_none_iff]
      refine forall_congr' fun d => ?_
      rw [searched d]
      exact forall_congr' fun mem => eq_none_iff_of_rel (names d mem)
    · have during : e.During e₁ := .of_skeleton_eq same
      refine Reflect.accesses_of_resolveField (during.class? s typeName ▸ known) ?_
      rw [during.resolveField]
      exact resolved
    · show Option.Rel _ ((e.shownOrder s c).findSome? _) _
      rw [all.findSome?_shownOrder layered housed home declared]
      exact findSome?_rel names
  · obtain ⟨e', asked, skeleton⟩ := all.method_apply reachable home known enough inherited
    obtain ⟨info, live, reported, resolved, named⟩ :=
      all.names_method reachable home inherited declared
    rw [reported] at asked
    exact ⟨info, live, e', asked, skeleton, resolved, named⟩

namespace Implementing

/-- An interface with a static field. -/
def tagged (name field : String) : TypeUnit :=
  (TypeUnit.interfaceNamed name).addField ⟨field, .int, .publicBit ||| .staticBit, none, []⟩

def answer : MethodDef :=
  { MethodDef.make "answer" ⟨[], .int⟩ (.publicBit ||| .staticBit) [.constInt 1, .retValue] with
    maxLocals := 0 }

/-- A type that implements an interface, with a method and fields. -/
def base (fields : List FieldDef) : TypeUnit :=
  { ((TypeUnit.named "app.P").implementing "lib.Z").addMethod answer with fields }

/-- A scope with an interface, one that extends it, a type that implements that, and a type
below. -/
def defined : Engine :=
  ((((Engine.opened { included := ["app.*"] }).defining 4 (tagged "lib.A" "k")).defining 4
    ((tagged "lib.Z" "n").implementing "lib.A")).defining 4 (base [])).defining 4
      ((TypeUnit.named "app.T").extending "app.P")

/-- The scope after a reload that adds a field, with metadata remembered from before. -/
def reloaded : Engine :=
  ((Reflect.metadata 0 "app.T").final defined).reloading 4 0 "second"
    (base [⟨"y", .str, .publicBit, none, []⟩])

set_option maxRecDepth 100000 in
theorem outcomes :
    (((Engine.opened { included := ["app.*"] }).defining 4 (tagged "lib.A" "k")).scopes.size = 1 ∧
      (((Engine.opened { included := ["app.*"] }).defining 4 (tagged "lib.A" "k")).defining 4
        ((tagged "lib.Z" "n").implementing "lib.A")).scopes.size = 1 ∧
      ((((Engine.opened { included := ["app.*"] }).defining 4 (tagged "lib.A" "k")).defining 4
        ((tagged "lib.Z" "n").implementing "lib.A")).defining 4 (base [])).scopes.size = 1 ∧
      ((Reflect.metadata 0 "app.T").final defined).types.size = 2) ∧
    (reloaded.class? 0 "app.T" = some 3 ∧ reloaded.ShowsAll 0 3 ∧
      reloaded.InterfacesUnmanaged 0 3) ∧
    (reloaded.resolveField 0 3 "k").toOption.join.isSome ∧
    (reloaded.shownOrder 0 3).find? (reloaded.declaresField 0 "k") =
      (reloaded.classAt 3).fieldOrder.find? (reloaded.declaresField 0 "k") ∧
    ∃ d ∈ 3 :: (reloaded.classAt 3).superclasses,
      (reloaded.ownLiveMethod? 0 answer.key d).isSome := by
  decide +kernel

theorem reachable_reloaded : reloaded.Reachable := by
  obtain ⟨⟨one, two, three, types⟩, -⟩ := outcomes
  have opened : (Engine.opened { included := ["app.*"] }).Reachable := Engine.reachable_opened _
  have interfaces := (opened.defining 4 (tagged "lib.A" "k") (by decide)).defining 4
    ((tagged "lib.Z" "n").implementing "lib.A") (by rw [one]; exact Nat.one_pos)
  have defined : defined.Reachable :=
    (interfaces.defining 4 (base []) (by rw [two]; exact Nat.one_pos)).defining 4
      ((TypeUnit.named "app.T").extending "app.P") (by rw [three]; exact Nat.one_pos)
  exact (defined.step (.metadata 0 "app.T")).reloading 4 0 "second" _
    (by rw [types]; exact Nat.two_pos)

/-- A type that implements two interfaces, and not in the order of their names. -/
def both : TypeUnit := ((TypeUnit.named "lib.C").implementing "lib.Z").implementing "lib.A"

/-- A scope in which both interfaces declare the same field. -/
def shadowing : Engine :=
  (((Engine.opened { included := ["app.*"] }).defining 4 (tagged "lib.A" "n")).defining 4
    (tagged "lib.Z" "n")).defining 4 both

set_option maxRecDepth 100000 in
theorem shadowing_outcomes :
    (((Engine.opened { included := ["app.*"] }).defining 4 (tagged "lib.A" "n")).scopes.size = 1 ∧
      (((Engine.opened { included := ["app.*"] }).defining 4 (tagged "lib.A" "n")).defining 4
        (tagged "lib.Z" "n")).scopes.size = 1) ∧
    (shadowing.class? 0 "lib.C" = some 2 ∧ shadowing.class? 0 "lib.A" = some 0 ∧
      shadowing.class? 0 "lib.Z" = some 1 ∧ (shadowing.classAt 2).fieldOrder = [2, 1, 0]) ∧
    ((∃ shape, shadowing.Shows 0 0 shape) ∧ ∃ shape, shadowing.Shows 0 1 shape) ∧
    (shadowing.managedOf? 0 2 = none ∧
      (TypeShape.extract (shadowing.classAt 2).unit).toOption.isSome ∧
      (TypeShape.ofUnit (shadowing.classAt 2).unit).Plain ∧
      (shadowing.classAt 2).unit.superName = none ∧ (shadowing.classAt 2).parent = none ∧
      (shadowing.classAt 2).unit.interfaces = ["lib.Z", "lib.A"] ∧
      (shadowing.classAt 2).interfaces = [1, 0]) ∧
    shadowing.shownField? 0 "n" 2 = none ∧
    (shadowing.shownField? 0 "n" 0).map Declared.declaring = some "lib.A" ∧
    (shadowing.resolveField 0 2 "n").toOption.join.map LiveField.declaring = some "lib.Z" := by
  decide +kernel

theorem reachable_shadowing : shadowing.Reachable := by
  obtain ⟨⟨one, two⟩, -⟩ := shadowing_outcomes
  have opened : (Engine.opened { included := ["app.*"] }).Reachable := Engine.reachable_opened _
  exact ((opened.defining 4 (tagged "lib.A" "n") (by decide)).defining 4 (tagged "lib.Z" "n")
    (by rw [one]; exact Nat.one_pos)).defining 4 both (by rw [two]; exact Nat.one_pos)

/-- Everything above the type is shown, the interfaces in the order of their names. -/
theorem shadowing_shows : shadowing.ShowsAll 0 2 ∧ shadowing.shownAbove 0 2 = [0, 1] := by
  obtain ⟨-, ⟨-, here, there, order⟩, ⟨shows₀, shows₁⟩, ⟨unmanaged, extracted, plain, top,
    parent, named, interfaces⟩, -⟩ := shadowing_outcomes
  generalize shadowing = e at *
  obtain ⟨shape, extracted⟩ := Option.isSome_iff_exists.1 extracted
  obtain rfl := TypeShape.eq_ofUnit (Exec.ok_of_toOption extracted)
  have shown : e.Shows 0 2 (.ofUnit (e.classAt 2).unit) := by
    refine Engine.shows_of_unmanaged unmanaged extracted plain (by rw [top, parent]; rfl) ?_ ?_
    · rw [named, interfaces]
      simp [here, there]
    · rw [named, interfaces]
      simp [here, there]
  refine ⟨?_, ?_⟩
  · unfold Engine.ShowsAll
    rw [order]
    exact List.forall_mem_cons.2 ⟨⟨_, shown⟩, List.forall_mem_cons.2 ⟨shows₁,
      List.forall_mem_singleton.2 shows₀⟩⟩
  · have sorted : (TypeShape.ofUnit (e.classAt 2).unit).interfaces = ["lib.A", "lib.Z"] := by
      show MethodShape.sorted _ = _
      rw [named, MethodShape.sorted_pair, if_neg (by decide)]
    unfold Engine.shownAbove
    rw [shown.shownInterfaces, sorted, parent]
    simp [here, there]

/-- The walk comes first to the interface whose name is first, and finds the field there. -/
theorem shadowing_reports : ∃ info, shadowing.shownFieldAbove? 0 "n" 2 = some info ∧
    info.declaring = "lib.A" := by
  obtain ⟨-, ⟨known, -, -, order⟩, -, -, own, reported, -⟩ := shadowing_outcomes
  obtain ⟨all, above⟩ := shadowing_shows
  have reachable := reachable_shadowing
  generalize shadowing = e at *
  have descends := reachable.layered.descends reachable.housed ⟨_, known⟩ all.mem_shownAbove
  have goesUp (d : ClassRef) (mem : d ∈ (e.classAt 2).fieldOrder) :
      e.shownFieldAbove? 0 "n" d = (e.shownField? 0 "n" d).or
        ((e.shownAbove 0 d).findSome? (e.shownFieldAbove? 0 "n")) :=
    findSome?_walk descends mem _
  obtain ⟨info, reported, declaring⟩ := Option.map_eq_some_iff.1 reported
  refine ⟨info, ?_, declaring⟩
  have first : e.shownFieldAbove? 0 "n" 0 = some info := by
    rw [goesUp 0 (by rw [order]; decide), reported]
    rfl
  rw [goesUp 2 (by rw [order]; decide), own, above, Option.none_or, List.findSome?_cons, first]

end Implementing

open Implementing in
/-- After a reload of its supertype a type still has a field of an interface above an interface of
the supertype, and a static method of the supertype, and reflection reports the ones that reads,
writes and calls go to. -/
theorem reflection_names_first_declared_reloaded :
    (∃ found live e', Reflect.field 8 0 "app.T" "k" reloaded = .ok (some found) e' ∧
      reloaded.resolveField 0 3 "k" = .ok (some live) ∧ FieldInfo.Names found live) ∧
    ∃ info live e', Reflect.method 8 0 "app.T" answer.key reloaded = .ok (some info) e' ∧
      reloaded.resolveMethod 0 3 answer.key = .ok (some live) ∧ MethodInfo.Names info live := by
  obtain ⟨-, ⟨known, all, unmanaged⟩, held, first, declared⟩ := outcomes
  have reachable := reachable_reloaded
  -- What matters about the engine is known; its definition is not to be unfolded.
  generalize reloaded = e at *
  have enough : 3 < 8 := by decide
  obtain ⟨fields, methods⟩ := reflection_names_first_declared_iff reachable known all enough
  obtain ⟨found, live, e', asked, -, resolved, -, -, names, -⟩ := fields unmanaged "k"
  obtain ⟨info, live', e'', asked', -, resolved', named⟩ := methods answer.key (by decide) declared
  refine ⟨?_, info, live', e'', asked', resolved', named⟩
  rw [resolved] at held
  cases names.2 first with
  | none => cases held
  | some named => exact ⟨_, _, e', asked, resolved, named⟩

open Implementing in
/-- Reflection reports the field of the interface whose name comes first, while reads and writes
go to the field of the interface that the type was defined with first. -/
theorem reflection_names_another_field :
    ¬ ∀ (e : Engine) (s : ScopeRef) (c : ClassRef) (typeName name : String) (fuel : Nat),
      e.Reachable → e.class? s typeName = some c → e.ShowsAll s c → c < fuel →
      ∀ found e' live, Reflect.field fuel s typeName name e = .ok found e' →
        e.resolveField s c name = .ok live → Option.Rel FieldInfo.Names found live := by
  intro right
  obtain ⟨-, ⟨known, -⟩, -, -, -, -, resolved⟩ := shadowing_outcomes
  obtain ⟨all, -⟩ := shadowing_shows
  obtain ⟨info, found, declaring⟩ := shadowing_reports
  have reachable := reachable_shadowing
  generalize shadowing = e at *
  obtain ⟨e', asked, -⟩ :=
    all.field_apply reachable ⟨_, known⟩ known (Nat.lt_succ_self 2) "n"
  obtain ⟨live, joined, declaring'⟩ := Option.map_eq_some_iff.1 resolved
  have resolved := Exec.ok_of_toOption (Option.join_eq_some_iff.1 joined)
  have names := right e 0 2 "lib.C" "n" 3 reachable known all (Nat.lt_succ_self 2) _ _ _ asked
    resolved
  rw [found] at names
  cases names with
  | some names =>
    have same := declaring.symm.trans (names.declaring.trans declaring')
    exact absurd same (by decide)

end LiveUpdate
