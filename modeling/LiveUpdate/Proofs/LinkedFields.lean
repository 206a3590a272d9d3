import LiveUpdate.Proofs.Coherence
import LiveUpdate.Proofs.GuardedAccess
import LiveUpdate.Proofs.Survival
import LiveUpdate.Unit.Builder

/-!
# Fields that the host and live versions agree on

The host looks for a field in a class, in what its interfaces have, and then in what its parent
has.  Live versions look along the chain of a class, in each class and in what its interfaces
have.  As long as the classes of the chain keep their supertypes and the declarations of their
fields, both come to the same field, and its value is in the slot of the host.
-/

set_option autoImplicit false

namespace LiveUpdate

open Exec

/-- What a field is declared as. -/
def FieldDef.declaration (f : FieldDef) : String × TypeSig × Modifiers :=
  (f.name, f.sig, f.modifiers)

/-- A managed type has, in its live version, the supertype and the field declarations of its
first one, in whatever order. -/
structure ManagedType.KeepsFields (t : ManagedType) : Prop where
  superName : t.live.shape.superName = t.first.shape.superName
  fields : ∀ d, d ∈ t.live.shape.fields.map FieldDef.declaration ↔
    d ∈ t.first.shape.fields.map FieldDef.declaration

/-- The field that live versions declare is the one that the host finds, and is kept in its
slot. -/
structure LiveField.Agrees (live : LiveField) (host : HostField) : Prop where
  declaring : live.declaring = host.slot.declaring
  name : live.name = host.slot.name
  sig : live.sig = host.slot.sig
  modifiers : live.modifiers = host.slot.modifiers
  isStatic : live.isStatic = host.slot.isStatic
  cls : live.cls = host.cls
  placement : live.placement = .native

/-- A search along a chain that ends at the top has an answer, be it that there is none. -/
theorem LiveChain.findSome?_top {α : Type} (classes : List ClassRef) (f : ClassRef → Option α) :
    LiveChain.findSome? ⟨classes, .top⟩ f = .ok (classes.findSome? f) := by
  unfold LiveChain.findSome?
  cases classes.findSome? f <;> rfl

/-- Two searches agree when both parts of them do. -/
theorem rel_or {α β : Type} {r : α → β → Prop} {a a' : Option α} {b b' : Option β}
    (first : Option.Rel r a b) (second : Option.Rel r a' b') :
    Option.Rel r (a.or a') (b.or b') := by
  cases first with
  | some related => exact .some related
  | none => exact second

/-- Where names are not repeated, the same declarations are found under every name. -/
theorem TypeShape.map_field?_eq {shape shape' : TypeShape} (simple : shape.Simple)
    (simple' : shape'.Simple)
    (same : ∀ d, d ∈ shape.fields.map FieldDef.declaration ↔
      d ∈ shape'.fields.map FieldDef.declaration) (name : String) :
    (shape.field? name).map FieldDef.declaration =
      (shape'.field? name).map FieldDef.declaration := by
  have kept {a b : TypeShape} (distinct : b.Simple)
      (sub : ∀ d ∈ a.fields.map FieldDef.declaration, d ∈ b.fields.map FieldDef.declaration)
      {f : FieldDef} (found : a.field? name = some f) :
      (b.field? name).map FieldDef.declaration = some f.declaration := by
    obtain ⟨g, mem, declared⟩ := List.mem_map.1
      (sub _ (List.mem_map_of_mem (List.mem_of_find?_eq_some found)))
    have called : g.name = f.name := congrArg Prod.fst declared
    have found' := find?_label_eq_some distinct.fields mem
    rw [called, name_of_field? found] at found'
    rw [show b.field? name = some g from found', Option.map_some, declared]
  cases found : shape.field? name with
  | some f => exact (kept simple' (fun d => (same d).1) found).symm
  | none =>
    cases found' : shape'.field? name with
    | none => rfl
    | some f =>
      have kept := kept simple (fun d => (same d).2) found'
      rw [found] at kept
      cases kept

namespace Engine

variable {e e₀ : Engine} {s : ScopeRef} {t : TypeRef} {c d : ClassRef} {name : String}

/-- No member of a live version is declared twice. -/
theorem Chronicled.simple (chronicled : e.Chronicled t) :
    (e.typeAt t).first.shape.Simple ∧ (e.typeAt t).live.shape.Simple := by
  have first : (e.typeAt t).first.shape.Simple := by
    rw [TypeShape.eq_ofUnit chronicled.shaped]
    exact TypeShape.simple_ofUnit chronicled.verified
  refine ⟨first, ?_⟩
  rcases chronicled.live_cases with ⟨-, isFirst⟩ | ⟨-, recorded⟩
  · rw [isFirst]
    exact first
  · rw [TypeShape.eq_ofUnit recorded.shaped]
    exact TypeShape.simple_ofUnit recorded.verified

section HostSearch

/-! The search of the host. -/

/-- The field that a class itself was defined with. -/
def ownHostField? (e : Engine) (name : String) (c : ClassRef) : Option HostField :=
  ((e.classAt c).ownField? name).map fun (index, slot) => ⟨c, index, slot⟩

/-- The host looks for a field in a class, then in its interfaces, then in its parent. -/
theorem Describes.hostField?_eq {spec : ClassSpec} (described : e.Describes c spec)
    (name : String) : e.hostField? c name = (e.ownHostField? name c).or
      ((spec.interfaces.findSome? fun i => e.hostField? i name).or
        (spec.parent.bind fun p => e.hostField? p name)) := by
  show (e.classAt c).fieldOrder.findSome? (e.ownHostField? name) = _
  rw [described.fieldOrder_eq, findSome?_order]
  refine congrArg ((e.ownHostField? name c).or ·) ?_
  rw [List.findSome?_append]
  cases spec.parent with
  | none => rfl
  | some p =>
    rw [Option.toList_some, List.findSome?_singleton]
    rfl

/-- A field of a class has a slot there, of its kind. -/
theorem Described.slotOf_mem (described : e.Described) {f : FieldDef}
    (mem : f ∈ (e.classAt c).unit.fields) : Class.slotOf (e.nameOf c) f ∈
      if f.isStatic then (e.classAt c).staticFields else (e.classAt c).instanceFields := by
  obtain ⟨spec, here⟩ := described c (lt_of_mem_fields mem)
  rw [here.unit_eq] at mem
  rw [here.nameOf_eq, here.staticFields_eq, here.instanceFields_eq]
  cases kind : f.isStatic with
  | true => exact List.mem_map_of_mem (List.mem_filter.2 ⟨mem, kind⟩)
  | false =>
    refine List.mem_append_right _ (List.mem_map_of_mem (List.mem_filter.2 ⟨mem, ?_⟩))
    rw [kind]
    rfl

/-- A class has a place for an instance field that it declares. -/
theorem Described.exists_fieldSlot? (described : e.Described) {f : FieldDef}
    (mem : f ∈ (e.classAt c).unit.fields) (plain : f.isStatic = false) :
    ∃ i, (e.classAt c).fieldSlot? (e.nameOf c) f.name = some i := by
  have slot := described.slotOf_mem mem
  rw [plain] at slot
  refine Option.isSome_iff_exists.1 ?_
  unfold Class.fieldSlot?
  rw [List.findIdx?_isSome]
  exact List.any_eq_true.2 ⟨_, slot, decide_eq_true ⟨rfl, rfl⟩⟩

/-- The host finds the fields that a class declares. -/
theorem Lineage.isSome_ownField? (lineage : e.Lineage) {f : FieldDef}
    (mem : f ∈ (e.classAt c).unit.fields) : ((e.classAt c).ownField? f.name).isSome := by
  have slot := lineage.described.slotOf_mem mem
  unfold Class.ownField?
  split
  next index place =>
    obtain ⟨lt, -⟩ := List.findIdx?_eq_some_iff_getElem.1 place
    rw [List.getElem?_eq_getElem lt]
    rfl
  next absent =>
    cases kind : f.isStatic with
    | true =>
      rw [kind] at slot
      have missed := List.findIdx?_eq_none_iff.1 absent _ slot
      exact absurd (decide_eq_true rfl) (Bool.eq_false_iff.1 missed)
    | false =>
      have declares : ((e.classAt c).unit.fields.any fun g => g.name = f.name && !g.isStatic) =
          true := by
        refine List.any_eq_true.2 ⟨f, mem, ?_⟩
        rw [kind]
        simp
      obtain ⟨index, place⟩ := lineage.described.exists_fieldSlot? mem kind
      have place : (e.classAt c).fieldSlot? (e.classAt c).name f.name = some index := place
      obtain ⟨lt, -⟩ := List.findIdx?_eq_some_iff_getElem.1 place
      rw [declares, if_pos rfl, place, Option.bind_eq_bind, Option.bind_some,
        List.getElem?_eq_getElem lt]
      rfl

/-- A class of a scope has another name than its superclasses. -/
theorem Housed.apart (housed : e.Housed) (home : e.Homes s c) :
    ∀ b ∈ (e.classAt c).superclasses, e.nameOf b ≠ e.nameOf c := by
  intro b above same
  obtain ⟨before, home_b⟩ := (housed.superclasses_descend home).1 b above
  exact Nat.ne_of_lt before (housed.eq_of_nameOf_eq home_b home same)

/-- The field that the host finds in a class of a scope is the one that the class declares. -/
theorem Housed.ownField?_eq (housed : e.Housed) (lineage : e.Lineage) (home : e.Homes s c)
    (name : String) : ((e.classAt c).ownField? name).map Prod.snd =
      ((e.classAt c).unit.field? name).map (Class.slotOf (e.nameOf c)) := by
  cases declared : (e.classAt c).unit.field? name with
  | some f =>
    have mem := List.mem_of_find?_eq_some declared
    have called : f.name = name := by simpa using List.find?_some declared
    subst called
    obtain ⟨⟨index, slot⟩, found⟩ := Option.isSome_iff_exists.1 (lineage.isSome_ownField? mem)
    obtain ⟨g, mem', called, rfl, -⟩ := lineage.ownField? (housed.apart home) found
    rw [found, lineage.field_eq mem mem' called.symm]
    rfl
  | none =>
    cases found : (e.classAt c).ownField? name with
    | none => rfl
    | some place =>
      obtain ⟨g, mem', called, -, -⟩ := lineage.ownField? (housed.apart home) found
      exact absurd (decide_eq_true called) (List.find?_eq_none.1 declared g mem')

end HostSearch

section Agreement

/-! Both searches. -/

/-- What a class itself declares now is what the host finds in it, if its live version declares
what the first one did. -/
theorem Housed.own_agrees (housed : e.Housed) (lineage : e.Lineage) (home : e.Homes s c)
    (keeps : ∀ t, e.managedOf? s c = some t → e.Chronicled t ∧ (e.typeAt t).KeepsFields) :
    Option.Rel LiveField.Agrees (e.ownLiveField? s name c) (e.ownHostField? name c) := by
  have declared := housed.ownField?_eq lineage home name
  have same {f : FieldDef} {index : Nat} {slot : FieldSlot} {managed : Option TypeRef}
      {placement : FieldPlacement} (called : f.name = name)
      (slotted : Class.slotOf (e.nameOf c) f = slot) (placed : placement = .native) :
      LiveField.Agrees ⟨e.nameOf c, name, f.sig, f.modifiers, managed, c, placement⟩
        ⟨c, index, slot⟩ := by
    subst slotted
    exact ⟨rfl, called.symm, rfl, rfl, rfl, rfl, placed⟩
  unfold ownLiveField? ownHostField?
  dsimp only
  cases managed : e.managedOf? s c with
  | none =>
    dsimp only
    cases found : (e.classAt c).unit.field? name with
    | none =>
      rw [found, Option.map_none, Option.map_eq_none_iff] at declared
      rw [declared]
      exact .none
    | some f =>
      rw [found, Option.map_some] at declared
      obtain ⟨⟨index, slot⟩, own, slotted⟩ := Option.map_eq_some_iff.1 declared
      rw [own]
      exact .some (same (by simpa using List.find?_some found) slotted.symm rfl)
  | some t =>
    dsimp only
    obtain ⟨chronicled, keeps⟩ := keeps t managed
    have hosted := housed.hosted_of_managedOf? home managed
    have first : (e.classAt c).unit.field? name = (e.typeAt t).first.shape.field? name := by
      rw [TypeShape.eq_ofUnit chronicled.shaped]
      unfold TypeUnit.field?
      rw [hosted.fields]
      rfl
    have simple := chronicled.simple
    have alike := TypeShape.map_field?_eq simple.2 simple.1 keeps.fields name
    rw [first] at declared
    cases found : (e.typeAt t).live.shape.field? name with
    | none =>
      rw [found, Option.map_none, eq_comm, Option.map_eq_none_iff] at alike
      rw [alike, Option.map_none, Option.map_eq_none_iff] at declared
      rw [declared]
      exact .none
    | some f =>
      rw [found, Option.map_some, eq_comm] at alike
      obtain ⟨g, found', alike⟩ := Option.map_eq_some_iff.1 alike
      obtain ⟨called, sig, modifiers⟩ : _ = _ ∧ _ = _ ∧ _ = _ := by
        simpa only [FieldDef.declaration, Prod.mk.injEq] using alike
      rw [found', Option.map_some] at declared
      obtain ⟨⟨index, slot⟩, own, slotted⟩ := Option.map_eq_some_iff.1 declared
      rw [own]
      have slotted : Class.slotOf (e.nameOf c) f = slot := by
        rw [show slot = _ from slotted]
        unfold Class.slotOf
        rw [called, sig, modifiers]
      have placed : (e.typeAt t).fieldPlacement f = .native := by
        have named := TypeShape.name_of_field? found
        unfold ManagedType.fieldPlacement placement FieldDef.isStatic
        rw [named, found']
        dsimp only
        rw [sig, modifiers, if_pos ⟨rfl, rfl⟩]
      exact .some (same (TypeShape.name_of_field? found) slotted placed)

/-- What a class has from its interfaces is what the host finds in them. -/
theorem interface_agrees (e : Engine) (name : String) (c : ClassRef) :
    Option.Rel LiveField.Agrees (e.interfaceField? name c)
      ((e.classAt c).interfaces.findSome? fun i => e.hostField? i name) := by
  unfold interfaceField?
  cases (e.classAt c).interfaces.findSome? fun i => e.hostField? i name with
  | none => exact .none
  | some h => exact .some ⟨rfl, rfl, rfl, rfl, rfl, rfl, rfl⟩

/-- The search along a class and its superclasses comes to the field that the host finds. -/
theorem Housed.fieldIn?_agrees (housed : e.Housed) (lineage : e.Lineage) (home : e.Homes s c)
    (keeps : ∀ d ∈ c :: (e.classAt c).superclasses, ∀ t, e.managedOf? s d = some t →
      e.Chronicled t ∧ (e.typeAt t).KeepsFields) :
    Option.Rel LiveField.Agrees
      ((c :: (e.classAt c).superclasses).findSome? (e.fieldIn? s name)) (e.hostField? c name) := by
  induction c using Nat.strongRecOn with
  | ind c ih =>
    obtain ⟨above, parents⟩ := housed.superclasses_eq home
    obtain ⟨_, known⟩ := home
    obtain ⟨spec, described, -, -, -⟩ := housed.classes s _ c known
    have own : Option.Rel LiveField.Agrees (e.ownLiveField? s name c) (e.ownHostField? name c) :=
      housed.own_agrees lineage ⟨_, known⟩ (keeps c List.mem_cons_self)
    have here : Option.Rel LiveField.Agrees (e.fieldIn? s name c) ((e.ownHostField? name c).or
        (spec.interfaces.findSome? fun i => e.hostField? i name)) := by
      have inherited := e.interface_agrees name c
      rw [described.interfaces_eq] at inherited
      rw [show e.fieldIn? s name c = _ from Option.orElse_eq_or]
      exact rel_or own inherited
    have first : ∀ rest, (c :: rest).findSome? (e.fieldIn? s name) =
        (e.fieldIn? s name c).or (rest.findSome? (e.fieldIn? s name)) := by
      intro rest
      rw [List.findSome?_cons]
      cases e.fieldIn? s name c <;> rfl
    rw [described.hostField?_eq, ← Option.or_assoc, first]
    refine rel_or here ?_
    rw [above, ← described.parent_eq]
    cases parent : (e.classAt c).parent with
    | none => exact .none
    | some p =>
      obtain ⟨lt, home_p⟩ := parents p parent
      rw [above, parent] at keeps
      exact ih p lt home_p fun d mem => keeps d (List.mem_cons_of_mem _ mem)

end Agreement

/-- While code runs classes go back to what they were defined from. -/
theorem During.lineage (during : e₀.During e) (lineage : e₀.Lineage) : e.Lineage := by
  intro c lt
  obtain ⟨spec, founded⟩ := lineage c (during.classes_size ▸ lt)
  exact ⟨spec, founded.of_grows during.grows⟩

/-- While the managed types among a class and its superclasses keep their supertypes and the
declarations of their fields, live versions find for the class what the host finds. -/
theorem During.resolveField_agrees (during : e₀.During e) (reachable : e₀.Reachable)
    (home : e.Homes s c)
    (unchanged : ∀ d ∈ c :: (e.classAt c).superclasses, ∀ t, e.managedOf? s d = some t →
      (e.typeAt t).KeepsFields) (name : String) :
    ∃ found, e.resolveField s c name = .ok found ∧
      Option.Rel LiveField.Agrees found (e.hostField? c name) := by
  have housed := during.housed reachable.housed reachable.grounded
  have lineage := during.lineage reachable.lineage
  have homes : ∀ d ∈ c :: (e.classAt c).superclasses, e.Homes s d := by
    intro d mem
    rcases List.mem_cons.1 mem with rfl | above
    · exact home
    · exact ((housed.superclasses_descend home).1 d above).2
  have chronicled {d : ClassRef} {t : TypeRef} (managed : e.managedOf? s d = some t) :
      e.Chronicled t :=
    during.chronicled reachable (housed.managed_of_managedOf? managed).1
  have chain : e.liveChain s c = ⟨c :: (e.classAt c).superclasses, .top⟩ := by
    refine housed.liveChain_of_parents home fun d mem =>
      housed.liveParent_of_keeps (homes d mem) fun t managed => ?_
    rw [(unchanged d mem t managed).superName, TypeShape.eq_ofUnit (chronicled managed).shaped]
    rfl
  have agrees : Option.Rel LiveField.Agrees
      ((c :: (e.classAt c).superclasses).findSome? (e.fieldIn? s name)) (e.hostField? c name) :=
    housed.fieldIn?_agrees lineage home fun d mem t managed =>
      ⟨chronicled managed, unchanged d mem t managed⟩
  have resolves : e.resolveField s c name =
      .ok ((c :: (e.classAt c).superclasses).findSome? (e.fieldIn? s name)) := by
    unfold Engine.resolveField
    rw [chain]
    exact LiveChain.findSome?_top _ _
  exact ⟨_, resolves, agrees⟩

end Engine

/-- While the managed types among a class and its superclasses keep their supertypes and the
declarations of their fields, live versions and the host find the same field of the class under
every name, or both find none.  So the guard of an access that fits the field and that the
caller may make leaves it to the host's instruction. -/
theorem unchanged_fields_resolve_alike {e₀ e : Engine} {s : ScopeRef} {typeName : String}
    {c : ClassRef} (reachable : e₀.Reachable) (during : e₀.During e)
    (known : e.class? s typeName = some c)
    (unchanged : ∀ d ∈ c :: (e.classAt c).superclasses, ∀ t, e.managedOf? s d = some t →
      (e.typeAt t).KeepsFields) (name : String) :
    ∃ found, e.resolveField s c name = .ok found ∧
      Option.Rel LiveField.Agrees found (e.hostField? c name) ∧
      ∀ live, found = some live → ∀ (m : Machine) (caller : ClassRef) (access : FieldAccess)
        (sig : TypeSig), m.scope = s →
        checkFieldUse access ⟨typeName, name, sig⟩ live.isStatic live.sig = .ok () →
        e.mayUse s caller live.declaring live.modifiers = true →
        m.routeField caller access ⟨typeName, name, sig⟩ e = .ok .native e := by
  obtain ⟨found, resolves, agrees⟩ :=
    during.resolveField_agrees reachable ⟨typeName, known⟩ unchanged name
  refine ⟨_, resolves, agrees, fun live found m caller access sig scope fits permitted => ?_⟩
  subst scope
  by_cases reloaded : (e.scopeAt m.scope).epoch = 0
  · unfold Machine.routeField
    rw [bind_apply, ask_apply]
    dsimp only
    rw [if_pos reloaded]
    rfl
  · rw [found] at resolves agrees
    have reach : Machine.reaches e c live = true := by
      obtain ⟨host, linked, agrees⟩ : ∃ host, e.hostField? c name = some host ∧
          live.Agrees host := by
        generalize e.hostField? c name = linked at agrees
        cases agrees with
        | some related => exact ⟨_, rfl, related⟩
      have named := Engine.name_of_resolveField resolves
      unfold Machine.reaches
      rw [named, linked, Option.any_some, agrees.placement, agrees.declaring, agrees.isStatic,
        agrees.sig]
      simp
    rw [Machine.routeField_apply reloaded known resolves fits caller, permitted, reach]
    rfl

namespace Reordering

/-- An interface with a static field. -/
def tags : TypeUnit :=
  (TypeUnit.interfaceNamed "lib.I").addField
    ⟨"k", .int, .publicBit ||| .staticBit, none, []⟩

/-- A class that implements it. -/
def base : TypeUnit := (TypeUnit.named "lib.P").implementing "lib.I"

/-- Two fields of a type below. -/
def fields : List FieldDef :=
  [⟨"x", .int, .staticBit, none, []⟩, ⟨"y", .str, .privateBit, none, []⟩]

/-- A type below with these fields. -/
def below (fields : List FieldDef) : TypeUnit :=
  { (TypeUnit.named "app.T").extending "lib.P" with fields }

/-- A scope in which all three were defined. -/
def defined : Engine :=
  (((Engine.opened { included := ["app.*"] }).defining 4 tags).defining 4 base).defining 4
    (below fields)

/-- The scope after a reload that declares the fields in another order. -/
def engine : Engine := defined.reloading 4 0 "again" (below fields.reverse)

set_option maxRecDepth 100000 in
theorem outcomes :
    (((Engine.opened { included := ["app.*"] }).defining 4 tags).scopes.size = 1 ∧
      (((Engine.opened { included := ["app.*"] }).defining 4 tags).defining 4 base).scopes.size =
        1 ∧ defined.types.size = 1) ∧
    ((engine.scopeAt 0).epoch = 1 ∧ engine.class? 0 "app.T" = some 2 ∧
      (engine.classAt 2).superclasses = [1] ∧ engine.managedOf? 0 2 = some 0 ∧
      engine.managedOf? 0 1 = none) ∧
    (engine.typeAt 0).live.shape.superName = (engine.typeAt 0).first.shape.superName ∧
    (engine.typeAt 0).live.shape.fields = fields.reverse ∧
    (engine.typeAt 0).first.shape.fields = fields ∧
    engine.mayUse 0 1 "lib.I" (.publicBit ||| .staticBit) = true ∧
    engine.hostField? 2 "k" = some ⟨0, 0, ⟨"lib.I", "k", .int, .publicBit ||| .staticBit⟩⟩ := by
  decide +kernel

theorem reachable : engine.Reachable := by
  obtain ⟨⟨one, two, three⟩, -⟩ := outcomes
  have opened : (Engine.opened { included := ["app.*"] }).Reachable := Engine.reachable_opened _
  have all : defined.Reachable :=
    ((opened.defining 4 tags (by decide)).defining 4 base (by rw [one]; exact Nat.one_pos)).defining
      4 (below fields) (by rw [two]; exact Nat.one_pos)
  exact all.reloading 4 0 "again" (below fields.reverse) (by rw [three]; exact Nat.one_pos)

end Reordering

open Reordering in
/-- After a reload that only declares the fields in another order, an access of a field that the
type has from an interface of its superclass is left to the host's instruction. -/
theorem unchanged_fields_resolve_alike_reordered :
    (engine.scopeAt 0).epoch = 1 ∧ (Machine.of 0 8).routeField 1 .getStatic ⟨"app.T", "k", .int⟩
      engine = .ok .native engine := by
  obtain ⟨-, ⟨epoch, known, chain, managed, unmanaged⟩, super, live, first, permitted, linked⟩ :=
    outcomes
  have reachable := reachable
  -- What matters about the engine is known; its definition is not to be unfolded.
  generalize engine = e at *
  have keeps : (e.typeAt 0).KeepsFields := by
    refine ⟨super, fun d => ?_⟩
    rw [live, first, List.map_reverse, List.mem_reverse]
  have unchanged : ∀ d ∈ 2 :: (e.classAt 2).superclasses, ∀ t, e.managedOf? 0 d = some t →
      (e.typeAt t).KeepsFields := by
    intro d mem t here
    rw [chain] at mem
    rcases List.mem_cons.1 mem with rfl | mem
    · rw [managed] at here
      exact Option.some.inj here ▸ keeps
    · rw [List.mem_singleton.1 mem, unmanaged] at here
      cases here
  obtain ⟨found, -, agrees, native⟩ :=
    unchanged_fields_resolve_alike reachable (.refl e) known unchanged "k"
  rw [linked] at agrees
  cases agrees with
  | @some live host agrees =>
    refine ⟨epoch, native live rfl (Machine.of 0 8) 1 .getStatic .int rfl ?_ ?_⟩
    · rw [agrees.isStatic, agrees.sig]
      rfl
    · rw [agrees.declaring, agrees.modifiers]
      exact permitted

end LiveUpdate
