import LiveUpdate.Proofs.BuiltClasses
import LiveUpdate.Proofs.EntryChecks
import LiveUpdate.Proofs.OwnEntries

/-!
# How a host form is wired

The host form of a unit is put together from the unit's own methods and from those that were
generated for its parent, and three things have to fit: the number in the check in front of a
body, the slot that the table has under that number, and the member itself.  They do, for
every member; the form keeps everything else of the unit, and the class that is defined from it
still says how its methods were declared.
-/

set_option autoImplicit false

namespace LiveUpdate

/-- New members that are told apart get the next slots, in their order. -/
theorem SlotTable.slots_assignAll {t : SlotTable} {keys : List MemberKey} {origin : SlotOrigin}
    (distinct : keys.Nodup) (new : ∀ key ∈ keys, key ∉ t.slots.map Slot.key) :
    (t.assignAll keys origin).slots = t.slots ++ keys.map fun key => ⟨key, origin⟩ := by
  induction keys generalizing t with
  | nil => exact (List.append_nil _).symm
  | cons key rest ih =>
    obtain ⟨apart, distinct⟩ := List.nodup_cons.1 distinct
    have added : (t.assign key origin).slots = t.slots ++ [⟨key, origin⟩] := by
      unfold assign
      rw [slotOf?_eq_none_iff.2 (new key List.mem_cons_self)]
      rfl
    have later : ∀ key' ∈ rest, key' ∉ (t.assign key origin).slots.map Slot.key := by
      intro key' mem
      rw [added, List.map_append, List.mem_append, not_or]
      refine ⟨new key' (List.mem_cons_of_mem _ mem), fun same => ?_⟩
      have same : key' = key := List.mem_singleton.1 same
      exact apart (same ▸ mem)
    show ((t.assign key origin).assignAll rest origin).slots = _
    rw [ih distinct later, added, List.append_assoc]
    rfl

/-- The slot that a member has is its own. -/
theorem SlotTable.key_of_slotOf? {t : SlotTable} {key : MemberKey} {slot : Nat}
    (known : t.slotOf? key = some slot) : (t.get? slot).map Slot.key = some key := by
  obtain ⟨lt, same, -⟩ := List.findIdx?_eq_some_iff_getElem.1 known
  unfold get?
  rw [List.getElem?_eq_getElem lt]
  exact congrArg some (of_decide_eq_true same)

namespace Modifiers

/-- The bits that say who may use a member. -/
def accessBits : Modifiers := publicBit ||| privateBit ||| protectedBit

theorem visibility_withVisibility_everyone (m : Modifiers) :
    (m.withVisibility .everyone).visibility = .everyone := by
  have parts : (m.bits &&& ~~~7 ||| 1) &&& 1 = (m.bits &&& ~~~7 &&& 1) ||| (1 &&& 1) :=
    UInt32.eq_of_toBitVec_eq BitVec.and_or_distrib_right
  have masked : m.bits &&& ~~~7 &&& 1 = 0 := by
    rw [UInt32.and_assoc]
    exact UInt32.and_zero
  have set : (m.withVisibility .everyone).contains publicBit = true := by
    refine decide_eq_true ?_
    show (m.bits &&& ~~~7 ||| 1) &&& 1 = 1
    rw [parts, masked]
    rfl
  unfold visibility
  rw [if_pos set]

theorem without_withVisibility_everyone (m : Modifiers) :
    (m.withVisibility .everyone).without accessBits = m.without accessBits := by
  have parts : (m.bits &&& ~~~7 ||| 1) &&& ~~~7 = (m.bits &&& ~~~7 &&& ~~~7) ||| (1 &&& ~~~7) :=
    UInt32.eq_of_toBitVec_eq BitVec.and_or_distrib_right
  refine congrArg Modifiers.mk ?_
  show (m.bits &&& ~~~7 ||| 1) &&& ~~~7 = m.bits &&& ~~~7
  rw [parts, UInt32.and_assoc, UInt32.and_self]
  exact UInt32.or_zero

end Modifiers

/-- A call of a method with this code executes the check first, with the arguments in the local
slots, and comes to it only once. -/
def ChecksOnce (check : Instr) (code : List Instr) : Prop :=
  ∀ (m : Machine) (c : ClassRef) (method : Method) (args : List Value) (e : Engine),
    method.code = code →
      (Frame.enter c method args).instr? = some check ∧
        ∀ now, m.Visits ⟨.enter c method args, e⟩ now →
          now = ⟨.enter c method args, e⟩ ∨ 0 < now.frame.pc

theorem CheckedBody.checksOnce {check : Instr} {body checked : List Instr}
    (behind : CheckedBody check body checked) : ChecksOnce check checked := by
  intro m c method args e code
  refine ⟨?_, fun now visits => (visits.eq_start_or (code ▸ behind.apart)).2⟩
  show method.code[0]? = some check
  rw [code, ← List.head?_eq_getElem?]
  exact behind.first

/-- A member as it stands in a host form, wired to its slot. -/
structure Wired (id : TypeId) (slots : SlotTable) (origin placed : MethodDef) : Prop where
  /-- Nothing but the modifiers and the body is changed. -/
  rest : { placed with modifiers := origin.modifiers, code := origin.code } = origin
  /-- A body begins with the check for the slot of its own member, whose number fits the
  instruction as long as there are no more slots than it can name. -/
  checked : HostForm.isChecked origin = true → ∃ slot : Nat,
    (slots.get? slot).map Slot.key = some origin.key ∧
      (slots.size ≤ UInt32.size → (UInt32.ofNat slot).toNat = slot) ∧
      CheckedBody (.entryCheck id (UInt32.ofNat slot)) origin.code placed.code ∧
      ChecksOnce (.entryCheck id (UInt32.ofNat slot)) placed.code
  unchecked : HostForm.isChecked origin = false → placed.code = origin.code
  /-- Only who may use a member is changed, and neither for the static initializer nor for what
  is private. -/
  others : placed.modifiers.without .accessBits = origin.modifiers.without .accessBits
  initializer : origin.isStaticInit = true → placed.modifiers = origin.modifiers
  isPrivate : origin.modifiers.isPrivate = true → placed.modifiers = origin.modifiers
  open_ : origin.isStaticInit = false →
    placed.modifiers.visibility = .everyone ∨ placed.modifiers.visibility = .owner

namespace HostForm

variable {u : TypeUnit} {parent : Option Class}

theorem isChecked_widen (m : MethodDef) : isChecked (widen m) = isChecked m := by
  have marks := contains_widen m .superDispatcherBit rfl rfl
  have named : (widen m).isStaticInit = m.isStaticInit := by
    unfold widen
    split <;> rfl
  unfold isChecked
  rw [marks, named, code_widen]

/-- A private method is left as it is. -/
theorem isWidened_of_isPrivate {m : MethodDef} (isPrivate : m.modifiers.isPrivate = true) :
    isWidened m = false := by
  have isPrivate : m.modifiers.contains .privateBit = true := isPrivate
  unfold isWidened Modifiers.visibility
  rw [isPrivate]
  cases m.modifiers.contains .publicBit <;> rfl

/-- A body goes behind the check for its slot. -/
theorem code_place_eq {m : MethodDef} (id : TypeId) {slot : Nat}
    (known : (ofUnit u id parent).slots.slotOf? m.key = some slot) (checked : isChecked m = true) :
    (place u id parent m).code =
      relocate [.entryCheck id (UInt32.ofNat slot)] (fun instr => [instr]) m.code := by
  have named : (widen m).key = m.key := by
    unfold widen
    split <;> rfl
  unfold place addCheck
  rw [named, known]
  dsimp only
  rw [if_pos ((isChecked_widen m).trans checked), code_widen]

/-- Behind the check is the body; without a slot or a body there is no check. -/
theorem code_place {m : MethodDef} (id : TypeId) (inside : JumpsInside m.code) {slot : Nat}
    (known : (ofUnit u id parent).slots.slotOf? m.key = some slot) (checked : isChecked m = true) :
    CheckedBody (.entryCheck id (UInt32.ofNat slot)) m.code (place u id parent m).code := by
  rw [code_place_eq id known checked]
  exact checkedBody inside rfl

theorem code_place_of_unchecked {m : MethodDef} (id : TypeId) (unchecked : isChecked m = false) :
    (place u id parent m).code = m.code := by
  have unchecked : ¬ isChecked (widen m) = true := by
    rw [isChecked_widen, unchecked]
    exact Bool.false_ne_true
  unfold place addCheck
  split
  · rw [if_neg unchecked]
    exact code_widen m
  · exact code_widen m

/-- The slots of a host form: first the unit's own methods, then what it catches. -/
theorem slots_ofUnit (id : TypeId) (own : (u.methods.map MethodDef.key).Nodup)
    (distinct : ∀ p ∈ parent, (p.vtable.map Prod.fst).Nodup) :
    (ofUnit u id parent).slots.slots =
      (u.methods.filter fun m => !m.isStaticInit).map (fun m => ⟨m.key, .declared⟩) ++
        ((parent.map (catchers u)).getD []).map fun c => ⟨c.method.key, .catcher⟩ := by
  let declared := (u.methods.filter fun m => !m.isStaticInit).map MethodDef.key
  let caught := ((parent.map (catchers u)).getD []).map fun c => c.method.key
  have first : (SlotTable.assignAll {} declared .declared).slots =
      declared.map fun key => ⟨key, .declared⟩ :=
    SlotTable.slots_assignAll (own.sublist (List.filter_sublist.map _))
      fun _ _ none_ => by cases none_
  have apart : caught.Nodup := by
    cases parent with
    | none => exact List.nodup_nil
    | some p => exact nodup_catchers u (distinct p rfl)
  have new : ∀ key ∈ caught,
      key ∉ (SlotTable.assignAll {} declared .declared).slots.map Slot.key := by
    intro key mem there
    rw [first, List.map_map] at there
    obtain ⟨catcher, listed, rfl⟩ := List.mem_map.1 mem
    obtain ⟨key, named, same⟩ := List.mem_map.1 there
    obtain ⟨m, inUnit, rfl⟩ := List.mem_map.1 named
    have made : catcher.method ∈ generated u parent :=
      List.mem_append_left _ (List.mem_map_of_mem listed)
    have free := List.find?_eq_none.1 (mem_generated made).1 m (List.mem_filter.1 inUnit).1
    exact free (decide_eq_true same)
  have all : (ofUnit u id parent).slots.slots = (SlotTable.assignAll {} declared .declared).slots ++
      caught.map fun key => ⟨key, .catcher⟩ := SlotTable.slots_assignAll apart new
  rw [all, first, List.map_map, List.map_map]
  rfl

/-- A super-dispatcher is marked as one. -/
theorem contains_of_mem_superDispatchers {p : Class} {m : MethodDef}
    (mem : m ∈ superDispatchers u p) : m.modifiers.contains .superDispatcherBit = true := by
  obtain ⟨entry, -, made⟩ := List.mem_filterMap.1 mem
  dsimp only at made
  split at made
  · cases made
  · cases made
    show (Modifiers.publicBit ||| .syntheticBit ||| .superDispatcherBit).contains _ = true
    decide

/-- Every member with a check in front of its body has a slot. -/
theorem slotOf?_of_isChecked (id : TypeId) {m : MethodDef}
    (mem : m ∈ u.methods ++ generated u parent) (checked : isChecked m = true) :
    ∃ slot, (ofUnit u id parent).slots.slotOf? m.key = some slot := by
  unfold isChecked at checked
  simp only [Bool.and_eq_true, Bool.not_eq_true'] at checked
  obtain ⟨⟨plain, unmarked⟩, -⟩ := checked
  refine Option.isSome_iff_exists.1 ?_
  rcases List.mem_append.1 mem with own | made
  · exact (serves_slots u id parent).covered m.key (List.mem_map_of_mem own) plain
  · rcases List.mem_append.1 made with caught | dispatches
    · obtain ⟨catcher, listed, rfl⟩ := List.mem_map.1 caught
      exact SlotTable.slotOf?_assignAll_isSome _ _ (List.mem_map_of_mem listed)
    · cases parent with
      | none => cases dispatches
      | some p =>
        rw [contains_of_mem_superDispatchers dispatches] at unmarked
        cases unmarked

/-- Every member of a host form is wired to its slot. -/
theorem wired_place (id : TypeId) (jumps : ∀ m ∈ u.methods, JumpsInside m.code) {m : MethodDef}
    (mem : m ∈ u.methods ++ generated u parent) :
    Wired id (ofUnit u id parent).slots m (place u id parent m) := by
  have inside : JumpsInside m.code := by
    rcases List.mem_append.1 mem with own | made
    · exact jumps m own
    · obtain ⟨-, name, owner, key, mark, rfl, -⟩ := mem_generated made
      exact jumpsInside_of_unmoved forwardingCode_unmoved
  have modifiers := modifiers_place u id parent m
  have unwidened (still : isWidened m = false) : (place u id parent m).modifiers = m.modifiers := by
    rw [modifiers]
    unfold widen
    rw [if_neg (by simp [still])]
  refine ⟨?_, fun checked => ?_, code_place_of_unchecked id, ?_, fun init => unwidened ?_,
    fun isPrivate => unwidened (isWidened_of_isPrivate isPrivate), fun plain => ?_⟩
  · obtain ⟨modifiers', widened⟩ : ∃ modifiers', widen m = { m with modifiers := modifiers' } := by
      unfold widen
      split
      · exact ⟨_, rfl⟩
      · exact ⟨m.modifiers, rfl⟩
    unfold place addCheck
    rw [widened]
    split
    · split <;> rfl
    · rfl
  · obtain ⟨slot, known⟩ := slotOf?_of_isChecked id mem checked
    have behind := code_place id inside known checked
    refine ⟨slot, SlotTable.key_of_slotOf? known, fun few => ?_, behind, behind.checksOnce⟩
    obtain ⟨lt, -⟩ := List.findIdx?_eq_some_iff_getElem.1 known
    exact UInt32.toNat_ofNat_of_lt' (Nat.lt_of_lt_of_le lt few)
  · rw [modifiers]
    unfold widen
    split
    · exact Modifiers.without_withVisibility_everyone _
    · rfl
  · unfold isWidened
    rw [init, Bool.not_true, Bool.and_false]
  · rw [modifiers]
    unfold widen
    split
    · exact .inl (Modifiers.visibility_withVisibility_everyone _)
    next still =>
      unfold isWidened at still
      rw [plain] at still
      cases visible : m.modifiers.visibility with
      | everyone => exact .inl rfl
      | owner => exact .inr rfl
      | heirs | package =>
        rw [visible] at still
        exact absurd rfl still

/-- The class that is defined from a host form says how the methods of the unit are declared. -/
theorem declared_of_define (verified : u.verify = .ok ()) (id managed : TypeId)
    {place : ClassRef} {number : Nat} {above : Option ClassRef} {below : List ClassRef}
    {parentClass : Option Class} {interfaces : List Class} {c : Class}
    (defined : Class.define place number ((ofUnit u id parent).spec managed above below) parentClass
      interfaces = .ok c) {m : MethodDef} (mem : m ∈ u.methods) :
    ∃ b, c.method? m.key = some b ∧ b.declared = m.modifiers := by
  have distinct := TypeUnit.nodup_keys_of_verify verified
  have own : u.method? m.key = some m := find?_label_eq_some distinct mem
  have uncaught : (caughtAccess u parent).get? m.key = none := by
    cases caught : (caughtAccess u parent).get? m.key with
    | none => rfl
    | some access =>
      obtain ⟨free, -⟩ := get?_caughtAccess caught
      cases own.symm.trans free
  have found : ((ofUnit u id parent).spec managed above below).unit.methods.reverse.find?
      (fun m' => m'.key = m.key) = some (HostForm.place u id parent m) := by
    have search : (ofUnit u id parent).unit.methods.reverse.find? (fun m' => m'.key = m.key) =
        _ := find?_methods distinct m.key
    rw [own, Option.some_or] at search
    exact search
  rw [(Class.define_eq_ok defined).1]
  refine ⟨Class.bind u.name (ofUnit u id parent).declaredAccess (HostForm.place u id parent m),
    ?_, ?_⟩
  · show (Class.methodsOf _).get? m.key = _
    rw [Class.get?_methodsOf, found]
    rfl
  · show (Table.get? _ (HostForm.place u id parent m).key).getD
      (HostForm.place u id parent m).modifiers = m.modifiers
    rw [key_place, get?_declaredAccess distinct, uncaught, own, Option.none_or, modifiers_place]
    unfold widen
    cases widened : isWidened m <;> simp [Option.filter, widened]

end HostForm

/-- A host form is the unit with its members wired to their slots: its own ones, which keep what
they declare, and those that were generated for the parent. -/
structure HostForm.Wires (form : HostForm) (u : TypeUnit) (id : TypeId) (parent : Option Class) :
    Prop where
  rest : { form.unit with methods := u.methods, flags := u.flags } = u
  members : List.Forall₂ (Wired id form.slots) (u.methods ++ generated u parent) form.unit.methods
  slots : form.slots.slots =
    (u.methods.filter fun m => !m.isStaticInit).map (fun m => ⟨m.key, .declared⟩) ++
      ((parent.map (catchers u)).getD []).map fun c => ⟨c.method.key, .catcher⟩
  distinct : form.slots.Distinct
  /-- The class that is defined from the form says how the methods of the unit are declared. -/
  declared : ∀ (managed : TypeId) (place : ClassRef) (number : Nat) (above : Option ClassRef)
    (below : List ClassRef) (parentClass : Option Class) (interfaces : List Class) (c : Class),
    Class.define place number (form.spec managed above below) parentClass interfaces = .ok c →
      ∀ m ∈ u.methods, ∃ b, c.method? m.key = some b ∧ b.declared = m.modifiers

/-- The host form of an accepted unit, with any number and below any parent that was built by
definitions, is wired: the number in the check in front of a body is that of the slot of the very
member, which no other has; the check is executed once for each call, before anything else; behind it
is the body that the unit has; and nothing is lost of what the unit declares. -/
theorem host_form_wires_members {u : TypeUnit} (verified : u.verify = .ok ()) (id : TypeId)
    {parent : Option Class} (built : ∀ p ∈ parent, p.Built fun _ => True) :
    (HostForm.ofUnit u id parent).Wires u id parent where
  rest := rfl
  members := by
    rw [HostForm.methods_ofUnit, List.forall₂_map_right_iff, List.forall₂_same]
    intro m mem
    exact HostForm.wired_place id (fun m => TypeUnit.jumpsInside_of_verify verified) mem
  slots := HostForm.slots_ofUnit id (TypeUnit.nodup_keys_of_verify verified) fun p some_p =>
    (built p some_p).nodup_vtable
  distinct := (SlotTable.distinct_empty.assignAll _ _).assignAll _ _
  declared managed _ _ _ _ _ _ _ defined _ mem :=
    HostForm.declared_of_define verified id managed defined mem

namespace Wiring

/-- A type with a method that a subtype may override. -/
def parent : Class :=
  Class.fresh 0 0 (.plain ((TypeUnit.named "lib.P").addMethod
    (.make "m" ⟨[], .int⟩ .protectedBit [.constInt 1, .retValue])) none []) none []

/-- A type with guards, below it: a loop for its package, a private method that calls what is
inherited, and a static initializer. -/
def unit : TypeUnit :=
  (((((TypeUnit.named "app.C").extending "lib.P").addMethod
    (.make "loop" ⟨[.bool], .void⟩ .empty [.load 1, .jumpIf true 0, .ret])).addMethod
      (.make "secret" ⟨[], .int⟩ .privateBit
        [.load 0, .invokeCheck 0, .invoke .virtual ⟨"app.C", "m", ⟨[], .int⟩⟩, .retValue])).addStaticInit
          [.ret]).markInstrumented

def form : HostForm := HostForm.ofUnit unit 7 (some parent)

theorem built : parent.Built fun _ => True :=
  .define trivial (fun p none_ => by cases none_)
    (show Class.define 0 0 (.plain parent.unit none []) none [] = .ok parent from rfl)

set_option maxRecDepth 100000 in
theorem facts :
    form.slots.slots = [⟨⟨"loop", ⟨[.bool], .void⟩⟩, .declared⟩, ⟨⟨"secret", ⟨[], .int⟩⟩, .declared⟩,
      ⟨⟨"m", ⟨[], .int⟩⟩, .catcher⟩] ∧
    form.unit.methods.map (fun m => (m.name, m.modifiers.visibility, m.code.head?)) =
      [("loop", .everyone, some (.entryCheck 7 0)), ("secret", .owner, some (.entryCheck 7 1)),
        ("<clinit>", .package, some .ret), ("m", .everyone, some (.entryCheck 7 2)),
        ("__super$app$C$m", .everyone, some (.load 0))] ∧
    form.unit.methods.head?.map MethodDef.code =
      some [.entryCheck 7 0, .load 1, .jumpIf true 1, .ret] := by
  decide +kernel

end Wiring

open Wiring in
/-- A type with members of every kind, whose inherited method is caught. -/
theorem host_form_wires_members_caught :
    unit.verify = .ok () ∧ (parent.Built fun _ => True) ∧ form.Wires unit 7 (some parent) ∧
      form.slots.slots = [⟨⟨"loop", ⟨[.bool], .void⟩⟩, .declared⟩,
        ⟨⟨"secret", ⟨[], .int⟩⟩, .declared⟩, ⟨⟨"m", ⟨[], .int⟩⟩, .catcher⟩] ∧
      form.unit.methods.map (fun m => (m.name, m.modifiers.visibility, m.code.head?)) =
        [("loop", .everyone, some (.entryCheck 7 0)), ("secret", .owner, some (.entryCheck 7 1)),
          ("<clinit>", .package, some .ret), ("m", .everyone, some (.entryCheck 7 2)),
          ("__super$app$C$m", .everyone, some (.load 0))] ∧
      form.unit.methods.head?.map MethodDef.code =
        some [.entryCheck 7 0, .load 1, .jumpIf true 1, .ret] := by
  have verified : unit.verify = .ok () := by rfl
  have wired := host_form_wires_members verified 7
    fun p some_p => Option.some.inj some_p ▸ built
  exact ⟨verified, built, wired, facts⟩

end LiveUpdate
