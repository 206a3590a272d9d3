import LiveUpdate.Proofs.BuiltClasses
import LiveUpdate.Proofs.DerivedBodies
import LiveUpdate.Proofs.Verifying

/-!
# Instrumented units are accepted

What the engine makes of an accepted unit is never verified again.  It would be accepted: every
rule that a method obeys it obeys with guards in its body, with a check in front of it and with
its visibility widened, and the members that are generated from the parent obey them because the
methods that they forward to have as many parameters as a frame has local slots for.
-/

set_option autoImplicit false

namespace LiveUpdate

namespace TypeUnit

/-- What the engine has marked counts as instrumented. -/
theorem isInstrumented_markInstrumented (u : TypeUnit) :
    u.markInstrumented.isInstrumented = true := by
  have kept : (u.flags ||| instrumentedFlag) &&& instrumentedFlag =
      (u.flags &&& instrumentedFlag) ||| (instrumentedFlag &&& instrumentedFlag) :=
    UInt32.eq_of_toBitVec_eq BitVec.and_or_distrib_right
  refine decide_eq_true fun none_ => ?_
  have none_ : (u.flags ||| instrumentedFlag) &&& instrumentedFlag = 0 := none_
  rw [kept, UInt32.or_eq_zero_iff] at none_
  exact absurd none_.2 (by decide)

end TypeUnit

/-- Code that calls a constructor does so wherever it is moved. -/
theorem any_callsConstructor_relocate (prologue : List Instr) {expand : Instr → List Instr}
    (kept : ∀ instr, instr ∈ expand instr) {code : List Instr}
    (calls : code.any Instr.callsConstructor = true) :
    (relocate prologue expand code).any Instr.callsConstructor = true := by
  obtain ⟨instr, mem, calls⟩ := List.any_eq_true.1 calls
  refine List.any_eq_true.2 ⟨relocateJump _ _ instr, List.mem_append_right _ (List.mem_map_of_mem
    (List.mem_flatMap.2 ⟨instr, mem, kept instr⟩)), ?_⟩
  have plain : instr.jumpTarget? = none := by
    cases instr with
    | jump | jumpIf => cases calls
    | _ => rfl
  rw [relocateJump_of_not_jump plain]
  exact calls

namespace MethodDef

variable {u v : TypeUnit} {m : MethodDef}

/-- A method with a relocated body fits a unit of the engine, if the body it had did. -/
theorem Fits.relocated (fits : m.Fits u) (prologue : List Instr) {expand : Instr → List Instr}
    (expands : Expands expand) (kept : ∀ instr, instr ∈ expand instr)
    (steady : prologue.Forall Instr.Steady)
    (short : (relocate prologue expand m.code).length < UInt32.size)
    (instrumented : v.isInstrumented = true) (above : v.superName = u.superName) :
    ({ m with code := relocate prologue expand m.code } : MethodDef).Fits v where
  room := fits.room
  inside := fits.inside.relocate prologue expands steady (.inr short)
  written := .inl instrumented
  constructs constructor_ below :=
    any_callsConstructor_relocate prologue kept (fits.constructs constructor_ (above ▸ below))

end MethodDef

namespace TypeUnit

variable {u : TypeUnit}

theorem mem_withGuard_self (options : Options) (names : NameTable) (instr : Instr) :
    instr ∈ withGuard options names instr := by
  unfold withGuard
  split <;> simp

/-- Guards at most double a body. -/
theorem length_guardCode_le (options : Options) (names : NameTable) (code : List Instr) :
    (guardCode options names code).length ≤ 2 * code.length := by
  have longer := length_relocate_le [] (length_withGuard_le options names) code
  rwa [List.length_nil, Nat.zero_add] at longer

/-- A unit with guards is accepted if the unit without them is. -/
theorem verify_withGuards (verified : u.verify = .ok ())
    (short : ∀ m ∈ u.methods, m.code.length < UInt32.size / 2) (options : Options)
    (names : NameTable) : (u.withGuards options names).verify = .ok () := by
  refine verify_remade verified ?_ (fun m mem => ?_) fun m mem => ?_
  · rw [List.map_map]
    exact nodup_keys_of_verify verified
  · obtain ⟨origin, there, rfl⟩ := List.mem_map.1 mem
    exact (checkMethod_of_verify verified there).1
  · obtain ⟨origin, there, rfl⟩ := List.mem_map.1 mem
    have half : UInt32.size = 2 * (UInt32.size / 2) := rfl
    have lt := short origin there
    have longer := length_guardCode_le options names origin.code
    have passes := (checkMethod_of_verify verified there).2
    rw [checkMethod_eq_ok_iff (by omega)] at passes
    have room : (guardCode options names origin.code).length < UInt32.size := by omega
    refine (checkMethod_eq_ok_iff room).2 ⟨fun abstract => ?_, fun concrete => ?_⟩
    · obtain ⟨bodiless, place⟩ := passes.1 abstract
      refine ⟨?_, place⟩
      show guardCode options names origin.code = []
      rw [bodiless]
      rfl
    · exact (passes.2 concrete).relocated [] (expands_withGuard options names)
        (mem_withGuard_self options names) trivial room (isInstrumented_markInstrumented _) rfl

end TypeUnit

/-! ### Host forms -/

section Forwarding

variable {name owner : String} {key : MemberKey} {mark : Modifiers}

/-- A generated method has a local slot for its receiver and for each of its parameters. -/
theorem maxLocals_forwardingMethod (marked : mark = .catcherBit ∨ mark = .superDispatcherBit)
    (small : key.sig.arity + 1 < UInt16.size) :
    (forwardingMethod name owner key mark).paramSlots = key.sig.arity + 1 ∧
      (forwardingMethod name owner key mark).maxLocals.toNat = key.sig.arity + 1 := by
  have receives : (Modifiers.publicBit ||| .syntheticBit ||| mark).isStatic = false := by
    rcases marked with rfl | rfl <;> decide
  have params : MethodDef.slotsFor key.sig (.publicBit ||| .syntheticBit ||| mark) =
      key.sig.arity + 1 := by
    unfold MethodDef.slotsFor
    rw [receives]
    rfl
  refine ⟨params, ?_⟩
  have touched : ∀ slots ∈ (forwardingCode owner key).map MethodDef.slotsTouched,
      slots ≤ key.sig.arity + 1 := by
    intro slots mem
    obtain ⟨instr, there, rfl⟩ := List.mem_map.1 mem
    rcases List.mem_append.1 there with load | last
    · obtain ⟨i, lt, rfl⟩ := List.mem_map.1 load
      have lt := List.mem_range.1 lt
      have next : (UInt16.ofNat i + 1).toNat = (i + 1) % UInt16.size := by
        simp [UInt16.toNat_add]
      show (UInt16.ofNat i + 1).toNat ≤ _
      rw [next]
      exact Nat.le_trans (Nat.mod_le _ _) lt
    · rcases List.mem_pair.1 last with rfl | rfl
      · exact Nat.zero_le _
      · cases key.sig.returnsValue <;> exact Nat.zero_le _
  have most (slots : List Nat) (within : ∀ n ∈ slots, n ≤ key.sig.arity + 1) :
      slots.foldl max (key.sig.arity + 1) = key.sig.arity + 1 := by
    induction slots with
    | nil => rfl
    | cons n rest ih =>
      rw [List.foldl_cons, Nat.max_eq_left (within n List.mem_cons_self)]
      exact ih fun n mem => within n (List.mem_cons_of_mem _ mem)
  show (UInt16.ofNat (((forwardingCode owner key).map MethodDef.slotsTouched).foldl max
    (UInt16.ofNat (MethodDef.slotsFor key.sig (.publicBit ||| .syntheticBit ||| mark))).toNat)).toNat
      = _
  rw [params, UInt16.toNat_ofNat_of_lt' small, most _ touched, UInt16.toNat_ofNat_of_lt' small]

/-- A generated method obeys the rules of every unit, unless it has more parameters than a frame
has local slots. -/
theorem fits_forwardingMethod (marked : mark = .catcherBit ∨ mark = .superDispatcherBit)
    (small : key.sig.arity + 1 < UInt16.size) (plain : name ≠ constructorName) (u : TypeUnit) :
    (forwardingMethod name owner key mark).Fits u := by
  obtain ⟨params, locals⟩ : (forwardingMethod name owner key mark).paramSlots = key.sig.arity + 1 ∧
      (forwardingMethod name owner key mark).maxLocals.toNat = key.sig.arity + 1 :=
    maxLocals_forwardingMethod marked small
  refine ⟨?_, ?_, .inr fun instr mem => ?_, fun constructs => ?_⟩
  · exact Nat.le_of_eq (params.trans locals.symm)
  · rw [locals]
    exact staysInside_forwardingCode
  · rcases List.mem_append.1 mem with load | last
    · obtain ⟨i, -, rfl⟩ := List.mem_map.1 load
      rfl
    · rcases List.mem_pair.1 last with rfl | rfl
      · rfl
      · cases key.sig.returnsValue <;> rfl
  · exact absurd (of_decide_eq_true constructs) plain

theorem isAbstract_forwardingMethod (marked : mark = .catcherBit ∨ mark = .superDispatcherBit) :
    (forwardingMethod name owner key mark).modifiers.isAbstract = false := by
  show (Modifiers.publicBit ||| .syntheticBit ||| mark).isAbstract = false
  rcases marked with rfl | rfl <;> decide

/-- A generated method is longer than its parameters by a receiver, a call and a return. -/
theorem length_forwardingCode : (forwardingCode owner key).length = key.sig.arity + 3 := by
  unfold forwardingCode
  simp

end Forwarding

namespace HostForm

variable {u v : TypeUnit} {m : MethodDef} (id : TypeId) (slots : SlotTable)

/-- An instruction in front of a body takes one place. -/
theorem length_relocate_alone_le (first : Instr) (code : List Instr) :
    (relocate [first] (fun instr => [instr]) code).length ≤ code.length + 1 := by
  have alone (instr : Instr) : [instr].length ≤ 1 := Nat.le_refl 1
  have longer := length_relocate_le [first] alone code
  rwa [List.length_singleton, Nat.one_mul, Nat.add_comm] at longer

/-- The rules do not ask who may use a method. -/
theorem fits_widen (fits : m.Fits u) : (widen m).Fits u := by
  unfold widen
  split
  · have static : (m.modifiers.withVisibility .everyone).isStatic = m.modifiers.isStatic :=
      Modifiers.contains_withVisibility_everyone _ (by decide) (by decide)
    refine ⟨?_, fits.inside, fits.written, fits.constructs⟩
    show MethodDef.slotsFor m.sig (m.modifiers.withVisibility .everyone) ≤ _
    unfold MethodDef.slotsFor
    rw [static]
    exact fits.room
  · exact fits

/-- A check in front of a body leaves a method within the rules. -/
theorem fits_addCheck (fits : m.Fits u) (room : m.code.length + 1 < UInt32.size)
    (instrumented : v.isInstrumented = true) (above : v.superName = u.superName) :
    (addCheck id slots m).Fits v := by
  have unchanged : m.Fits v := ⟨fits.room, fits.inside, .inl instrumented,
    fun constructor_ below => fits.constructs constructor_ (above ▸ below)⟩
  unfold addCheck
  split
  · split
    next slot _ _ =>
      let check := Instr.entryCheck id (UInt32.ofNat slot)
      have longer := length_relocate_alone_le check m.code
      exact fits.relocated [check] expands_alone (fun _ => List.mem_singleton_self _)
        (fun _ _ _ => trivial) (Nat.lt_of_le_of_lt longer room) instrumented above
    · exact unchanged
  · exact unchanged

/-- The check takes one place. -/
theorem length_addCheck_le (m : MethodDef) :
    (addCheck id slots m).code.length ≤ m.code.length + 1 := by
  unfold addCheck
  split
  · split
    · exact length_relocate_alone_le _ m.code
    · exact Nat.le_succ _
  · exact Nat.le_succ _

/-- A method without a body is given none. -/
theorem code_addCheck_of_nil (bodiless : m.code = []) : (addCheck id slots m).code = [] := by
  have unchecked : isChecked m = false := by
    unfold isChecked
    simp [bodiless]
  unfold addCheck
  split
  · rw [if_neg (by simp [unchecked])]
    exact bodiless
  · exact bodiless

end HostForm

/-- A name that begins like that of a super-dispatcher is not that of a constructor. -/
theorem superDispatcherName_ne_constructorName (typeName method : String) :
    superDispatcherName typeName method ≠ constructorName := by
  intro same
  have begins := superDispatcherName_prefix typeName method
  rw [same] at begins
  exact absurd begins (by decide)

namespace HostForm

variable {u : TypeUnit} {parent : Option Class}

/-- A generated member obeys the rules, and its body is short. -/
theorem fits_generated (built : ∀ p ∈ parent, p.Built fun u => u.verify = .ok ()) {m : MethodDef}
    (mem : m ∈ generated u parent) (v : TypeUnit) :
    m.Fits v ∧ m.isConstructor = false ∧ m.modifiers.isAbstract = false ∧
      m.code.length + 1 < UInt32.size := by
  obtain ⟨p, some_p, entry, inherited, made⟩ := of_mem_generated u mem
  obtain ⟨plain, small⟩ :=
    (built p some_p).arity_lt (fun _ => TypeUnit.seats_of_verify) inherited
  have length : (forwardingCode p.name entry.1).length + 1 < UInt32.size := by
    have sizes : UInt16.size + 3 < UInt32.size := by decide
    rw [length_forwardingCode]
    omega
  rcases made with rfl | rfl
  · have plain : entry.1.name ≠ constructorName := of_decide_eq_false plain
    exact ⟨fits_forwardingMethod (.inl rfl) small plain v, decide_eq_false plain,
      isAbstract_forwardingMethod (.inl rfl), length⟩
  · have plain := superDispatcherName_ne_constructorName u.name entry.1.name
    exact ⟨fits_forwardingMethod (.inr rfl) small plain v, decide_eq_false plain,
      isAbstract_forwardingMethod (.inr rfl), length⟩

/-- A method that passes in its unit passes in the host form. -/
theorem checkMethod_place {v : TypeUnit} (id : TypeId) {m : MethodDef}
    (passes : u.checkMethod m = .ok ()) (room : m.code.length + 1 < UInt32.size)
    (instrumented : v.isInstrumented = true) (above : v.superName = u.superName)
    (kind : v.modifiers = u.modifiers) : v.checkMethod (place u id parent m) = .ok () := by
  rw [TypeUnit.checkMethod_eq_ok_iff (by omega)] at passes
  let slots := (ofUnit u id parent).slots
  have longer : (place u id parent m).code.length ≤ m.code.length + 1 := by
    have longer := length_addCheck_le id slots (widen m)
    rwa [code_widen] at longer
  have same : (place u id parent m).modifiers.isAbstract = m.modifiers.isAbstract :=
    isAbstract_addCheck_widen id slots m
  refine (TypeUnit.checkMethod_eq_ok_iff (Nat.lt_of_le_of_lt longer room)).2 ?_
  rw [same]
  refine ⟨fun abstract => ?_, fun concrete => ?_⟩
  · obtain ⟨bodiless, place_⟩ := passes.1 abstract
    refine ⟨code_addCheck_of_nil id slots ((code_widen m).trans bodiless), ?_⟩
    unfold TypeUnit.isInterface at place_ ⊢
    rwa [kind]
  · exact fits_addCheck id slots (fits_widen (passes.2 concrete)) (by rwa [code_widen]) instrumented
      above

/-- The host form of an accepted unit is accepted, below a parent that was built from accepted
units. -/
theorem verify_ofUnit (verified : u.verify = .ok ())
    (room : ∀ m ∈ u.methods, m.code.length + 1 < UInt32.size) (id : TypeId)
    (built : ∀ p ∈ parent, p.Built fun u => u.verify = .ok ())
    (marked : ∀ p ∈ parent, p.MarksDispatchers) : (ofUnit u id parent).unit.verify = .ok () := by
  have distinct := nodup_keys u id (TypeUnit.nodup_keys_of_verify verified)
    (fun p some_p => (built p some_p).nodup_vtable) marked
  have each {m : MethodDef} (mem : m ∈ (ofUnit u id parent).unit.methods) :
      (u.isInterface && m.isConstructor) = false ∧
        (ofUnit u id parent).unit.checkMethod m = .ok () := by
    rw [methods_ofUnit] at mem
    obtain ⟨origin, there, rfl⟩ := List.mem_map.1 mem
    have named : (place u id parent origin).isConstructor = origin.isConstructor :=
      congrArg MemberKey.isConstructor (key_place u id parent origin)
    rw [named]
    obtain ⟨allowed, passes, short⟩ : (u.isInterface && origin.isConstructor) = false ∧
        u.checkMethod origin = .ok () ∧ origin.code.length + 1 < UInt32.size := by
      rcases List.mem_append.1 there with own | made
      · obtain ⟨allowed, passes⟩ := TypeUnit.checkMethod_of_verify verified own
        exact ⟨allowed, passes, room origin own⟩
      · obtain ⟨fits, plain, concrete, short⟩ := fits_generated built made u
        refine ⟨by rw [plain, Bool.and_false], ?_, short⟩
        refine (TypeUnit.checkMethod_eq_ok_iff (by omega)).2 ⟨fun abstract => ?_, fun _ => fits⟩
        rw [concrete] at abstract
        cases abstract
    exact ⟨allowed, checkMethod_place id passes short (TypeUnit.isInstrumented_markInstrumented _) rfl
      rfl⟩
  exact TypeUnit.verify_remade verified distinct (fun m mem => (each mem).1)
    fun m mem => (each mem).2

end HostForm

/-- Instrumenting an accepted unit with bodies of fewer than `2 ^ 31` instructions gives accepted
units: the unit with guards, and its host form with any number and below any parent that was
built from accepted units, as long as what virtual calls select there has no method with the name
of a super-dispatcher that is not marked as one. -/
theorem instrumented_unit_verifies {u : TypeUnit} (verified : u.verify = .ok ())
    (short : ∀ m ∈ u.methods, m.code.length < UInt32.size / 2) (options : Options)
    (names : NameTable) :
    (u.guard options names).1.verify = .ok () ∧
      ∀ (id : TypeId) (parent : Option Class),
        (∀ p ∈ parent, p.Built (fun u => u.verify = .ok ()) ∧ p.MarksDispatchers) →
          (HostForm.ofUnit (u.guard options names).1 id parent).unit.verify = .ok () := by
  have guarded := TypeUnit.verify_withGuards verified short options
    (names.addAll (u.guardedOwners options))
  refine ⟨guarded, fun id parent above => ?_⟩
  refine HostForm.verify_ofUnit guarded (fun m mem => ?_) id (fun p some_p => (above p some_p).1)
    fun p some_p => (above p some_p).2
  obtain ⟨origin, there, rfl⟩ := List.mem_map.1 mem
  have lt := short origin there
  have half : UInt32.size = 2 * (UInt32.size / 2) := rfl
  have longer := TypeUnit.length_guardCode_le options (names.addAll (u.guardedOwners options))
    origin.code
  unfold guardCode at longer
  show (relocate [] _ origin.code).length + 1 < _
  omega

namespace Inheriting

/-- A type that the host manages itself, with one method. -/
def base : TypeUnit :=
  (TypeUnit.named "lib.P").addMethod
    (.make "m" ⟨[.int], .int⟩ .publicBit [.load 1, .retValue])

/-- A managed type that overrides the method and calls what it overrides. -/
def middle : TypeUnit :=
  ((TypeUnit.named "app.Q").extending "lib.P").addMethod
    (.make "m" ⟨[.int], .int⟩ .protectedBit
      [.load 0, .load 1, .invoke .special ⟨"lib.P", "m", ⟨[.int], .int⟩⟩, .retValue])

/-- A managed type below it, with a loop. -/
def child : TypeUnit :=
  ((TypeUnit.named "app.C").extending "app.Q").addMethod
    (.make "use" ⟨[.bool], .int⟩ .publicBit
      [.load 1, .jumpIf true 0, .load 0, .constInt 1,
        .invoke .virtual ⟨"app.C", "m", ⟨[.int], .int⟩⟩, .retValue])

def options : Options := { included := ["app.*"] }

def baseClass : Class := Class.fresh 0 0 (.plain base none []) none []

/-- The host form of the type in the middle. -/
def form : HostForm := HostForm.ofUnit (middle.guard options {}).1 0 (some baseClass)

def middleSpec : ClassSpec :=
  { ClassSpec.plain form.unit (some 0) [] with
    managed := some 0, declaredAccess := form.declaredAccess }

def middleClass : Class := Class.fresh 1 1 middleSpec (some baseClass) []

set_option maxRecDepth 100000 in
theorem defined : (Class.define 0 0 (.plain base none []) none []).isOk = true ∧
    (Class.define 1 1 middleSpec (some baseClass) []).isOk = true ∧
    (∀ m ∈ middle.methods, m.code.length < UInt32.size / 2) ∧ baseClass.MarksDispatchers := by
  decide +kernel

/-- A definition that is not refused makes the class that it describes. -/
theorem define_eq {place : ClassRef} {id : Nat} {spec : ClassSpec} {parent : Option Class}
    (ok : (Class.define place id spec parent []).isOk = true) :
    Class.define place id spec parent [] = .ok (Class.fresh place id spec parent []) := by
  cases made : Class.define place id spec parent [] with
  | error fault =>
    rw [made] at ok
    cases ok
  | ok c => rw [(Class.define_eq_ok made).1]

theorem built : baseClass.Built (fun u => u.verify = .ok ()) ∧
    middleClass.Built fun u => u.verify = .ok () := by
  obtain ⟨first, second, short, marked⟩ := defined
  have below : baseClass.Built fun u => u.verify = .ok () :=
    .define (show base.verify = .ok () from rfl) (fun p none_ => by cases none_) (define_eq first)
  have above (p : Class) (some_p : p ∈ some baseClass) :
      (p.Built fun u => u.verify = .ok ()) ∧ p.MarksDispatchers :=
    Option.some.inj some_p ▸ ⟨below, marked⟩
  have guarded : (middle.guard options {}).1.verify = .ok () :=
    TypeUnit.verify_withGuards (show middle.verify = .ok () from rfl) short _ _
  have accepted : form.unit.verify = .ok () :=
    HostForm.verify_ofUnit guarded (by decide) 0 (fun p some_p => (above p some_p).1)
      fun p some_p => (above p some_p).2
  exact ⟨below, .define accepted (fun p some_p => (above p some_p).1) (define_eq second)⟩

set_option maxRecDepth 100000 in
theorem facts : middleClass.MarksDispatchers ∧
    (HostForm.ofUnit (child.guard options {}).1 1 (some middleClass)).unit.methods.map
      (fun m => m.name) =
        ["use", "m", "__super$app$C$m"] ∧
    ∀ m ∈ child.methods, m.code.length < UInt32.size / 2 := by
  decide +kernel

end Inheriting

open Inheriting in
/-- A managed type below another one, with a catcher and a super-dispatcher. -/
theorem instrumented_unit_verifies_inheriting :
    child.verify = .ok () ∧ (middleClass.Built fun u => u.verify = .ok ()) ∧
      middleClass.MarksDispatchers ∧
      (HostForm.ofUnit (child.guard options {}).1 1 (some middleClass)).unit.methods.map
        (fun m => m.name) = ["use", "m", "__super$app$C$m"] ∧
      (child.guard options {}).1.verify = .ok () ∧
      (HostForm.ofUnit (child.guard options {}).1 1 (some middleClass)).unit.verify = .ok () := by
  obtain ⟨marked, members, short⟩ := facts
  have verified : child.verify = .ok () := by rfl
  obtain ⟨guarded, hosted⟩ := instrumented_unit_verifies verified short options {}
  exact ⟨verified, built.2, marked, members, guarded,
    hosted 1 (some middleClass) fun p some_p => Option.some.inj some_p ▸ ⟨built.2, marked⟩⟩

end LiveUpdate
