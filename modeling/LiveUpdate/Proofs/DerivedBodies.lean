import LiveUpdate.Proofs.ControlFlow

/-!
# Bodies derived from a unit

The engine runs a unit's bodies in several forms: as they are, with guards, in the host
definition of a managed type, behind entry checks and beside generated members, and compiled
into the static methods of an executor.  Control stays inside all of them.
-/

set_option autoImplicit false

namespace LiveUpdate

/-- A method that is made public stays abstract or concrete. -/
theorem Modifiers.isAbstract_withVisibility (m : Modifiers) :
    (m.withVisibility .everyone).isAbstract = m.isAbstract := by
  have mask : 32#32 &&& (~~~7 : UInt32).toBitVec = 32#32 := by decide
  have low : 32#32 &&& 1#32 = 0#32 := by decide
  have bits : (m.bits &&& ~~~7 ||| 1) &&& 32 = m.bits &&& 32 := by
    apply UInt32.toBitVec_inj.1
    show (m.bits.toBitVec &&& (~~~7 : UInt32).toBitVec ||| 1#32) &&& 32#32 =
      m.bits.toBitVec &&& 32#32
    rw [BitVec.and_comm _ 32#32, BitVec.and_or_distrib_left, BitVec.and_comm m.bits.toBitVec,
      ← BitVec.and_assoc, mask, low, BitVec.or_zero, BitVec.and_comm]
  show decide ((m.bits &&& ~~~7 ||| 1) &&& 32 = 32) = decide (m.bits &&& 32 = 32)
  rw [bits]

namespace TypeUnit

/-- The methods that the engine makes of the methods of a unit, those that it generates beside
them included.  The executor is that of a version with the unit. -/
inductive Derives (u : TypeUnit) : MethodDef → Prop
  | own {m : MethodDef} (mem : m ∈ u.methods) : Derives u m
  | guarded (options : Options) (names : NameTable) {m : MethodDef}
    (mem : m ∈ (u.withGuards options names).methods) : Derives u m
  | hosted (id : TypeId) (parent : Option Class) {m : MethodDef}
    (mem : m ∈ (HostForm.ofUnit u id parent).unit.methods) : Derives u m
  | guardedHosted (options : Options) (names : NameTable) (id : TypeId) (parent : Option Class)
    {m : MethodDef}
    (mem : m ∈ (HostForm.ofUnit (u.withGuards options names) id parent).unit.methods) :
    Derives u m
  | compiled (ctx : ExecutorContext) (options : Options) (names : NameTable) (number : Nat)
    (shaped : TypeShape.extract u = .ok ctx.live) {m : MethodDef}
    (mem : m ∈ (ctx.executorUnit options names number u).methods) : Derives u m

end TypeUnit

/-- The local slots of a call with the right number of arguments. -/
def MethodDef.slotCount (m : MethodDef) : Nat := max m.maxLocals.toNat m.paramSlots

/-- Control stays inside the body of a method. -/
def MethodDef.StaysInside (m : MethodDef) : Prop :=
  LiveUpdate.StaysInside m.slotCount m.sig.returnsValue m.code

namespace HostForm

variable (id : TypeId) (slots : SlotTable) {m : MethodDef}

theorem code_widen (m : MethodDef) : (widen m).code = m.code := by
  unfold widen
  split <;> rfl

theorem isAbstract_addCheck_widen (m : MethodDef) :
    (addCheck id slots (widen m)).modifiers.isAbstract = m.modifiers.isAbstract := by
  have widened : (widen m).modifiers.isAbstract = m.modifiers.isAbstract := by
    unfold widen
    split
    · exact Modifiers.isAbstract_withVisibility _
    · rfl
  unfold addCheck
  split
  · split <;> exact widened
  · exact widened

/-- The members of a host form are those of the unit and generated ones, widened and checked. -/
theorem mem_ofUnit {u : TypeUnit} {parent : Option Class}
    (mem : m ∈ (ofUnit u id parent).unit.methods) :
    ∃ origin, m = addCheck id (ofUnit u id parent).slots (widen origin) ∧
      (origin ∈ u.methods ∨ ∃ name owner key mark,
        (mark = .catcherBit ∨ mark = .superDispatcherBit) ∧
          origin = forwardingMethod name owner key mark) := by
  obtain ⟨origin, there, rfl⟩ := List.mem_map.1 mem
  refine ⟨origin, rfl, ?_⟩
  rcases List.mem_append.1 there with there | dispatcher
  · rcases List.mem_append.1 there with own | caught
    · exact .inl own
    · obtain ⟨catcher, listed, rfl⟩ := List.mem_map.1 caught
      cases parent with
      | none => cases listed
      | some parent =>
        obtain ⟨entry, -, rfl⟩ := List.mem_map.1 listed
        exact .inr ⟨_, _, _, _, .inl rfl, rfl⟩
  · cases parent with
    | none => cases dispatcher
    | some parent =>
      obtain ⟨entry, -, made⟩ := List.mem_filterMap.1 dispatcher
      dsimp only at made
      split at made
      · cases made
      · cases made
        exact .inr ⟨_, _, _, _, .inr rfl, rfl⟩

/-- A check in front of a body takes one place. -/
theorem staysInside_addCheck (inside : m.StaysInside)
    (fits : (∀ instr ∈ m.code, instr.jumpTarget? = none) ∨ m.code.length + 1 < UInt32.size) :
    (addCheck id slots m).StaysInside := by
  unfold addCheck
  split
  · split
    next slot _ _ =>
      let check := Instr.entryCheck id (UInt32.ofNat slot)
      have steady : check.Steady := fun _ _ _ => trivial
      refine StaysInside.relocate [check] inside expands_alone steady
        (fits.imp_right fun short => ?_)
      have alone (instr : Instr) : [instr].length ≤ 1 := Nat.le_refl 1
      have longer := length_relocate_le [check] alone m.code
      rw [List.length_singleton] at longer
      omega
    · exact inside
  · exact inside

end HostForm

section Forwarding

variable {name owner : String} {key : MemberKey} {mark : Modifiers}

/-- Control stays inside generated code: it loads the arguments, calls and returns. -/
theorem staysInside_forwardingCode :
    StaysInside (key.sig.arity + 1) key.sig.returnsValue (forwardingCode owner key) := by
  unfold forwardingCode
  refine ⟨fun instr mem => ?_, ?_⟩
  · rcases List.mem_append.1 mem with mem | mem
    · obtain ⟨i, lt, rfl⟩ := List.mem_map.1 mem
      -- The slot is taken modulo the width of the operand, which only makes it smaller.
      have le : (UInt16.ofNat i).toNat ≤ i := Nat.mod_le _ _
      exact Nat.lt_of_le_of_lt le (List.mem_range.1 lt)
    · rcases List.mem_pair.1 mem with rfl | rfl
      · trivial
      · cases key.sig.returnsValue <;> rfl
  · rw [List.getLast?_append]
    cases key.sig.returnsValue <;> rfl

theorem forwardingCode_unmoved : ∀ instr ∈ forwardingCode owner key, instr.jumpTarget? = none := by
  intro instr mem
  rcases List.mem_append.1 mem with mem | mem
  · obtain ⟨i, -, rfl⟩ := List.mem_map.1 mem
    rfl
  · rcases List.mem_pair.1 mem with rfl | rfl
    · rfl
    · cases key.sig.returnsValue <;> rfl

/-- A generated method is public and has a receiver, so that the host leaves it as it is. -/
theorem staysInside_forwarding (marked : mark = .catcherBit ∨ mark = .superDispatcherBit) :
    (HostForm.widen (forwardingMethod name owner key mark)).StaysInside := by
  have modifiers : (forwardingMethod name owner key mark).modifiers.visibility = .everyone ∧
      (forwardingMethod name owner key mark).modifiers.isStatic = false := by
    show (Modifiers.publicBit ||| .syntheticBit ||| mark).visibility = _ ∧
      (Modifiers.publicBit ||| .syntheticBit ||| mark).isStatic = false
    rcases marked with rfl | rfl <;> decide
  have unchanged : HostForm.widen (forwardingMethod name owner key mark) =
      forwardingMethod name owner key mark := by
    unfold HostForm.widen HostForm.isWidened
    rw [modifiers.1]
    rfl
  have slots : (forwardingMethod name owner key mark).paramSlots = key.sig.arity + 1 := by
    unfold MethodDef.paramSlots MethodDef.slotsFor
    rw [modifiers.2]
    rfl
  rw [unchanged]
  refine staysInside_forwardingCode.mono ?_
  unfold MethodDef.slotCount
  rw [slots]
  exact Nat.le_max_right _ _

end Forwarding

namespace TypeUnit

variable {u : TypeUnit}

/-- Control stays inside the concrete bodies of a unit, and jumps have room for one more
instruction. -/
def KeepsControl (u : TypeUnit) : Prop :=
  ∀ m ∈ u.methods, m.modifiers.isAbstract = false →
    StaysInside m.maxLocals.toNat m.sig.returnsValue m.code ∧ m.code.length + 1 < UInt32.size

theorem KeepsControl.staysInside (keeps : u.KeepsControl) {m : MethodDef} (mem : m ∈ u.methods)
    (concrete : m.modifiers.isAbstract = false) : m.StaysInside :=
  (keeps m mem concrete).1.mono (Nat.le_max_left _ _)

theorem keepsControl_of_verify (verified : u.verify = .ok ())
    (short : ∀ m ∈ u.methods, m.code.length < UInt32.size / 2) : u.KeepsControl := by
  intro m mem concrete
  have lt := short m mem
  have half : UInt32.size = 2 * (UInt32.size / 2) := rfl
  exact ⟨staysInside_of_verify verified mem concrete (by omega), by omega⟩

/-- Guards at most double the code, which leaves room for one more instruction. -/
theorem keepsControl_withGuards (verified : u.verify = .ok ())
    (short : ∀ m ∈ u.methods, m.code.length < UInt32.size / 2) (options : Options)
    (names : NameTable) : (u.withGuards options names).KeepsControl := by
  intro m mem concrete
  obtain ⟨origin, there, rfl⟩ := List.mem_map.1 mem
  have lt := short origin there
  have half : UInt32.size = 2 * (UInt32.size / 2) := rfl
  have longer := length_relocate_le [] (length_withGuard_le options names) origin.code
  rw [List.length_nil, Nat.zero_add] at longer
  have room : (guardCode options names origin.code).length + 1 < UInt32.size := by
    unfold guardCode
    omega
  have inside := staysInside_of_verify verified there concrete (by omega)
  have guarded := inside.relocate [] (expands_withGuard options names) trivial
    (.inr (Nat.lt_of_succ_lt room))
  exact ⟨guarded, room⟩

/-- The host form of a unit adds checks to its bodies and generated members to it. -/
theorem KeepsControl.hosted (keeps : u.KeepsControl) (id : TypeId) (parent : Option Class)
    {m : MethodDef} (mem : m ∈ (HostForm.ofUnit u id parent).unit.methods)
    (concrete : m.modifiers.isAbstract = false) : m.StaysInside := by
  obtain ⟨origin, rfl, own | generated⟩ := HostForm.mem_ofUnit id mem
  · rw [HostForm.isAbstract_addCheck_widen] at concrete
    obtain ⟨inside, room⟩ := keeps origin own concrete
    have widened : (HostForm.widen origin).StaysInside := by
      have same : (HostForm.widen origin).maxLocals = origin.maxLocals ∧
          (HostForm.widen origin).sig = origin.sig := by
        unfold HostForm.widen
        split <;> exact ⟨rfl, rfl⟩
      unfold MethodDef.StaysInside MethodDef.slotCount
      rw [HostForm.code_widen, same.1, same.2]
      exact inside.mono (Nat.le_max_left _ _)
    refine HostForm.staysInside_addCheck _ _ widened (.inr ?_)
    rw [HostForm.code_widen]
    exact room
  · obtain ⟨name, owner, key, mark, marked, rfl⟩ := generated
    refine HostForm.staysInside_addCheck _ _ (staysInside_forwarding marked) (.inl ?_)
    rw [HostForm.code_widen]
    exact forwardingCode_unmoved

/-- An executor's method has the local slots and the result of the method that it was compiled
from. -/
theorem staysInside_compiled (verified : u.verify = .ok ())
    (short : ∀ m ∈ u.methods, m.code.length < UInt32.size / 2) {ctx : ExecutorContext}
    (live : ctx.live = .ofUnit u) {options : Options} {names : NameTable} {number : Nat}
    {m : MethodDef} (mem : m ∈ (ctx.executorUnit options names number u).methods) :
    m.StaysInside := by
  obtain ⟨entry, there, rfl⟩ := List.mem_map.1 mem
  rw [ExecutorContext.concreteMethods_eq live] at there
  obtain ⟨origin, listed, rfl⟩ := List.mem_map.1 there
  obtain ⟨own, bodied⟩ := List.mem_filter.1 listed
  have bodied : origin.code.isEmpty = false := by simpa using bodied
  have concrete : origin.modifiers.isAbstract = false := by
    rw [Bool.eq_false_iff]
    intro abstract
    rw [(isAbstract_iff_of_verify verified own).1 abstract] at bodied
    cases bodied
  have lt := short origin own
  have half : UInt32.size = 2 * (UInt32.size / 2) := rfl
  have inside := staysInside_of_verify verified own concrete (by omega)
  have longer := length_relocate_le [] (length_compileInstr_le options names ctx)
    origin.code
  rw [List.length_nil, Nat.zero_add] at longer
  have result : (executorKey ctx.typeName (.ofDef origin)).sig.returnsValue =
      origin.sig.returnsValue := by
    rw [executorKey_eq]
    dsimp only
    split <;> rfl
  have compiled := inside.relocate [] (expands_compileInstr options names ctx) trivial
    (.inr (by omega))
  unfold MethodDef.StaysInside
  show StaysInside _ (executorKey ctx.typeName (.ofDef origin)).sig.returnsValue _
  rw [result]
  exact compiled.mono (Nat.le_max_left _ _)

/-- Control stays inside every concrete body that the engine derives from a verified unit. -/
theorem Derives.staysInside {m : MethodDef} (derived : u.Derives m) (verified : u.verify = .ok ())
    (short : ∀ m ∈ u.methods, m.code.length < UInt32.size / 2)
    (concrete : m.modifiers.isAbstract = false) : m.StaysInside := by
  have plain := keepsControl_of_verify verified short
  have guards := keepsControl_withGuards verified short
  cases derived with
  | own mem => exact plain.staysInside mem concrete
  | guarded options names mem => exact (guards options names).staysInside mem concrete
  | hosted id parent mem => exact plain.hosted id parent mem concrete
  | guardedHosted options names id parent mem =>
    exact (guards options names).hosted id parent mem concrete
  | compiled ctx options names number shaped mem =>
    exact staysInside_compiled verified short (TypeShape.eq_ofUnit shaped) mem

end TypeUnit

end LiveUpdate
