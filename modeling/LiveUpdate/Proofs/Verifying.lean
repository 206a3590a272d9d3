import LiveUpdate.Proofs.ControlFlow

/-!
# Verification as rules

The verifier goes through a unit and stops at the first thing that is wrong.  What it asks is
a set of rules that do not speak of an order: a current header, members that are told apart by
their names and keys, and for every method a body that fits it, or none if it is abstract.  A
unit is accepted exactly when it obeys them, and a unit with other methods is accepted when
these do.
-/

set_option autoImplicit false

namespace LiveUpdate

namespace Exec

variable {ε α β : Type} {p : Prop} [Decidable p] {error : ε} {x : Except ε β} {b : β}

/-- A check passes when nothing is wrong and the rest passes. -/
theorem throw_or_eq_ok : (if p then throw error else x) = .ok b ↔ ¬ p ∧ x = .ok b := by
  by_cases wrong : p
  · rw [if_pos wrong]
    exact iff_of_false (fun passes => nomatch passes) fun both => both.1 wrong
  · rw [if_neg wrong]
    exact ⟨fun passes => ⟨wrong, passes⟩, fun both => both.2⟩

/-- The same for a check with the rest behind it. -/
theorem throw_bind_or_eq_ok {rest : α → Except ε β} :
    (if p then throw error >>= rest else x) = .ok b ↔ ¬ p ∧ x = .ok b :=
  throw_or_eq_ok

end Exec

namespace MethodDef

/-- The rules for a concrete method of a unit. -/
structure Fits (m : MethodDef) (u : TypeUnit) : Prop where
  /-- The local slots hold the receiver and the parameters. -/
  room : m.paramSlots ≤ m.maxLocals.toNat
  inside : LiveUpdate.StaysInside m.maxLocals.toNat m.sig.returnsValue m.code
  /-- Only the engine writes its own instructions. -/
  written : u.isInstrumented = true ∨ ∀ instr ∈ m.code, instr.isEngineOnly = false
  constructs : m.isConstructor = true → u.superName.isSome = true →
    m.code.any Instr.callsConstructor = true

/-- The rules for an abstract method of a unit. -/
structure FitsAbstract (m : MethodDef) (u : TypeUnit) : Prop where
  bodiless : m.code = []
  place : u.isInterface = true ∨ u.modifiers.isAbstract = true

end MethodDef

namespace TypeUnit

variable {u v : TypeUnit} {m : MethodDef}

theorem checkInstr_eq_ok_iff (short : m.code.length < UInt32.size) {index : Nat} {instr : Instr} :
    u.checkInstr m index instr = .ok () ↔
      (u.isInstrumented = true ∨ instr.isEngineOnly = false) ∧
        instr.FitsIn m.code.length m.maxLocals.toNat m.sig.returnsValue := by
  refine ⟨fun passes => ⟨?_, fitsIn_of_checkInstr short passes⟩, fun ⟨allowed, fits⟩ => ?_⟩
  · unfold checkInstr at passes
    cases engine : instr.isEngineOnly with
    | false => exact .inr rfl
    | true =>
      cases instrumented : u.isInstrumented with
      | true => exact .inl rfl
      | false =>
        rw [engine, instrumented, Bool.not_false, Bool.and_self, if_pos rfl] at passes
        cases passes
  · have passable : ¬ (instr.isEngineOnly && !u.isInstrumented) = true := by
      rcases allowed with allowed | allowed <;> simp [allowed]
    unfold checkInstr
    rw [if_neg passable]
    cases instr with
    | jump target | jumpIf cond target =>
      have lt : target < UInt32.ofNat m.code.length := by
        rw [UInt32.lt_iff_toNat_lt, UInt32.toNat_ofNat_of_lt' short]
        exact fits
      exact if_pos lt
    | load slot | store slot => exact if_pos (UInt16.lt_iff_toNat_lt.2 fits)
    | ret =>
      have leaves : m.sig.returnsValue = false := fits
      simp only [leaves, Bool.false_eq_true, if_false]
    | retValue =>
      have leaves : m.sig.returnsValue = true := fits
      simp only [leaves, if_true]
    | _ => rfl

/-- A list of instructions passes when each of them does, wherever it stands. -/
theorem checkInstrs_eq_ok_iff (short : m.code.length < UInt32.size) {index : Nat}
    {code : List Instr} :
    u.checkInstrs m index code = .ok () ↔ ∀ instr ∈ code,
      (u.isInstrumented = true ∨ instr.isEngineOnly = false) ∧
        instr.FitsIn m.code.length m.maxLocals.toNat m.sig.returnsValue := by
  induction code generalizing index with
  | nil => exact iff_of_true rfl fun instr mem => by cases mem
  | cons first rest ih =>
    have step : u.checkInstrs m index (first :: rest) =
        (u.checkInstr m index first >>= fun _ => u.checkInstrs m (index + 1) rest) := rfl
    rw [step, Exec.bind_eq_ok, List.forall_mem_cons]
    constructor
    · rintro ⟨_, passes, others⟩
      exact ⟨(checkInstr_eq_ok_iff short).1 passes, ih.1 others⟩
    · rintro ⟨fits, others⟩
      exact ⟨(), (checkInstr_eq_ok_iff short).2 fits, ih.2 others⟩

theorem checkBody_eq_ok_iff (short : m.code.length < UInt32.size) :
    u.checkBody m = .ok () ↔ m.Fits u := by
  unfold checkBody
  dsimp only
  rw [Exec.throw_bind_or_eq_ok, Exec.bind_eq_ok]
  constructor
  · rintro ⟨room, _, instrs, rest⟩
    rw [Exec.throw_bind_or_eq_ok, Exec.throw_or_eq_ok] at rest
    have instrs := (checkInstrs_eq_ok_iff short).1 instrs
    refine ⟨Nat.le_of_not_lt room, ⟨fun instr mem => (instrs instr mem).2, ?_⟩, ?_, ?_⟩
    · exact eq_true_of_ne_false rest.1
    · cases instrumented : u.isInstrumented with
      | true => exact .inl rfl
      | false =>
        have guarded : ¬ u.isInstrumented = true := by simp [instrumented]
        exact .inr fun instr mem => (instrs instr mem).1.resolve_left guarded
    · intro constructor_ below
      simpa [constructor_, below] using rest.2.1
  · intro fits
    refine ⟨Nat.not_lt.2 fits.room, (), (checkInstrs_eq_ok_iff short).2 fun instr mem => ?_, ?_⟩
    · exact ⟨fits.written.imp_right fun plain => plain instr mem, fits.inside.fits instr mem⟩
    · rw [Exec.throw_bind_or_eq_ok, Exec.throw_or_eq_ok]
      refine ⟨by simp [fits.inside.ends], ?_, rfl⟩
      intro missing
      simp only [Bool.and_eq_true, Bool.not_eq_true'] at missing
      rw [fits.constructs missing.1.1 missing.1.2] at missing
      cases missing.2

/-- Whether a method passes is a matter of the rules for its kind. -/
theorem checkMethod_eq_ok_iff (short : m.code.length < UInt32.size) :
    u.checkMethod m = .ok () ↔
      (m.modifiers.isAbstract = true → m.FitsAbstract u) ∧
        (m.modifiers.isAbstract = false → m.Fits u) := by
  unfold checkMethod
  cases abstract : m.modifiers.isAbstract with
  | true =>
    simp only [if_true]
    refine Exec.throw_or_eq_ok.trans ⟨fun ⟨bodiless, rest⟩ => ?_, fun ⟨fits, _⟩ => ?_⟩
    · have place := (Exec.throw_or_eq_ok.1 rest).1
      refine ⟨fun _ => ⟨by simpa using bodiless, ?_⟩, fun concrete => (nomatch concrete)⟩
      cases interface : u.isInterface with
      | true => exact .inl rfl
      | false => exact .inr (by simpa [interface] using place)
    · obtain ⟨bodiless, place⟩ := fits trivial
      refine ⟨by simp [bodiless], Exec.throw_or_eq_ok.2 ⟨?_, rfl⟩⟩
      rcases place with place | place <;> simp [place]
  | false =>
    simp only [Bool.false_eq_true, if_false]
    refine Exec.throw_or_eq_ok.trans ⟨fun ⟨_, passes⟩ => ?_, fun ⟨_, fits⟩ => ?_⟩
    · exact ⟨fun concrete => (nomatch concrete), fun _ => (checkBody_eq_ok_iff short).1 passes⟩
    · refine ⟨fun empty => ?_, (checkBody_eq_ok_iff short).2 (fits trivial)⟩
      have ends := (fits trivial).inside.ends
      rw [List.isEmpty_iff.1 empty] at ends
      cases ends

/-- Methods pass when they are told apart by their keys, an interface has no constructor, and
each of them passes. -/
theorem checkMethods_eq_ok_iff {seen : List MemberKey} {methods : List MethodDef} :
    u.checkMethods seen methods = .ok () ↔ (methods.map MethodDef.key).Nodup ∧
      ∀ m ∈ methods, m.key ∉ seen ∧ (u.isInterface && m.isConstructor) = false ∧
        u.checkMethod m = .ok () := by
  induction methods generalizing seen with
  | nil => exact iff_of_true rfl ⟨List.nodup_nil, fun m mem => by cases mem⟩
  | cons m rest ih =>
    have step : u.checkMethods seen (m :: rest) = .ok () ↔ m.key ∉ seen ∧
        (u.isInterface && m.isConstructor) = false ∧ u.checkMethod m = .ok () ∧
          u.checkMethods (m.key :: seen) rest = .ok () := by
      refine Exec.throw_or_eq_ok.trans (and_congr_right fun _ => Exec.throw_or_eq_ok.trans ?_)
      rw [Bool.not_eq_true, Exec.bind_eq_ok]
      exact and_congr_right fun _ => ⟨fun ⟨_, both⟩ => both, fun both => ⟨(), both⟩⟩
    rw [step, ih, List.map_cons, List.nodup_cons, List.forall_mem_cons]
    have apart : (m.key ∉ rest.map MethodDef.key) ↔ ∀ m' ∈ rest, m'.key ≠ m.key := by
      simp [eq_comm]
    rw [apart]
    constructor
    · rintro ⟨new, allowed, passes, distinct, others⟩
      refine ⟨⟨fun m' mem same => (others m' mem).1 (same ▸ List.mem_cons_self), distinct⟩,
        ⟨new, allowed, passes⟩, fun m' mem => ?_⟩
      exact ⟨fun old => (others m' mem).1 (List.mem_cons_of_mem _ old), (others m' mem).2⟩
    · rintro ⟨⟨apart, distinct⟩, ⟨new, allowed, passes⟩, others⟩
      refine ⟨new, allowed, passes, distinct, fun m' mem => ⟨fun old => ?_, (others m' mem).2⟩⟩
      rcases List.mem_cons.1 old with same | old
      · exact apart m' mem same
      · exact (others m' mem).1 old

/-- Fields are checked by the name and the kind of the unit alone. -/
theorem checkFields_congr (name : v.name = u.name) (kind : v.isInterface = u.isInterface)
    (seen : List String) (fields : List FieldDef) :
    v.checkFields seen fields = u.checkFields seen fields := by
  induction fields generalizing seen with
  | nil => rfl
  | cons f rest ih =>
    unfold checkFields
    rw [name, kind, ih]

/-- A unit is accepted when its header, its fields and its methods are. -/
theorem verify_eq_ok_iff : u.verify = .ok () ↔ u.headerFault? = none ∧
    u.checkFields [] u.fields = .ok () ∧ u.checkMethods [] u.methods = .ok () := by
  unfold verify
  cases fault : u.headerFault? with
  | some fault' => exact iff_of_false (fun passes => nomatch passes) fun both => nomatch both.1
  | none =>
    refine Exec.bind_eq_ok.trans ⟨fun ⟨_, fields, methods⟩ => ⟨rfl, fields, methods⟩, ?_⟩
    exact fun ⟨_, fields, methods⟩ => ⟨(), fields, methods⟩

/-- What the verifier has established of a method. -/
theorem checkMethod_of_verify (verified : u.verify = .ok ()) (mem : m ∈ u.methods) :
    (u.isInterface && m.isConstructor) = false ∧ u.checkMethod m = .ok () :=
  ((checkMethods_eq_ok_iff.1 (verify_eq_ok_iff.1 verified).2.2).2 m mem).2

theorem fits_of_verify (verified : u.verify = .ok ()) (mem : m ∈ u.methods)
    (concrete : m.modifiers.isAbstract = false) (short : m.code.length < UInt32.size) :
    m.Fits u :=
  ((checkMethod_eq_ok_iff short).1 (checkMethod_of_verify verified mem).2).2 concrete

/-- What the verifier has established of a concrete method, however long its body is: the local slots
hold receiver and parameters, and every instruction has passed. -/
theorem checkInstrs_of_verify (verified : u.verify = .ok ()) (mem : m ∈ u.methods)
    (concrete : m.modifiers.isAbstract = false) :
    m.paramSlots ≤ m.maxLocals.toNat ∧ u.checkInstrs m 0 m.code = .ok () := by
  have passes := (checkMethod_of_verify verified mem).2
  unfold checkMethod at passes
  simp only [concrete, Bool.false_eq_true, if_false] at passes
  have body := (Exec.throw_or_eq_ok.1 passes).2
  obtain ⟨room, rest⟩ := Exec.throw_bind_or_eq_ok.1 body
  obtain ⟨_, instrs, -⟩ := Exec.bind_eq_ok.1 rest
  exact ⟨Nat.le_of_not_lt room, instrs⟩

/-- The methods of a unit that objects receive have fewer parameters than a frame has local slots,
if they have bodies. -/
def Seats (u : TypeUnit) : Prop :=
  ∀ m ∈ u.methods, m.modifiers.isAbstract = false → m.modifiers.isStatic = false →
    m.sig.arity + 1 < UInt16.size

/-- A frame holds receiver and parameters in its local slots. -/
theorem seats_of_verify (verified : u.verify = .ok ()) : u.Seats := by
  intro m mem concrete receives
  have room := (checkInstrs_of_verify verified mem concrete).1
  have slots : m.paramSlots = m.sig.arity + 1 := by
    unfold MethodDef.paramSlots MethodDef.slotsFor
    rw [receives]
    rfl
  rw [slots] at room
  exact Nat.lt_of_le_of_lt room m.maxLocals.toNat_lt

/-- A unit of the engine is accepted with other methods, if these are told apart by their keys
and each passes. -/
theorem verify_remade (verified : u.verify = .ok ()) {methods : List MethodDef}
    (distinct : (methods.map MethodDef.key).Nodup)
    (allowed : ∀ m ∈ methods, (u.isInterface && m.isConstructor) = false)
    (passes : ∀ m ∈ methods, { u with methods }.markInstrumented.checkMethod m = .ok ()) :
    { u with methods }.markInstrumented.verify = .ok () := by
  obtain ⟨header, fields, -⟩ := verify_eq_ok_iff.1 verified
  refine verify_eq_ok_iff.2 ⟨header, ?_, checkMethods_eq_ok_iff.2 ⟨distinct, fun m mem => ?_⟩⟩
  · have same := checkFields_congr (u := u) (v := { u with methods }.markInstrumented) rfl rfl
    exact (same [] u.fields).trans fields
  · exact ⟨List.not_mem_nil, allowed m mem, passes m mem⟩

end TypeUnit

end LiveUpdate
