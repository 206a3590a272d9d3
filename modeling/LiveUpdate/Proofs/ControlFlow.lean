import LiveUpdate.Instrument.Host
import LiveUpdate.Proofs.ExecutorMembers
import LiveUpdate.Proofs.Guards

/-!
# Code that control does not leave

The verifier looks at one instruction at a time.  What it establishes of a body is that all
jumps go to instructions of the body, that only existing local slots are named, that the
returns agree with the signature, and that the last instruction does not fall through.
Relocation keeps this, whatever it puts in front of instructions, as long as what it adds
neither jumps nor returns.  So it holds of every body that the engine makes of a verified one.
-/

set_option autoImplicit false

namespace LiveUpdate

namespace Instr

/-- Whether an instruction may stand in code of a length, in a frame with so many local slots,
of a method that leaves a value or does not. -/
def FitsIn (length locals : Nat) (leaves : Bool) : Instr → Prop
  | .jump target | .jumpIf _ target => target.toNat < length
  | .load slot | .store slot => slot.toNat < locals
  | .ret => leaves = false
  | .retValue => leaves = true
  | _ => True

/-- An instruction that fits everywhere. -/
def Steady (instr : Instr) : Prop := ∀ length locals leaves, instr.FitsIn length locals leaves

theorem FitsIn.mono {length locals locals' : Nat} {leaves : Bool} {instr : Instr}
    (fits : instr.FitsIn length locals leaves) (le : locals ≤ locals') :
    instr.FitsIn length locals' leaves := by
  cases instr with
  | load slot | store slot => exact Nat.lt_of_lt_of_le fits le
  | _ => exact fits

theorem Steady.not_jump {instr : Instr} (steady : instr.Steady) : instr.jumpTarget? = none := by
  cases instr with
  | jump target | jumpIf cond target => exact absurd (steady 0 0 true) (Nat.not_lt_zero _)
  | _ => rfl

/-- Only the targets of jumps depend on the length of the code. -/
theorem FitsIn.elsewhere {length length' locals : Nat} {leaves : Bool} {instr : Instr}
    (fits : instr.FitsIn length locals leaves) (unmoved : instr.jumpTarget? = none) :
    instr.FitsIn length' locals leaves := by
  cases instr with
  | jump | jumpIf => cases unmoved
  | _ => exact fits

theorem FitsIn.target_lt {length locals : Nat} {leaves : Bool} {instr : Instr}
    (fits : instr.FitsIn length locals leaves) {target : UInt32}
    (jumps : instr.jumpTarget? = some target) : target.toNat < length := by
  cases instr with
  | jump t | jumpIf cond t =>
    cases jumps
    exact fits
  | _ => cases jumps

theorem isTerminator_relocateJump (places : List Nat) (finish : Nat) (instr : Instr) :
    (relocateJump places finish instr).isTerminator = instr.isTerminator := by
  cases instr <;> rfl

/-- A jump fits when its new target is in the code. -/
theorem fitsIn_relocateJump {places : List Nat} {finish length locals : Nat} {leaves : Bool}
    {instr : Instr} {target : UInt32} (jumps : instr.jumpTarget? = some target)
    (lt : (UInt32.ofNat (places.getD target.toNat finish)).toNat < length) :
    (relocateJump places finish instr).FitsIn length locals leaves := by
  cases instr with
  | jump t | jumpIf cond t =>
    cases jumps
    exact lt
  | _ => cases jumps

end Instr

/-- Control stays inside the code: every instruction fits, and the last one does not fall
through. -/
structure StaysInside (locals : Nat) (leaves : Bool) (code : List Instr) : Prop where
  fits : ∀ instr ∈ code, instr.FitsIn code.length locals leaves
  ends : code.getLast?.any Instr.isTerminator = true

theorem StaysInside.mono {locals locals' : Nat} {leaves : Bool} {code : List Instr}
    (inside : StaysInside locals leaves code) (le : locals ≤ locals') :
    StaysInside locals' leaves code :=
  ⟨fun instr mem => (inside.fits instr mem).mono le, inside.ends⟩

/-! ### What the verifier establishes -/

namespace TypeUnit

variable {u : TypeUnit} {m : MethodDef}

theorem fitsIn_of_checkInstr (short : m.code.length < UInt32.size) {index : Nat} {instr : Instr}
    (passes : u.checkInstr m index instr = .ok ()) :
    instr.FitsIn m.code.length m.maxLocals.toNat m.sig.returnsValue := by
  unfold checkInstr at passes
  dsimp only at passes
  split at passes
  · cases passes
  · cases instr with
    | jump target | jumpIf cond target =>
      dsimp only at passes
      split at passes
      next lt =>
        have lt := UInt32.lt_iff_toNat_lt.1 lt
        rwa [UInt32.toNat_ofNat_of_lt' short] at lt
      · cases passes
    | load slot | store slot =>
      dsimp only at passes
      split at passes
      next lt => exact UInt16.lt_iff_toNat_lt.1 lt
      · cases passes
    | ret | retValue =>
      dsimp only at passes
      cases leaves : m.sig.returnsValue with
      | true =>
        rw [leaves] at passes
        cases passes <;> rfl
      | false =>
        rw [leaves] at passes
        cases passes <;> rfl
    | _ => exact trivial

theorem checkInstr_of_mem {index : Nat} {code : List Instr}
    (passes : u.checkInstrs m index code = .ok ()) {instr : Instr} (mem : instr ∈ code) :
    ∃ i, u.checkInstr m i instr = .ok () := by
  induction code generalizing index with
  | nil => cases mem
  | cons first rest ih =>
    obtain ⟨done, head, tail⟩ := Exec.bind_eq_ok.1 passes
    rcases List.mem_cons.1 mem with rfl | mem
    · exact ⟨index, head⟩
    · exact ih tail mem

/-- The body of a concrete method of a verified unit. -/
theorem staysInside_of_verify (verified : u.verify = .ok ()) (mem : m ∈ u.methods)
    (concrete : m.modifiers.isAbstract = false) (short : m.code.length < UInt32.size) :
    StaysInside m.maxLocals.toNat m.sig.returnsValue m.code := by
  have passes := ((checkMethods_eq_ok (checkMethods_of_verify verified)).2 m mem).2
  unfold checkMethod at passes
  simp only [concrete, Bool.false_eq_true, if_false] at passes
  split at passes
  · cases passes
  unfold checkBody at passes
  dsimp only at passes
  split at passes
  · cases passes
  obtain ⟨done, instrs, passes⟩ := Exec.bind_eq_ok.1 passes
  refine ⟨fun instr mem => ?_, ?_⟩
  · obtain ⟨i, fits⟩ := checkInstr_of_mem instrs mem
    exact fitsIn_of_checkInstr short fits
  · split at passes
    · cases passes
    next last => exact eq_true_of_ne_false last

end TypeUnit

/-! ### Relocation -/

/-- What may take the place of instructions: nothing is left out, what is added fits
everywhere, and an instruction that ends a body stays alone. -/
structure Expands (expand : Instr → List Instr) : Prop where
  kept : ∀ instr, 0 < (expand instr).length
  added : ∀ instr, ∀ x ∈ expand instr, x = instr ∨ x.Steady
  last : ∀ instr, instr.isTerminator = true → expand instr = [instr]

section Relocation

variable (prologue : List Instr) {expand : Instr → List Instr} {code : List Instr}

/-- An expansion begins before the end of the relocated code. -/
theorem expansionStart_lt (kept : ∀ instr, 0 < (expand instr).length) {index : Nat}
    (lt : index < code.length) :
    expansionStart prologue expand code index < (relocate prologue expand code).length := by
  have split : code.flatMap expand =
      (code.take index).flatMap expand ++ (code.drop index).flatMap expand := by
    rw [← List.flatMap_append, List.take_append_drop]
  have some_left : 0 < ((code.drop index).flatMap expand).length := by
    rw [List.drop_eq_getElem_cons lt, List.flatMap_cons, List.length_append]
    exact Nat.lt_of_lt_of_le (kept _) (Nat.le_add_right _ _)
  have whole := congrArg List.length split
  rw [List.length_append] at whole
  unfold expansionStart
  rw [relocate_eq, List.length_append, List.length_map]
  omega

theorem getLast?_relocate (expands : Expands expand)
    (ends : code.getLast?.any Instr.isTerminator = true) :
    (relocate prologue expand code).getLast?.any Instr.isTerminator = true := by
  cases final : code.getLast? with
  | none =>
    rw [final] at ends
    cases ends
  | some last =>
    obtain ⟨front, rfl⟩ := List.getLast?_eq_some_iff.1 final
    have stops : last.isTerminator = true := by simpa using ends
    rw [relocate_eq, List.flatMap_append, List.flatMap_singleton, expands.last last stops,
      List.map_append, List.map_singleton, ← List.append_assoc, List.getLast?_append]
    simpa [Instr.isTerminator_relocateJump] using stops

/-- Relocated code stays inside, if places in it are numbers that jumps can name. -/
theorem StaysInside.relocate {locals : Nat} {leaves : Bool}
    (inside : StaysInside locals leaves code)
    (expands : Expands expand) (steady : prologue.Forall Instr.Steady)
    (fits : (∀ instr ∈ code, instr.jumpTarget? = none) ∨
      (relocate prologue expand code).length < UInt32.size) :
    StaysInside locals leaves (relocate prologue expand code) := by
  refine ⟨fun instr mem => ?_, getLast?_relocate prologue expands inside.ends⟩
  rw [relocate_eq] at mem
  rcases List.mem_append.1 mem with mem | mem
  · exact List.forall_iff_forall_mem.1 steady instr mem _ _ _
  obtain ⟨x, expanded, rfl⟩ := List.mem_map.1 mem
  obtain ⟨origin, there, mem⟩ := List.mem_flatMap.1 expanded
  cases jumps : x.jumpTarget? with
  | none =>
    rw [relocateJump_of_not_jump jumps]
    rcases expands.added origin x mem with rfl | steady
    · exact (inside.fits x there).elsewhere jumps
    · exact steady _ _ _
  | some target =>
    -- What jumps was in the code before, so its target is the place of an expansion.
    rcases expands.added origin x mem with rfl | steady
    · refine Instr.fitsIn_relocateJump jumps ?_
      have lt := expansionStart_lt prologue expands.kept
        ((inside.fits x there).target_lt jumps)
      rcases fits with unmoved | short
      · rw [unmoved x there] at jumps
        cases jumps
      · rw [getD_expansionPlaces_map]
        have small : expansionStart prologue expand code target.toNat < UInt32.size :=
          Nat.lt_trans lt short
        rw [show prologue.length + ((code.take target.toNat).flatMap expand).length =
          expansionStart prologue expand code target.toNat from rfl,
          UInt32.toNat_ofNat_of_lt' small]
        exact lt
    · rw [steady.not_jump] at jumps
      cases jumps

theorem length_relocate_le {most : Nat} (short : ∀ instr, (expand instr).length ≤ most)
    (code : List Instr) :
    (relocate prologue expand code).length ≤ prologue.length + most * code.length := by
  rw [← expansionStart_of_length_le prologue expand (Nat.le_refl code.length)]
  exact expansionStart_le prologue expand short code _

end Relocation

theorem expands_alone : Expands fun instr => [instr] where
  kept _ := Nat.zero_lt_one
  added _ _ mem := .inl (List.mem_singleton.1 mem)
  last _ _ := rfl

section Guards

variable (options : Options) (names : NameTable)

theorem steady_guardWith (id : TypeId) (instr : Instr) : (guardWith id instr).Steady := by
  cases instr <;> exact fun _ _ _ => trivial

/-- An instruction that ends a body names no member. -/
theorem withGuard_terminator {instr : Instr} (stops : instr.isTerminator = true) :
    withGuard options names instr = [instr] := by
  have plain : guardedOwner? options instr = none := by
    cases instr with
    | ret | retValue | jump => rfl
    | _ => cases stops
  unfold withGuard
  rw [plain]

theorem mem_withGuard {instr x : Instr} (mem : x ∈ withGuard options names instr) :
    x = instr ∨ x.Steady := by
  unfold withGuard at mem
  split at mem
  · rcases List.mem_cons.1 mem with rfl | mem
    · exact .inr (steady_guardWith _ _)
    · exact .inl (List.mem_singleton.1 mem)
  · exact .inl (List.mem_singleton.1 mem)

theorem expands_withGuard : Expands (withGuard options names) where
  kept := length_withGuard_pos options names
  added _ _ mem := mem_withGuard options names mem
  last _ stops := withGuard_terminator options names stops

variable (ctx : ExecutorContext)

theorem steady_specialCall (method : MethodRef) : (ctx.specialCall method).Steady := by
  unfold ExecutorContext.specialCall
  split
  · exact fun _ _ _ => trivial
  · split
    · exact fun _ _ _ => trivial
    · dsimp only
      split <;> exact fun _ _ _ => trivial

theorem steady_of_privileged {instr replaced : Instr}
    (privileged : ctx.privileged? instr = some replaced) : replaced.Steady := by
  cases instr with
  | access a f =>
    dsimp only [ExecutorContext.privileged?] at privileged
    split at privileged <;> cases privileged
    exact fun _ _ _ => trivial
  | invoke kind method =>
    cases kind with
    | special =>
      cases privileged
      exact steady_specialCall ctx method
    | _ =>
      dsimp only [ExecutorContext.privileged?] at privileged
      split at privileged <;> cases privileged
      exact fun _ _ _ => trivial
  | _ => cases privileged

theorem expands_compileInstr : Expands (ctx.compileInstr options names) where
  kept instr := by
    unfold ExecutorContext.compileInstr
    split
    · exact Nat.zero_lt_one
    · exact length_withGuard_pos options names instr
  added instr x mem := by
    unfold ExecutorContext.compileInstr at mem
    split at mem
    next privileged =>
      rw [List.mem_singleton.1 mem]
      exact .inr (steady_of_privileged ctx privileged)
    · exact mem_withGuard options names mem
  last instr stops := by
    have plain : ctx.privileged? instr = none := by
      cases instr with
      | ret | retValue | jump => rfl
      | _ => cases stops
    unfold ExecutorContext.compileInstr
    rw [plain]
    exact withGuard_terminator options names stops

theorem length_compileInstr_le (instr : Instr) :
    (ctx.compileInstr options names instr).length ≤ 2 := by
  unfold ExecutorContext.compileInstr
  split
  · exact Nat.le_succ _
  · exact length_withGuard_le options names instr

end Guards

end LiveUpdate
