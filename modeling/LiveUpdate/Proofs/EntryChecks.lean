import LiveUpdate.Proofs.Containment
import LiveUpdate.Proofs.Verifying

/-!
# Checks in front of bodies

The host puts a check in front of a body by relocating it: the check stands first, behind it is
the body with every jump one place further.  A jump of accepted code goes to one of its
instructions, so no jump goes to the check.  Control comes to it when the method is entered, with
the arguments still in the local slots, and not once more in the same call.
-/

set_option autoImplicit false

namespace LiveUpdate

namespace Instr

/-- The instruction with its jump one place further. -/
def further (instr : Instr) : Instr :=
  match instr.jumpTarget? with
  | some target => instr.retarget (target + 1)
  | none => instr

/-- The instruction with its jump one place nearer. -/
def nearer (instr : Instr) : Instr :=
  match instr.jumpTarget? with
  | some target => instr.retarget (target - 1)
  | none => instr

/-- Whether an instruction is a check in front of a body. -/
def isEntryCheck : Instr → Bool
  | entryCheck .. => true
  | _ => false

@[simp] theorem nearer_further (instr : Instr) : instr.further.nearer = instr := by
  have back (target : UInt32) : target + 1 - 1 = target := by
    apply UInt32.toBitVec_inj.1
    show target.toBitVec + 1 - 1 = _
    exact BitVec.add_sub_cancel _ _
  cases instr with
  | jump target => exact congrArg Instr.jump (back target)
  | jumpIf cond target => exact congrArg (Instr.jumpIf cond) (back target)
  | _ => rfl

@[simp] theorem isEntryCheck_further (instr : Instr) :
    instr.further.isEntryCheck = instr.isEntryCheck := by
  cases instr <;> rfl

theorem further_of_isEntryCheck {instr : Instr} (check : instr.isEntryCheck = true) :
    instr.further = instr := by
  cases instr with
  | entryCheck => rfl
  | _ => cases check

/-- One place further than the target of a jump that goes below some number is not the first
place. -/
theorem jumpTarget?_further {instr : Instr} {length : UInt32}
    (below : ∀ target, instr.jumpTarget? = some target → target < length) :
    instr.further.jumpTarget? ≠ some 0 := by
  have next {target : UInt32} (lt : target < length) : target + 1 ≠ 0 := by
    intro zero
    have sum := congrArg UInt32.toNat zero
    have lt := UInt32.lt_iff_toNat_lt.1 lt
    have bound := length.toNat_lt
    rw [UInt32.toNat_add] at sum
    change (target.toNat + 1) % 2 ^ 32 = 0 at sum
    omega
  intro first
  cases instr with
  | jump target | jumpIf cond target => exact next (below target rfl) (Option.some.inj first)
  | _ => cases first

end Instr

/-- All jumps of some code go to numbers below its length, as far as 32 bits can count it. -/
def JumpsInside (code : List Instr) : Prop :=
  ∀ instr ∈ code, ∀ target, instr.jumpTarget? = some target → target < UInt32.ofNat code.length

/-- Accepted code jumps inside itself, however long it is. -/
theorem TypeUnit.jumpsInside_of_verify {u : TypeUnit} (verified : u.verify = .ok ())
    {m : MethodDef} (mem : m ∈ u.methods) : JumpsInside m.code := by
  intro instr there target jumps
  have concrete : m.modifiers.isAbstract = false := by
    refine Bool.eq_false_iff.2 fun abstract => ?_
    have empty := List.isEmpty_iff.1 ((isAbstract_iff_of_verify verified mem).1 abstract)
    rw [empty] at there
    cases there
  obtain ⟨i, passes⟩ := checkInstr_of_mem (checkInstrs_of_verify verified mem concrete).2 there
  unfold checkInstr at passes
  dsimp only at passes
  split at passes
  · cases passes
  · cases instr with
    | jump t | jumpIf cond t =>
      cases jumps
      dsimp only at passes
      split at passes
      next lt => exact lt
      · cases passes
    | _ => cases jumps

/-- With a check in front of it code is what it was, with its jumps one place further. -/
theorem relocate_check {code : List Instr} (inside : JumpsInside code) (check : Instr) :
    relocate [check] (fun instr => [instr]) code = check :: code.map Instr.further := by
  rw [relocate_eq, List.singleton_append, List.flatMap_singleton']
  refine congrArg (List.cons check) (List.map_congr_left fun instr mem => ?_)
  cases jumps : instr.jumpTarget? with
  | none =>
    rw [relocateJump_of_not_jump jumps]
    unfold Instr.further
    rw [jumps]
  | some target =>
    have lt : target.toNat < (UInt32.ofNat code.length).toNat :=
      UInt32.lt_iff_toNat_lt.1 (inside instr mem target jumps)
    have le : target.toNat ≤ code.length :=
      Nat.le_of_lt (Nat.lt_of_lt_of_le lt (Nat.mod_le _ _))
    have place := getD_expansionPlaces_map (fun instr : Instr => [instr]) code 1 target.toNat
    rw [List.flatMap_singleton', List.flatMap_singleton', List.length_take, Nat.min_eq_left le]
      at place
    unfold relocateJump Instr.further
    rw [jumps]
    show instr.retarget (UInt32.ofNat (List.getD _ _ _)) = instr.retarget _
    rw [List.length_singleton, place, UInt32.ofNat_add, UInt32.ofNat_toNat, UInt32.add_comm]
    rfl

/-- Code without jumps jumps nowhere else. -/
theorem jumpsInside_of_unmoved {code : List Instr}
    (unmoved : ∀ instr ∈ code, instr.jumpTarget? = none) : JumpsInside code := by
  intro instr there target jumps
  rw [unmoved instr there] at jumps
  cases jumps

/-- So a check in front leaves it as it is. -/
theorem relocate_check_of_unmoved {code : List Instr}
    (unmoved : ∀ instr ∈ code, instr.jumpTarget? = none) (check : Instr) :
    relocate [check] (fun instr => [instr]) code = check :: code := by
  rw [relocate_check (jumpsInside_of_unmoved unmoved)]
  refine congrArg (List.cons check)
    ((List.map_congr_left fun instr there => ?_).trans (List.map_id _))
  unfold Instr.further
  rw [unmoved instr there]
  rfl

/-- A body with a check in front of it. -/
structure CheckedBody (check : Instr) (body checked : List Instr) : Prop where
  first : checked.head? = some check
  /-- Behind the check is the body, with its jumps one place further. -/
  behind : checked.tail.map Instr.nearer = body
  others : checked.tail.filter Instr.isEntryCheck = body.filter Instr.isEntryCheck
  apart : ∀ instr ∈ checked, instr.jumpTarget? ≠ some 0

theorem checkedBody {code : List Instr} (inside : JumpsInside code) {check : Instr}
    (plain : check.jumpTarget? = none) :
    CheckedBody check code (relocate [check] (fun instr => [instr]) code) := by
  rw [relocate_check inside]
  refine ⟨rfl, ?_, ?_, fun instr mem => ?_⟩
  · rw [List.tail_cons, List.map_map]
    exact (List.map_congr_left fun instr _ => Instr.nearer_further instr).trans (List.map_id _)
  · have kinds : Instr.isEntryCheck ∘ Instr.further = Instr.isEntryCheck :=
      funext Instr.isEntryCheck_further
    rw [List.tail_cons, List.filter_map, kinds]
    refine (List.map_congr_left fun instr mem => ?_).trans (List.map_id _)
    exact Instr.further_of_isEntryCheck (List.mem_filter.1 mem).2
  · rcases List.mem_cons.1 mem with rfl | moved
    · rw [plain]
      exact (Option.some_ne_none 0).symm
    · obtain ⟨origin, there, rfl⟩ := List.mem_map.1 moved
      exact Instr.jumpTarget?_further (inside origin there)

section Runs

variable {m : Machine} {method : Method} {now next : Moment}

/-- Where no jump goes to the first instruction, control goes on behind it. -/
theorem Machine.Goes.pc_pos (apart : ∀ instr ∈ method.code, instr.jumpTarget? ≠ some 0)
    (running : now.frame.method = method) (goes : m.Goes now next) :
    next.frame.method = method ∧ 0 < next.frame.pc := by
  cases goes with
  | @on f f' next e e' instr flow here does resumes =>
    obtain ⟨sameMethod, samePc, -⟩ := m.stays_execute instr f e flow f' e' does
    have follows := Machine.follows_execute does
    have running' : f'.method = method := sameMethod.trans running
    cases flow with
    | next | skip =>
      cases resumes
      exact ⟨running', Nat.zero_lt_succ _⟩
    | jump place =>
      cases resumes
      obtain ⟨target, jumps, rfl⟩ := follows
      have here : method.code[f.pc]? = some instr := running ▸ here
      refine ⟨running', Nat.pos_of_ne_zero fun zero => ?_⟩
      have first : target = 0 := UInt32.toNat_inj.1 zero
      exact apart instr (List.mem_of_getElem? here) (jumps.trans (congrArg some first))
    | ret value => cases resumes

/-- The first instruction is executed when the method is entered, and not again in that call. -/
theorem Machine.Visits.eq_start_or (apart : ∀ instr ∈ method.code, instr.jumpTarget? ≠ some 0)
    {c : ClassRef} {args : List Value} {e : Engine}
    (visits : m.Visits ⟨.enter c method args, e⟩ now) :
    now.frame.method = method ∧ (now = ⟨.enter c method args, e⟩ ∨ 0 < now.frame.pc) := by
  induction visits with
  | refl => exact ⟨rfl, .inl rfl⟩
  | tail _ goes ih =>
    obtain ⟨running, later⟩ := goes.pc_pos apart ih.1
    exact ⟨running, .inr later⟩

end Runs

end LiveUpdate
