import LiveUpdate.Proofs.ControlFlow
import LiveUpdate.Proofs.Names
import Mathlib.Data.List.Forall2

/-!
# What relocation keeps of the flow of control

When every instruction is replaced by some instructions, of which only the last may jump and only
to where the instruction jumped, the expansions laid out one after another jump as the code did: a
target is the beginning of the expansion that stands for it, or the end if nothing stood there,
and never the middle of an expansion.  Guards are expansions of this sort.  Wherever guarded code
uses a member of a type outside the system, a guard that names the owner stands in front, and
there are no other guards than these.
-/

set_option autoImplicit false

namespace LiveUpdate

/-- What may take the place of an instruction. -/
structure Carries (instr : Instr) (expansion : List Instr) : Prop where
  pushed : expansion ≠ []
  straight : ∀ x ∈ expansion.dropLast, x.jumpTarget? = none
  target : ∀ x t, expansion.getLast? = some x → x.jumpTarget? = some t →
    instr.jumpTarget? = some t

namespace Carries

variable {instr : Instr}

theorem concat (front : List Instr) {last : Instr}
    (straight : ∀ x ∈ front, x.jumpTarget? = none)
    (target : ∀ t, last.jumpTarget? = some t → instr.jumpTarget? = some t) :
    Carries instr (front ++ [last]) where
  pushed := List.append_ne_nil_of_right_ne_nil _ (List.cons_ne_nil _ _)
  straight := by
    rw [List.dropLast_concat]
    exact straight
  target x t final jumps := by
    rw [List.getLast?_concat] at final
    cases final
    exact target t jumps

theorem alone {last : Instr}
    (target : ∀ t, last.jumpTarget? = some t → instr.jumpTarget? = some t) :
    Carries instr [last] :=
  concat [] (fun x mem => by cases mem) target

/-- A jump in an expansion is the last of it and goes where the instruction went. -/
theorem of_jump {expansion : List Instr} (carries : Carries instr expansion) {k : Nat} {x : Instr}
    {t : UInt32} (here : expansion[k]? = some x) (jumps : x.jumpTarget? = some t) :
    k + 1 = expansion.length ∧ instr.jumpTarget? = some t := by
  obtain ⟨lt, rfl⟩ := List.getElem?_eq_some_iff.1 here
  have last : k + 1 = expansion.length := by
    refine Nat.le_antisymm lt (Nat.le_of_not_lt fun earlier => ?_)
    have front : k < expansion.dropLast.length := by
      rw [List.length_dropLast]
      omega
    have mem := List.getElem_mem front
    rw [List.getElem_dropLast] at mem
    rw [carries.straight _ mem] at jumps
    cases jumps
  refine ⟨last, carries.target _ t ?_ jumps⟩
  rw [List.getLast?_eq_getElem?, ← last]
  exact here

end Carries

/-- The output jumps as the code did that it was laid out for. -/
structure KeepsFlow (prologue code : List Instr) (expansions : List (List Instr))
    (output : List Instr) : Prop where
  front : output.take prologue.length = prologue
  /-- The expansions fill the rest. -/
  ends : startOf prologue expansions code.length = output.length
  /-- The list of places that jumps are looked up in. -/
  places : expansionPlaces prologue.length expansions =
    (List.range code.length).map (startOf prologue expansions)
  increasing : ∀ i j, i < j → j ≤ code.length →
    startOf prologue expansions i < startOf prologue expansions j
  /-- What is no jump stands in its expansion as it was. -/
  straight : ∀ (i : Nat) expansion (k : Nat) x, expansions[i]? = some expansion →
    expansion[k]? = some x → x.jumpTarget? = none →
    output[startOf prologue expansions i + k]? = some x
  /-- A jump goes to the first instruction for its target, or to the end from outside. -/
  moved : ∀ (i : Nat) expansion (k : Nat) x t, expansions[i]? = some expansion →
    expansion[k]? = some x → x.jumpTarget? = some t →
    ∃ t', output[startOf prologue expansions i + k]? = some (x.retarget t') ∧ t'.toNat =
      if t.toNat < code.length then startOf prologue expansions t.toNat else output.length
  /-- A jump behind the prologue is the last of an expansion and stands for a jump of the code. -/
  jumps : ∀ (place : Nat) x t', prologue.length ≤ place → output[place]? = some x →
    x.jumpTarget? = some t' →
    ∃ i instr t, code[i]? = some instr ∧ instr.jumpTarget? = some t ∧
      place + 1 = startOf prologue expansions (i + 1) ∧ t'.toNat =
        if t.toNat < code.length then startOf prologue expansions t.toNat else output.length
  /-- It goes neither into the prologue nor between the instructions of an expansion. -/
  outside : ∀ (place : Nat) x t', prologue.length ≤ place → output[place]? = some x →
    x.jumpTarget? = some t' →
    prologue.length ≤ t'.toNat ∧ ∀ i < code.length,
      t'.toNat ≤ startOf prologue expansions i ∨ startOf prologue expansions (i + 1) ≤ t'.toNat

/-! ### Expansions laid out -/

/-- What stands in a list of lists stands in one of them, behind those before it. -/
theorem exists_of_getElem?_flatten {α : Type} {parts : List (List α)} {n : Nat} {x : α}
    (here : parts.flatten[n]? = some x) : ∃ i part k, parts[i]? = some part ∧
      part[k]? = some x ∧ n = (parts.take i).flatten.length + k := by
  induction parts generalizing n with
  | nil => cases here
  | cons part rest ih =>
    rw [List.flatten_cons] at here
    rcases Nat.lt_or_ge n part.length with lt | ge
    · rw [List.getElem?_append_left lt] at here
      exact ⟨0, part, n, rfl, here, (Nat.zero_add n).symm⟩
    · rw [List.getElem?_append_right ge] at here
      obtain ⟨i, other, k, at_, found, eq⟩ := ih here
      refine ⟨i + 1, other, k, at_, found, ?_⟩
      rw [List.take_succ_cons, List.flatten_cons, List.length_append]
      omega

section LayOut

variable (prologue : List Instr) (expansions : List (List Instr))

theorem expansionPlaces_eq (start : Nat) : expansionPlaces start expansions =
    (List.range expansions.length).map fun i => start + (expansions.take i).flatten.length := by
  induction expansions generalizing start with
  | nil => rfl
  | cons expansion rest ih =>
    rw [List.length_cons, List.range_succ_eq_map, List.map_cons, List.map_map]
    refine congrArg (List.cons start) ((ih _).trans (List.map_congr_left fun i _ => ?_))
    show _ = start + ((expansion :: rest).take (i + 1)).flatten.length
    rw [List.take_succ_cons, List.flatten_cons, List.length_append, Nat.add_assoc]

/-- A jump that is laid out goes to the place for its target. -/
theorem relocateJump_layOut {x : Instr} {t : UInt32} (jumps : x.jumpTarget? = some t) :
    relocateJump (expansionPlaces prologue.length expansions)
      (prologue.length + expansions.flatten.length) x =
        x.retarget (UInt32.ofNat (startOf prologue expansions t.toNat)) := by
  unfold relocateJump startOf
  rw [jumps, ← getD_expansionPlaces]

theorem startOf_le_length (i : Nat) :
    startOf prologue expansions i ≤ (layOut prologue expansions).length := by
  have split := congrArg List.length
    (congrArg List.flatten (List.take_append_drop i expansions))
  rw [List.flatten_append, List.length_append] at split
  rw [length_layOut]
  unfold startOf
  omega

/-- Behind the prologue there are only expansions. -/
theorem exists_of_getElem?_layOut {place : Nat} {x : Instr} (behind : prologue.length ≤ place)
    (here : (layOut prologue expansions)[place]? = some x) :
    ∃ i expansion k y, expansions[i]? = some expansion ∧ expansion[k]? = some y ∧
      place = startOf prologue expansions i + k ∧
      x = relocateJump (expansionPlaces prologue.length expansions)
        (prologue.length + expansions.flatten.length) y := by
  unfold layOut at here
  dsimp only at here
  rw [List.getElem?_append_right behind, List.getElem?_map] at here
  obtain ⟨y, there, rfl⟩ := Option.map_eq_some_iff.1 here
  obtain ⟨i, expansion, k, at_, found, eq⟩ := exists_of_getElem?_flatten there
  refine ⟨i, expansion, k, y, at_, found, ?_, rfl⟩
  unfold startOf
  omega

end LayOut

theorem jumpTarget?_retarget {x : Instr} {t t' : UInt32} (jumps : x.jumpTarget? = some t) :
    (x.retarget t').jumpTarget? = some t' := by
  cases x with
  | jump | jumpIf => rfl
  | _ => cases jumps

section Flow

variable {prologue code : List Instr} {expansions : List (List Instr)}
  (carries : List.Forall₂ Carries code expansions)
include carries

theorem carries_at {i : Nat} {expansion : List Instr} (here : expansions[i]? = some expansion) :
    ∃ instr, code[i]? = some instr ∧ Carries instr expansion := by
  obtain ⟨same, each⟩ := List.forall₂_iff_get.1 carries
  obtain ⟨lt, rfl⟩ := List.getElem?_eq_some_iff.1 here
  have lt' : i < code.length := same ▸ lt
  exact ⟨code[i], List.getElem?_eq_getElem lt', each i lt' lt⟩

theorem startOf_lt_succ (prologue : List Instr) {i : Nat} (lt : i < code.length) :
    startOf prologue expansions i < startOf prologue expansions (i + 1) := by
  have lt' : i < expansions.length := carries.length_eq ▸ lt
  have here := List.getElem?_eq_getElem lt'
  obtain ⟨instr, -, carried⟩ := carries_at carries here
  rw [startOf_succ prologue expansions here]
  exact Nat.lt_add_of_pos_right (List.length_pos_iff.2 carried.pushed)

theorem startOf_lt (prologue : List Instr) {i j : Nat} (lt : i < j) (le : j ≤ code.length) :
    startOf prologue expansions i < startOf prologue expansions j := by
  induction lt with
  | refl => exact startOf_lt_succ carries prologue le
  | step more ih =>
    exact Nat.lt_trans (ih (Nat.le_of_succ_le le)) (startOf_lt_succ carries prologue le)

theorem startOf_mono (prologue : List Instr) {i j : Nat} (le : i ≤ j) (le' : j ≤ code.length) :
    startOf prologue expansions i ≤ startOf prologue expansions j := by
  rcases Nat.lt_or_eq_of_le le with lt | rfl
  · exact Nat.le_of_lt (startOf_lt carries prologue lt le')
  · exact Nat.le_refl _

theorem startOf_eq_ite (prologue : List Instr) (i : Nat) : startOf prologue expansions i =
    if i < code.length then startOf prologue expansions i
      else (layOut prologue expansions).length := by
  split
  next => rfl
  next beyond =>
    exact startOf_of_length_le prologue expansions (carries.length_eq ▸ Nat.le_of_not_lt beyond)

/-- Where a jump of an expansion ends up, as long as places are numbers that jumps can name. -/
theorem target_layOut (fits : (layOut prologue expansions).length < UInt32.size) (t : UInt32) :
    (UInt32.ofNat (startOf prologue expansions t.toNat)).toNat =
      if t.toNat < code.length then startOf prologue expansions t.toNat
        else (layOut prologue expansions).length := by
  have small := Nat.lt_of_le_of_lt (startOf_le_length prologue expansions t.toNat) fits
  rw [UInt32.toNat_ofNat_of_lt' small]
  exact startOf_eq_ite carries prologue t.toNat

/-- The place for an instruction of the code or for its end is in no expansion. -/
theorem startOf_outside (prologue : List Instr) (t i : Nat) (lt : i < code.length) :
    startOf prologue expansions t ≤ startOf prologue expansions i ∨
      startOf prologue expansions (i + 1) ≤ startOf prologue expansions t := by
  rcases Nat.lt_or_ge i t with after | before
  · refine .inr ?_
    -- Numbers that no instruction has are all at the end.
    rcases Nat.lt_or_ge t code.length with inside | beyond
    · exact startOf_mono carries prologue after (Nat.le_of_lt inside)
    · have final : expansions.length ≤ t := carries.length_eq ▸ beyond
      rw [startOf_of_length_le prologue expansions final]
      exact startOf_le_length prologue expansions (i + 1)
  · exact .inl (startOf_mono carries prologue before (Nat.le_of_lt lt))

/-- A jump behind the prologue, and where it comes from. -/
theorem jump_layOut {place : Nat} {x : Instr} {t' : UInt32} (behind : prologue.length ≤ place)
    (here : (layOut prologue expansions)[place]? = some x) (jumps : x.jumpTarget? = some t') :
    ∃ i instr t, code[i]? = some instr ∧ instr.jumpTarget? = some t ∧
      place + 1 = startOf prologue expansions (i + 1) ∧
      t' = UInt32.ofNat (startOf prologue expansions t.toNat) := by
  obtain ⟨i, expansion, k, y, at_, found, rfl, rfl⟩ :=
    exists_of_getElem?_layOut prologue expansions behind here
  cases origin : y.jumpTarget? with
  | none =>
    rw [relocateJump_of_not_jump origin, origin] at jumps
    cases jumps
  | some t =>
    obtain ⟨instr, there, carried⟩ := carries_at carries at_
    obtain ⟨last, jumped⟩ := carried.of_jump found origin
    rw [relocateJump_layOut prologue expansions origin, jumpTarget?_retarget origin] at jumps
    refine ⟨i, instr, t, there, jumped, ?_, (Option.some.inj jumps).symm⟩
    rw [startOf_succ prologue expansions at_, ← last, Nat.add_assoc]

theorem keepsFlow_layOut (fits : (layOut prologue expansions).length < UInt32.size) :
    KeepsFlow prologue code expansions (layOut prologue expansions) where
  front := List.take_left
  ends := startOf_of_length_le prologue expansions (Nat.le_of_eq carries.length_eq.symm)
  places := by
    rw [carries.length_eq]
    exact expansionPlaces_eq expansions prologue.length
  increasing i j := startOf_lt carries prologue
  straight i expansion k x at_ found plain := by
    rw [getElem?_layOut prologue expansions at_ found, relocateJump_of_not_jump plain]
  moved i expansion k x t at_ found jumps := by
    refine ⟨UInt32.ofNat (startOf prologue expansions t.toNat), ?_, target_layOut carries fits t⟩
    rw [getElem?_layOut prologue expansions at_ found,
      relocateJump_layOut prologue expansions jumps]
  jumps place x t' behind here jumps := by
    obtain ⟨i, instr, t, there, jumped, last, rfl⟩ := jump_layOut carries behind here jumps
    exact ⟨i, instr, t, there, jumped, last, target_layOut carries fits t⟩
  outside place x t' behind here jumps := by
    obtain ⟨i, instr, t, there, jumped, last, rfl⟩ := jump_layOut carries behind here jumps
    have small := Nat.lt_of_le_of_lt (startOf_le_length prologue expansions t.toNat) fits
    rw [UInt32.toNat_ofNat_of_lt' small]
    exact ⟨Nat.le_add_right _ _, fun i lt => startOf_outside carries prologue t.toNat i lt⟩

end Flow

/-! ### Guards -/

/-- Whether an instruction is a guard. -/
def Instr.isGuard : Instr → Bool
  | invokeCheck _ | fieldCheck _ => true
  | _ => false

/-- A guard belongs in front of an instruction: it names the owner of the member that is used, a
type outside the system. -/
inductive Guards (options : Options) (names : NameTable) : Instr → Instr → Prop
  | call {id : TypeId} {kind : InvokeKind} {ref : MethodRef}
      (outside : options.isSystemType ref.owner = false)
      (numbered : names.lookup ref.owner = some id) :
      Guards options names (.invokeCheck id) (.invoke kind ref)
  | field {id : TypeId} {access : FieldAccess} {ref : FieldRef}
      (outside : options.isSystemType ref.owner = false)
      (numbered : names.lookup ref.owner = some id) :
      Guards options names (.fieldCheck id) (.access access ref)

/-- Behind the prologue guards stand where they belong in the output, and nowhere else.  Where the
expansion of an instruction begins is given. -/
structure Guarded (options : Options) (names : NameTable) (prologue code output : List Instr)
    (start : Nat → Nat) : Prop where
  /-- A guard was in the code itself, or an instruction of the code that it guards follows. -/
  checks : ∀ (place : Nat) check, prologue.length ≤ place → output[place]? = some check →
    check.isGuard = true →
    (∃ i, code[i]? = some check ∧ place = start i) ∨
    ∃ i instr, code[i]? = some instr ∧ place = start i ∧ output[place + 1]? = some instr ∧
      Guards options names check instr
  uses : ∀ (place : Nat) instr owner, prologue.length ≤ place → output[place]? = some instr →
    instr.owner? = some owner → options.isSystemType owner = false →
    ∃ check, prologue.length < place ∧ output[place - 1]? = some check ∧
      Guards options names check instr

section Guards

variable {options : Options} {names : NameTable} {instr : Instr} {owner : String}

theorem guardedOwner?_eq_some_iff : guardedOwner? options instr = some owner ↔
    instr.owner? = some owner ∧ options.isSystemType owner = false := by
  unfold guardedOwner?
  rw [Option.filter_eq_some_iff, Bool.not_eq_true']

theorem guards_guardWith (guarded : guardedOwner? options instr = some owner) {id : TypeId}
    (numbered : names.lookup owner = some id) :
    Guards options names (guardWith id instr) instr := by
  obtain ⟨owns, outside⟩ := guardedOwner?_eq_some_iff.1 guarded
  cases instr with
  | invoke kind ref =>
    cases owns
    exact .call outside numbered
  | access access ref =>
    cases owns
    exact .field outside numbered
  | _ => cases owns

/-- What uses a member is neither a jump nor a guard. -/
theorem plain_of_owner (owns : instr.owner? = some owner) :
    instr.jumpTarget? = none ∧ instr.isGuard = false := by
  cases instr with
  | invoke | access => exact ⟨rfl, rfl⟩
  | _ => cases owns

theorem not_jump_of_isGuard (guard : instr.isGuard = true) : instr.jumpTarget? = none := by
  cases instr with
  | jump | jumpIf => cases guard
  | _ => rfl

theorem owner?_guardWith (id : TypeId) (instr : Instr) : (guardWith id instr).owner? = none := by
  cases instr <;> rfl

theorem withGuard_of_some (guarded : guardedOwner? options instr = some owner) {id : TypeId}
    (numbered : names.lookup owner = some id) :
    withGuard options names instr = [guardWith id instr, instr] := by
  unfold withGuard
  rw [guarded]
  dsimp only
  rw [numbered, Option.getD_some]

theorem withGuard_of_none (free : guardedOwner? options instr = none) :
    withGuard options names instr = [instr] := by
  unfold withGuard
  rw [free]

variable (prologue : List Instr) {code : List Instr}

/-- What stands behind the prologue of guarded code: an instruction of the code that has no guard,
or a guard, or the instruction behind it. -/
theorem exists_of_getElem?_guarded (named : Engine.NamesOwners options names code) {place : Nat}
    {x : Instr} (behind : prologue.length ≤ place) (plain : x.jumpTarget? = none)
    (here : (relocate prologue (withGuard options names) code)[place]? = some x) :
    ∃ i instr, code[i]? = some instr ∧
      let start := expansionStart prologue (withGuard options names) code i
      (guardedOwner? options instr = none ∧ place = start ∧ x = instr) ∨
      ∃ owner id, guardedOwner? options instr = some owner ∧ names.lookup owner = some id ∧
        (relocate prologue (withGuard options names) code)[start]? = some (guardWith id instr) ∧
        (relocate prologue (withGuard options names) code)[start + 1]? = some instr ∧
        (place = start ∧ x = guardWith id instr ∨ place = start + 1 ∧ x = instr) := by
  obtain ⟨i, expansion, k, y, at_, found, eq, moved⟩ :=
    exists_of_getElem?_layOut prologue _ behind here
  obtain rfl := eq_of_relocateJump moved.symm plain
  rw [List.getElem?_map] at at_
  obtain ⟨instr, there, rfl⟩ := Option.map_eq_some_iff.1 at_
  rw [← expansionStart_eq] at eq
  refine ⟨i, instr, there, ?_⟩
  cases guarded : guardedOwner? options instr with
  | none =>
    rw [withGuard_of_none guarded] at found
    match k with
    | 0 => exact .inl ⟨rfl, eq, (Option.some.inj found).symm⟩
    | _ + 1 => cases found
  | some owner =>
    obtain ⟨id, numbered⟩ := Option.isSome_iff_exists.1
      (named instr (List.mem_of_getElem? there) owner guarded)
    have expansion := withGuard_of_some guarded numbered
    have owns := (guardedOwner?_eq_some_iff.1 guarded).1
    have first : (withGuard options names instr)[0]? = some (guardWith id instr) := by
      rw [expansion]
      rfl
    have second : (withGuard options names instr)[1]? = some instr := by
      rw [expansion]
      rfl
    refine .inr ⟨owner, id, rfl, numbered,
      getElem?_relocate prologue _ there first (steady_guardWith id instr).not_jump,
      getElem?_relocate prologue _ there second (plain_of_owner owns).1, ?_⟩
    rw [expansion] at found
    match k with
    | 0 => exact .inl ⟨eq, (Option.some.inj found).symm⟩
    | 1 => exact .inr ⟨eq, (Option.some.inj found).symm⟩
    | _ + 2 => cases found

theorem guarded_relocate (named : Engine.NamesOwners options names code) :
    Guarded options names prologue code (relocate prologue (withGuard options names) code)
      (expansionStart prologue (withGuard options names) code) where
  checks place check behind here guard := by
    obtain ⟨i, instr, there, ⟨-, eq, rfl⟩ | ⟨owner, id, guarded, numbered, -, next, which⟩⟩ :=
      exists_of_getElem?_guarded prologue named behind (not_jump_of_isGuard guard) here
    · exact .inl ⟨i, there, eq⟩
    · rcases which with ⟨rfl, rfl⟩ | ⟨-, rfl⟩
      · exact .inr ⟨i, instr, there, rfl, next, guards_guardWith guarded numbered⟩
      · have plain := (plain_of_owner (guardedOwner?_eq_some_iff.1 guarded).1).2
        rw [plain] at guard
        cases guard
  uses place x user behind here owns outside := by
    have guardedUse := guardedOwner?_eq_some_iff.2 ⟨owns, outside⟩
    obtain ⟨i, instr, there, ⟨free, -, rfl⟩ | ⟨owner, id, guarded, numbered, guard, -, which⟩⟩ :=
      exists_of_getElem?_guarded prologue named behind (plain_of_owner owns).1 here
    · rw [guardedUse] at free
      cases free
    · rcases which with ⟨-, rfl⟩ | ⟨rfl, rfl⟩
      · rw [owner?_guardWith] at owns
        cases owns
      · refine ⟨guardWith id x, ?_, guard, guards_guardWith guarded numbered⟩
        exact Nat.lt_succ_of_le (Nat.le_add_right _ _)

theorem namesOwners_addAll (options : Options) (names : NameTable) (code : List Instr) :
    Engine.NamesOwners options (names.addAll (code.filterMap (guardedOwner? options))) code :=
  fun instr mem _ guarded =>
    names.lookup_addAll_isSome (List.mem_filterMap.2 ⟨instr, mem, guarded⟩)

/-- The instructions of some code with their guards, when the owner that a guard names gets its
number as the guard is put in, and the table from then on. -/
def guardEach (options : Options) (names : NameTable) :
    List Instr → List (List Instr) × NameTable
  | [] => ([], names)
  | instr :: rest =>
    let (expansion, names) := match guardedOwner? options instr with
      | some owner => ([guardWith (names.idFor owner).1 instr, instr], (names.idFor owner).2)
      | none => ([instr], names)
    let (expansions, names) := guardEach options names rest
    (expansion :: expansions, names)

/-- It makes no difference whether owners are numbered as guards are put in, or before. -/
theorem guardEach_eq (options : Options) (names : NameTable) (code : List Instr) :
    let later := names.addAll (code.filterMap (guardedOwner? options))
    guardEach options names code = (code.map (withGuard options later), later) := by
  induction code generalizing names with
  | nil => rfl
  | cons instr rest ih =>
    unfold guardEach
    cases guarded : guardedOwner? options instr with
    | none =>
      dsimp only
      rw [ih, List.filterMap_cons_none guarded, List.map_cons, withGuard_of_none guarded]
    | some owner =>
      -- The number that the owner gets now is the one that it has in the end.
      have numbered := NameTable.lookup_of_extends
        (NameTable.addAll_extends _ (rest.filterMap (guardedOwner? options)))
        (names.lookup_idFor owner)
      dsimp only
      rw [ih, List.filterMap_cons_some guarded, List.map_cons]
      show _ = (withGuard options ((names.idFor owner).2.addAll _) instr :: _, _)
      rw [withGuard_of_some guarded numbered]
      rfl

end Guards

/-! ### What the engine does -/

/-- The ways in which the engine relocates code: it puts in guards, it puts a check in front of a
body, and it compiles a body for an executor. -/
inductive EnginePass : List Instr → (Instr → List Instr) → Prop
  | guards (options : Options) (names : NameTable) : EnginePass [] (withGuard options names)
  | check (id : TypeId) (slot : UInt32) : EnginePass [.entryCheck id slot] fun instr => [instr]
  | executor (ctx : ExecutorContext) (options : Options) (names : NameTable) :
      EnginePass [] (ctx.compileInstr options names)

namespace EnginePass

theorem carries_withGuard (options : Options) (names : NameTable) (instr : Instr) :
    Carries instr (withGuard options names instr) := by
  unfold withGuard
  split
  · refine Carries.concat [_] (fun x mem => ?_) fun t jumps => jumps
    rw [List.mem_singleton.1 mem]
    exact (steady_guardWith _ instr).not_jump
  · exact Carries.alone fun t jumps => jumps

variable {prologue : List Instr} {expand : Instr → List Instr}

theorem carries (pass : EnginePass prologue expand) (instr : Instr) :
    Carries instr (expand instr) := by
  cases pass with
  | guards options names => exact carries_withGuard options names instr
  | check => exact Carries.alone fun t jumps => jumps
  | executor ctx options names =>
    unfold ExecutorContext.compileInstr
    split
    next replaced privileged =>
      refine Carries.alone fun t jumps => ?_
      rw [(steady_of_privileged ctx privileged).not_jump] at jumps
      cases jumps
    next => exact carries_withGuard options names instr

theorem carries_all (pass : EnginePass prologue expand) (code : List Instr) :
    List.Forall₂ Carries code (code.map expand) := by
  rw [List.forall₂_map_right_iff, List.forall₂_same]
  exact fun instr _ => pass.carries instr

/-- Places in what the engine makes of short code are numbers that jumps can name. -/
theorem length_lt (pass : EnginePass prologue expand) {code : List Instr}
    (short : code.length < UInt32.size / 2) :
    (relocate prologue expand code).length < UInt32.size := by
  have half : UInt32.size = 2 * (UInt32.size / 2) := rfl
  cases pass with
  | guards options names =>
    have longer := length_relocate_le [] (length_withGuard_le options names) code
    rw [List.length_nil] at longer
    omega
  | check id slot =>
    have alone : ∀ instr : Instr, [instr].length ≤ 1 := fun _ => Nat.le_refl 1
    have longer := length_relocate_le [.entryCheck id slot] alone code
    rw [List.length_singleton] at longer
    omega
  | executor ctx options names =>
    have longer := length_relocate_le [] (length_compileInstr_le options names ctx) code
    rw [List.length_nil] at longer
    omega

end EnginePass

/-- Expansions laid out behind a prologue keep the flow of control, as long as places are numbers
that jumps can name.  Guards stand in front of the uses of members, and nowhere else unless they
were there before.  What the engine itself does to code of fewer than `2 ^ 31` instructions is of
this sort. -/
theorem relocation_keeps_flow {prologue code : List Instr} {expansions : List (List Instr)}
    (carries : List.Forall₂ Carries code expansions)
    (fits : (layOut prologue expansions).length < UInt32.size) :
    KeepsFlow prologue code expansions (layOut prologue expansions) ∧
    (∀ (options : Options) (names : NameTable),
      let names := names.addAll (code.filterMap (guardedOwner? options))
      Guarded options names prologue code (relocate prologue (withGuard options names) code)
        (expansionStart prologue (withGuard options names) code)) ∧
    ∀ first expand, EnginePass first expand → code.length < UInt32.size / 2 →
      KeepsFlow first code (code.map expand) (relocate first expand code) :=
  ⟨keepsFlow_layOut carries fits,
    fun options names => guarded_relocate prologue (namesOwners_addAll options names code),
    fun _ _ pass short => keepsFlow_layOut (pass.carries_all code) (pass.length_lt short)⟩

/-- A call, a jump back to it, and a jump out of the code. -/
def callingCode : List Instr :=
  [.invoke .static ⟨"app.T", "f", ⟨[], .void⟩⟩, .constBool true, .jumpIf true 0, .jump 9]

/-- With guards in it the code jumps back to the guard, and out of the code to the end. -/
theorem relocation_keeps_flow_calling :
    let names := ({} : NameTable).addAll ["app.T"]
    let expansions := callingCode.map (withGuard {} names)
    layOut [] expansions = [.invokeCheck 0, .invoke .static ⟨"app.T", "f", ⟨[], .void⟩⟩,
      .constBool true, .jumpIf true 0, .jump 5] ∧
    KeepsFlow [] callingCode expansions (layOut [] expansions) := by
  intro names expansions
  have out : layOut [] expansions = [.invokeCheck 0, .invoke .static ⟨"app.T", "f", ⟨[], .void⟩⟩,
      .constBool true, .jumpIf true 0, .jump 5] := by decide
  have carries : List.Forall₂ Carries callingCode expansions :=
    (EnginePass.guards {} names).carries_all callingCode
  have fits : (layOut [] expansions).length < UInt32.size := by
    rw [out]
    decide
  exact ⟨out, (relocation_keeps_flow carries fits).1⟩

/-- Code behind a prologue of `2 ^ 32` instructions is out of the reach of jumps.  A prologue may
jump to itself.  A guard that the code held before gets another one behind it. -/
theorem relocation_loses_flow :
    (¬ ∀ (prologue code : List Instr) (expansions : List (List Instr)),
      code.length < UInt32.size / 2 → List.Forall₂ Carries code expansions →
      KeepsFlow prologue code expansions (layOut prologue expansions)) ∧
    (¬ ∀ (prologue code : List Instr) (expansions : List (List Instr)),
      code.length < UInt32.size / 2 → List.Forall₂ Carries code expansions →
      ∀ (place : Nat) x t, (layOut prologue expansions)[place]? = some x →
        x.jumpTarget? = some t → prologue.length ≤ t.toNat) ∧
    ¬ ∀ (options : Options) (names : NameTable) (code : List Instr),
      code.length < UInt32.size / 2 →
      let names := names.addAll (code.filterMap (guardedOwner? options))
      ∀ (place : Nat) check, (relocate [] (withGuard options names) code)[place]? = some check →
        check.isGuard = true →
        ∃ instr, (relocate [] (withGuard options names) code)[place + 1]? = some instr ∧
          Guards options names check instr := by
  have alone (instr : Instr) : List.Forall₂ Carries [instr] [[instr]] :=
    (EnginePass.check 0 0).carries_all [instr]
  refine ⟨fun keeps => ?_, fun outside => ?_, fun checked => ?_⟩
  · -- The code jumps to itself, but its place is no number of 32 bits.
    obtain ⟨prologue, long⟩ : ∃ prologue : List Instr, prologue.length = UInt32.size :=
      ⟨List.replicate UInt32.size .nop, List.length_replicate⟩
    have flow := keeps prologue [.jump 0] [[.jump 0]] (by decide) (alone _)
    obtain ⟨t, -, far⟩ := flow.moved 0 [.jump 0] 0 (.jump 0) 0 rfl rfl rfl
    have start : startOf prologue [[.jump 0]] 0 = UInt32.size := long
    rw [if_pos (show (0 : UInt32).toNat < [Instr.jump 0].length by decide),
      show (0 : UInt32).toNat = 0 from rfl, start] at far
    exact absurd t.toNat_lt (Nat.not_lt.2 (Nat.le_of_eq far.symm))
  · -- A jump in the prologue is no jump of an expansion and is left as it is.
    have inside := outside [.jump 0] [.nop] [[.nop]] (by decide) (alone _) 0 (.jump 0) 0 rfl rfl
    exact absurd inside (by decide)
  · let code : List Instr :=
      [.invokeCheck 0, .invoke .static ⟨"app.T", "f", ⟨[], .void⟩⟩, .ret]
    obtain ⟨instr, next, guards⟩ := checked {} {} code (by decide) 0 (.invokeCheck 0) rfl rfl
    have another : (relocate [] (withGuard {} (({} : NameTable).addAll
        (code.filterMap (guardedOwner? {})))) code)[1]? = some (.invokeCheck 0) := by decide
    -- What follows the first guard is a guard, which uses no member.
    rw [another] at next
    cases next
    cases guards

end LiveUpdate
