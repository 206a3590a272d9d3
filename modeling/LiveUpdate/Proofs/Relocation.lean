import LiveUpdate.Instrument.Relocate

/-!
# Laws of relocation

Where the expansion of an instruction stands in relocated code.  Only jumps are changed by
being moved.
-/

set_option autoImplicit false

namespace LiveUpdate

/-- An instruction that is no jump is the same everywhere. -/
theorem relocateJump_of_not_jump {places : List Nat} {finish : Nat} {instr : Instr}
    (plain : instr.jumpTarget? = none) : relocateJump places finish instr = instr := by
  unfold relocateJump
  rw [plain]

/-- A jump stays a jump, and anything else stays as it is. -/
theorem eq_of_relocateJump {places : List Nat} {finish : Nat} {x instr : Instr}
    (moved : relocateJump places finish x = instr) (plain : instr.jumpTarget? = none) :
    x = instr := by
  cases x with
  | jump t | jumpIf cond t =>
    subst moved
    cases plain
  | _ => exact moved

/-! ### Expansions behind a prologue -/

section LayOut

/-- The place where an expansion begins.  All numbers that no expansion has are at the end. -/
def startOf (prologue : List Instr) (expansions : List (List Instr)) (index : Nat) : Nat :=
  prologue.length + (expansions.take index).flatten.length

/-- The list of places says where expansions begin. -/
theorem getD_expansionPlaces (expansions : List (List Instr)) (start index : Nat) :
    (expansionPlaces start expansions).getD index (start + expansions.flatten.length) =
      start + (expansions.take index).flatten.length := by
  induction expansions generalizing start index with
  | nil => cases index <;> rfl
  | cons expansion rest ih =>
    cases index with
    | zero => rfl
    | succ index =>
      have next := ih (start + expansion.length) index
      rw [List.take_succ_cons, List.flatten_cons, List.flatten_cons, List.length_append,
        List.length_append, ← Nat.add_assoc, ← Nat.add_assoc, ← next]
      rfl

variable (prologue : List Instr) (expansions : List (List Instr)) {index : Nat}
  {expansion : List Instr}

theorem length_layOut :
    (layOut prologue expansions).length = prologue.length + expansions.flatten.length := by
  unfold layOut
  rw [List.length_append, List.length_map]

/-- Behind the last expansion is the end. -/
theorem startOf_of_length_le (beyond : expansions.length ≤ index) :
    startOf prologue expansions index = (layOut prologue expansions).length := by
  unfold startOf
  rw [List.take_of_length_le beyond, length_layOut]

/-- The next expansion begins behind the one before it. -/
theorem startOf_succ (here : expansions[index]? = some expansion) :
    startOf prologue expansions (index + 1) =
      startOf prologue expansions index + expansion.length := by
  obtain ⟨lt, rfl⟩ := List.getElem?_eq_some_iff.1 here
  unfold startOf
  rw [List.take_succ_eq_append_getElem lt, List.flatten_append, List.length_append,
    List.flatten_singleton]
  omega

/-- What belongs to an expansion stands behind the expansions before it, with its jumps
adapted. -/
theorem getElem?_layOut (here : expansions[index]? = some expansion) {place : Nat}
    {expanded : Instr} (there : expansion[place]? = some expanded) :
    (layOut prologue expansions)[startOf prologue expansions index + place]? =
      some (relocateJump (expansionPlaces prologue.length expansions)
        (prologue.length + expansions.flatten.length) expanded) := by
  obtain ⟨lt, rfl⟩ := List.getElem?_eq_some_iff.1 here
  have split : expansions.flatten = (expansions.take index).flatten ++
      (expansions[index] ++ (expansions.drop (index + 1)).flatten) := by
    have cut : expansions = expansions.take index ++ expansions[index] ::
        expansions.drop (index + 1) := by
      rw [← List.drop_eq_getElem_cons lt, List.take_append_drop]
    rw [← List.flatten_cons, ← List.flatten_append, ← cut]
  have inBody : expansions.flatten[(expansions.take index).flatten.length + place]? =
      some expanded := by
    obtain ⟨lt', -⟩ := List.getElem?_eq_some_iff.1 there
    rw [split, List.getElem?_append_right (Nat.le_add_right _ _), Nat.add_sub_cancel_left,
      List.getElem?_append_left lt', there]
  unfold layOut startOf
  dsimp only
  rw [List.getElem?_append_right (by omega), List.getElem?_map,
    show prologue.length + (expansions.take index).flatten.length + place - prologue.length =
      (expansions.take index).flatten.length + place by omega, inBody]
  rfl

end LayOut

/-! ### Code with every instruction expanded -/

/-- The place in relocated code where the expansion of an instruction begins. -/
def expansionStart (prologue : List Instr) (expand : Instr → List Instr) (code : List Instr)
    (index : Nat) : Nat :=
  prologue.length + ((code.take index).flatMap expand).length

variable (prologue : List Instr) (expand : Instr → List Instr) {code : List Instr} {index : Nat}
  {instr : Instr}

theorem relocate_eq (code : List Instr) : relocate prologue expand code =
    prologue ++ (code.flatMap expand).map
      (relocateJump (expansionPlaces prologue.length (code.map expand))
        (prologue.length + (code.flatMap expand).length)) := rfl

theorem expansionStart_eq (code : List Instr) (index : Nat) :
    expansionStart prologue expand code index = startOf prologue (code.map expand) index := by
  unfold expansionStart startOf
  rw [← List.map_take]
  rfl

/-- The expansion of an instruction that is there. -/
theorem getElem?_expansion (here : code[index]? = some instr) :
    (code.map expand)[index]? = some (expand instr) := by
  rw [List.getElem?_map, here, Option.map_some]

/-- What an instruction is expanded to stands behind the expansions of those before it, with its
jumps adapted. -/
theorem getElem?_relocate_expanded (here : code[index]? = some instr) {place : Nat}
    {expanded : Instr} (there : (expand instr)[place]? = some expanded) :
    (relocate prologue expand code)[expansionStart prologue expand code index + place]? =
      some (relocateJump (expansionPlaces prologue.length (code.map expand))
        (prologue.length + (code.flatMap expand).length) expanded) := by
  rw [expansionStart_eq]
  exact getElem?_layOut prologue _ (getElem?_expansion expand here) there

/-- The expansion of an instruction stands behind the expansions of those before it. -/
theorem getElem?_relocate (here : code[index]? = some instr) {place : Nat} {expanded : Instr}
    (there : (expand instr)[place]? = some expanded) (plain : expanded.jumpTarget? = none) :
    (relocate prologue expand code)[expansionStart prologue expand code index + place]? =
      some expanded := by
  rw [getElem?_relocate_expanded prologue expand here there, relocateJump_of_not_jump plain]

/-- The next expansion begins behind the one before it. -/
theorem expansionStart_succ (here : code[index]? = some instr) :
    expansionStart prologue expand code (index + 1) =
      expansionStart prologue expand code index + (expand instr).length := by
  rw [expansionStart_eq, expansionStart_eq]
  exact startOf_succ prologue _ (getElem?_expansion expand here)

/-- Behind the last instruction is the end of the relocated code. -/
theorem expansionStart_of_length_le (beyond : code.length ≤ index) :
    expansionStart prologue expand code index = (relocate prologue expand code).length := by
  rw [expansionStart_eq]
  exact startOf_of_length_le prologue _ (List.length_map expand ▸ beyond)

/-- The list of places says where the expansions of instructions begin. -/
theorem getD_expansionPlaces_map (code : List Instr) (start index : Nat) :
    (expansionPlaces start (code.map expand)).getD index
      (start + (code.flatMap expand).length) =
        start + ((code.take index).flatMap expand).length := by
  have places := getD_expansionPlaces (code.map expand) start index
  rw [← List.map_take] at places
  exact places

/-- Relocated code is at most so many times longer than the longest expansion. -/
theorem expansionStart_le {most : Nat} (short : ∀ instr, (expand instr).length ≤ most)
    (code : List Instr) (index : Nat) :
    expansionStart prologue expand code index ≤ prologue.length + most * code.length := by
  have bound (part : List Instr) : (part.flatMap expand).length ≤ most * part.length := by
    induction part with
    | nil => exact Nat.le_refl _
    | cons instr rest ih =>
      rw [List.flatMap_cons, List.length_append, List.length_cons, Nat.mul_succ]
      have first := short instr
      omega
  have part := bound (code.take index)
  have shorter : most * (code.take index).length ≤ most * code.length :=
    Nat.mul_le_mul_left _ (List.length_take_le' _ _)
  unfold expansionStart
  omega

end LiveUpdate
