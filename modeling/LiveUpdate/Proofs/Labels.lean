import LiveUpdate.Instruction.Assembler
import Mathlib.Data.List.Induction
import Mathlib.Data.List.Nodup

/-!
# Labels in assembled code

Whatever is done to code under assembly, in whatever order, the finished code has the
instructions in the order in which they were added.  A jump to a label goes to the number of
instructions that stood before the mark of the label, whether the mark comes before the jump or
after it; an instruction that was added as it is keeps its target, even if it jumps.  The code
can be finished exactly if no label is marked twice and every label that a jump names is marked,
and otherwise the error names the first label that is at fault.
-/

set_option autoImplicit false

namespace LiveUpdate.Assembler

/-- What can be done to code under assembly. -/
inductive Directive
  | defineLabel
  | mark (label : Nat)
  | jump (label : Nat)
  /-- Jump to a label when the truth value on top of the stack is `cond`. -/
  | jumpIf (cond : Bool) (label : Nat)
  | emit (instr : Instr)
deriving DecidableEq

/-- The code under assembly after one directive. -/
def obey (a : Assembler) : Directive → Assembler
  | .defineLabel => a.defineLabel.2
  | .mark label => a.mark label
  | .jump label => a.emitJump (.jump 0) label
  | .jumpIf cond label => a.emitJump (.jumpIf cond 0) label
  | .emit instr => a.emit instr

/-- The code under assembly after some directives, from the beginning. -/
def assemble (directives : List Directive) : Assembler := directives.foldl obey {}

namespace Directive

/-- The label that a directive marks. -/
def marked? : Directive → Option Nat
  | mark label => some label
  | _ => none

/-- The label that a directive jumps to. -/
def named? : Directive → Option Nat
  | jump label | jumpIf _ label => some label
  | _ => none

/-- The instruction that a directive adds, when labels have these places. -/
def instr? (place : Nat → UInt32) : Directive → Option Instr
  | jump label => some (.jump (place label))
  | jumpIf cond label => some (.jumpIf cond (place label))
  | emit instr => some instr
  | _ => none

end Directive

section Spec

variable (directives : List Directive)

/-- The labels that directives mark, in order. -/
def marked : List Nat := directives.filterMap Directive.marked?

/-- The labels that directives jump to, in order. -/
def named : List Nat := directives.filterMap Directive.named?

/-- The number of instructions that directives add. -/
def added : Nat := (directives.filterMap (Directive.instr? fun _ => 0)).length

/-- The places of labels are the numbers of instructions in front of their marks, in the 32 bits
that jumps have for them. -/
def Locates (place : Nat → UInt32) : Prop :=
  ∀ before label after, directives = before ++ .mark label :: after →
    place label = UInt32.ofNat (added before)

/-- Some code is what directives add, with all labels replaced by their places. -/
def Describes (code : List Instr) : Prop :=
  ∃ place, Locates directives place ∧ code = directives.filterMap (Directive.instr? place)

/-- A label is the first one that is marked again. -/
def FirstRepeated (label : Nat) : Prop :=
  ∃ before after, directives = before ++ .mark label :: after ∧
    (marked before).Nodup ∧ label ∈ marked before

/-- A label is the first one that is jumped to and marked nowhere. -/
def FirstUnmarked (label : Nat) : Prop :=
  ∃ before directive after, directives = before ++ directive :: after ∧
    directive.named? = some label ∧ label ∉ marked directives ∧
      ∀ other ∈ named before, other ∈ marked directives

end Spec

/-! ### The code under assembly -/

section State

variable {directives : List Directive} {label : Nat}

theorem assemble_snoc (directives : List Directive) (d : Directive) :
    assemble (directives ++ [d]) = (assemble directives).obey d := by
  simp [assemble]

theorem marked_append (before after : List Directive) :
    marked (before ++ after) = marked before ++ marked after :=
  List.filterMap_append

theorem code_assemble (directives : List Directive) :
    (assemble directives).code = directives.filterMap (Directive.instr? fun _ => 0) := by
  induction directives using List.reverseRecOn with
  | nil => rfl
  | append_singleton directives d ih =>
    rw [assemble_snoc, List.filterMap_append, ← ih]
    cases d with
    | defineLabel | mark => simp [obey, defineLabel, mark, Directive.instr?]
    | jump | jumpIf | emit => simp [obey, emitJump, emit, Directive.instr?]

theorem index_assemble (directives : List Directive) :
    (assemble directives).index = UInt32.ofNat (added directives) := by
  unfold index added
  rw [code_assemble]

/-- Only a mark gives a label a place, namely that of the next instruction. -/
theorem placeOf?_obey (a : Assembler) (d : Directive) (label : Nat) :
    (a.obey d).placeOf? label = if d.marked? = some label then some a.index
      else a.placeOf? label := by
  cases d with
  | mark other =>
    by_cases same : label = other
    · simp [obey, mark, placeOf?, Directive.marked?, same]
    · have different : ¬ other = label := fun h => same h.symm
      simp [obey, mark, placeOf?, Directive.marked?, different, List.lookup_cons,
        beq_false_of_ne same]
  | _ => rfl

/-- The labels with places are those that are marked. -/
theorem isSome_placeOf?_assemble (directives : List Directive) (label : Nat) :
    ((assemble directives).placeOf? label).isSome ↔ label ∈ marked directives := by
  induction directives using List.reverseRecOn with
  | nil => simp [assemble, placeOf?, marked]
  | append_singleton directives d ih =>
    rw [assemble_snoc, placeOf?_obey, marked_append, List.mem_append, ← ih]
    have last : label ∈ marked [d] ↔ d.marked? = some label := by
      simp [marked, List.mem_filterMap]
    rw [last]
    split
    next marks => simp [marks]
    next other => simp [other]

/-- A label that is not marked again stays where it is. -/
theorem placeOf?_assemble_of_mark (before after : List Directive)
    (once : label ∉ marked after) :
    (assemble (before ++ .mark label :: after)).placeOf? label =
      some (UInt32.ofNat (added before)) := by
  induction after using List.reverseRecOn with
  | nil =>
    rw [assemble_snoc, placeOf?_obey, ← index_assemble]
    exact if_pos rfl
  | append_singleton after d ih =>
    rw [marked_append, List.mem_append, not_or] at once
    have other : d.marked? ≠ some label := by
      intro marks
      exact once.2 (by simp [marked, marks])
    rw [← List.cons_append, ← List.append_assoc, assemble_snoc, placeOf?_obey, if_neg other]
    exact ih once.1

/-- As long as no label is marked twice, labels have the places of their marks. -/
theorem locates_assemble (once : (marked directives).Nodup) :
    Locates directives fun label => ((assemble directives).placeOf? label).getD 0 := by
  intro before label after split
  subst split
  have apart : label ∉ marked after := by
    rw [marked_append] at once
    have tail := (List.nodup_append.1 once).2.1
    exact (List.nodup_cons.1 tail).1
  simp only [placeOf?_assemble_of_mark before after apart, Option.getD_some]

/-! ### Marks -/

/-- A label is reported when it is marked again, unless one has been before. -/
theorem duplicate_snoc (directives : List Directive) (d : Directive) :
    (assemble (directives ++ [d])).duplicate = (assemble directives).duplicate.or
      (d.marked?.filter fun label => decide (label ∈ marked directives)) := by
  rw [assemble_snoc]
  cases d with
  | mark label =>
    have known := isSome_placeOf?_assemble directives label
    have reported : (if ((assemble directives).placeOf? label).isSome then some label else none) =
        (some label).filter fun label => decide (label ∈ marked directives) := by
      simp only [known, Option.filter_some, decide_eq_true_eq]
    have obeyed : ((assemble directives).obey (.mark label)).duplicate =
        ((assemble directives).duplicate <|>
          if ((assemble directives).placeOf? label).isSome then some label else none) := rfl
    rw [obeyed, reported, Option.orElse_eq_orElse, Option.orElse_eq_or]
    rfl
  | _ => exact (Option.or_none).symm

theorem marked_snoc (directives : List Directive) (d : Directive) :
    marked (directives ++ [d]) = marked directives ++ d.marked?.toList := by
  rw [marked_append]
  cases marks : d.marked? <;> simp [marked, marks]

/-- No label is reported exactly if none is marked twice. -/
theorem duplicate_eq_none (directives : List Directive) :
    (assemble directives).duplicate = none ↔ (marked directives).Nodup := by
  induction directives using List.reverseRecOn with
  | nil => simp [assemble, marked]
  | append_singleton directives d ih =>
    rw [duplicate_snoc, marked_snoc, Option.or_eq_none_iff, ih]
    cases marks : d.marked? with
    | none => simp
    | some label =>
      rw [Option.toList_some, ← List.concat_eq_append, List.nodup_concat]
      simp [and_comm]

/-- The first repetition in a longer list is the one before, or it is the last directive. -/
theorem firstRepeated_snoc (d : Directive) :
    FirstRepeated (directives ++ [d]) label ↔ FirstRepeated directives label ∨
      (marked directives).Nodup ∧ d.marked? = some label ∧ label ∈ marked directives := by
  constructor
  · rintro ⟨before, after, split, once, again⟩
    rcases List.eq_nil_or_concat after with rfl | ⟨after, last, rfl⟩
    · obtain ⟨rfl, same⟩ := List.append_inj' split rfl
      cases same
      exact .inr ⟨once, rfl, again⟩
    · rw [List.concat_eq_append, ← List.cons_append, ← List.append_assoc] at split
      obtain ⟨rfl, -⟩ := List.append_inj' split rfl
      exact .inl ⟨before, after, rfl, once, again⟩
  · rintro (⟨before, after, rfl, once, again⟩ | ⟨once, marks, again⟩)
    · exact ⟨before, after ++ [d], by simp, once, again⟩
    · cases d with
      | mark other =>
        cases marks
        exact ⟨directives, [], rfl, once, again⟩
      | _ => cases marks

/-- The label that is reported is the first one that is marked again. -/
theorem duplicate_eq_some (directives : List Directive) (label : Nat) :
    (assemble directives).duplicate = some label ↔ FirstRepeated directives label := by
  induction directives using List.reverseRecOn with
  | nil =>
    constructor
    · intro reported
      cases reported
    · rintro ⟨before, after, split, -⟩
      cases before <;> cases split
  | append_singleton directives d ih =>
    rw [duplicate_snoc, firstRepeated_snoc, ← ih, ← duplicate_eq_none]
    cases (assemble directives).duplicate with
    | none => simp [Option.filter_eq_some_iff]
    | some other => simp

/-! ### Jumps -/

/-- The code with the targets of some jumps, of which each is a place and a label. -/
def patch (place : Nat → UInt32) (jumps : List (Nat × Nat)) (code : List Instr) : List Instr :=
  jumps.foldl (fun code jump => code.modify jump.1 (·.retarget (place jump.2))) code

theorem modify_append_left {α : Type} (f : α → α) (xs ys : List α) {i : Nat}
    (inside : i < xs.length) : (xs ++ ys).modify i f = xs.modify i f ++ ys := by
  induction xs generalizing i with
  | nil => cases inside
  | cons x xs ih =>
    cases i with
    | zero => rfl
    | succ i =>
      rw [List.cons_append, List.modify_succ_cons, List.modify_succ_cons, List.cons_append,
        ih (Nat.lt_of_succ_lt_succ inside)]

theorem length_patch (place : Nat → UInt32) (jumps : List (Nat × Nat)) (code : List Instr) :
    (patch place jumps code).length = code.length := by
  induction jumps generalizing code with
  | nil => rfl
  | cons jump rest ih =>
    have tail := ih (code.modify jump.1 (·.retarget (place jump.2)))
    rw [List.length_modify] at tail
    exact tail

/-- Jumps in the front of the code leave the rest alone. -/
theorem patch_append (place : Nat → UInt32) (jumps : List (Nat × Nat)) (code rest : List Instr)
    (inside : ∀ jump ∈ jumps, jump.1 < code.length) :
    patch place jumps (code ++ rest) = patch place jumps code ++ rest := by
  induction jumps generalizing code with
  | nil => rfl
  | cons jump jumps ih =>
    have first := inside jump List.mem_cons_self
    have others : ∀ other ∈ jumps,
        other.1 < (code.modify jump.1 (·.retarget (place jump.2))).length := by
      intro other mem
      rw [List.length_modify]
      exact inside other (List.mem_cons_of_mem _ mem)
    have tail := ih _ others
    rw [← modify_append_left _ code rest first] at tail
    exact tail

/-- A directive that jumps notes where the jump stands; no other directive does. -/
theorem jumps_obey (a : Assembler) (d : Directive) :
    (a.obey d).jumps = a.jumps ++ (d.named?.map fun label => (a.code.length, label)).toList := by
  cases d with
  | jump | jumpIf => rfl
  | _ => exact (List.append_nil _).symm

/-- The jumps are those of the directives, and each of them stands in the code. -/
theorem jumps_assemble (directives : List Directive) :
    (assemble directives).jumps.map Prod.snd = named directives ∧
      ∀ jump ∈ (assemble directives).jumps, jump.1 < (assemble directives).code.length := by
  induction directives using List.reverseRecOn with
  | nil => simp [assemble, named]
  | append_singleton directives d ih =>
    obtain ⟨names, inside⟩ := ih
    have longer : (assemble directives).code.length ≤
        (assemble (directives ++ [d])).code.length := by
      rw [code_assemble, code_assemble, List.filterMap_append, List.length_append]
      exact Nat.le_add_right _ _
    rw [assemble_snoc] at longer ⊢
    rw [jumps_obey]
    constructor
    · rw [List.map_append, names]
      cases d <;> simp [named, Directive.named?]
    · intro jump mem
      rcases List.mem_append.1 mem with before | last
      · exact Nat.lt_of_lt_of_le (inside jump before) longer
      · cases d with
        | jump | jumpIf =>
          simp only [Directive.named?, Option.map_some, Option.toList_some,
            List.mem_singleton] at last
          subst last
          simp [obey, emitJump, emit]
        | _ => simp [Directive.named?] at last

theorem modify_length_snoc {α : Type} (f : α → α) (xs : List α) (x : α) :
    (xs ++ [x]).modify xs.length f = xs ++ [f x] := by
  induction xs with
  | nil => rfl
  | cons y xs ih =>
    rw [List.cons_append, List.length_cons, List.modify_succ_cons, ih, List.cons_append]

/-- A jump that is added gets the place of its label. -/
theorem patch_emitJump (place : Nat → UInt32) (a : Assembler) (instr : Instr) (label : Nat)
    (inside : ∀ jump ∈ a.jumps, jump.1 < a.code.length) :
    patch place (a.emitJump instr label).jumps (a.emitJump instr label).code =
      patch place a.jumps a.code ++ [instr.retarget (place label)] := by
  show patch place (a.jumps ++ [(a.code.length, label)]) (a.code ++ [instr]) = _
  have first : patch place (a.jumps ++ [(a.code.length, label)]) (a.code ++ [instr]) =
      (patch place a.jumps (a.code ++ [instr])).modify a.code.length
        (·.retarget (place label)) := by
    simp [patch]
  rw [first, patch_append place _ _ _ inside, ← length_patch place a.jumps a.code]
  exact modify_length_snoc _ _ _

/-- With the targets of all jumps filled in, the code is what the directives add. -/
theorem patch_assemble (place : Nat → UInt32) (directives : List Directive) :
    patch place (assemble directives).jumps (assemble directives).code =
      directives.filterMap (Directive.instr? place) := by
  induction directives using List.reverseRecOn with
  | nil => rfl
  | append_singleton directives d ih =>
    have inside := (jumps_assemble directives).2
    rw [assemble_snoc, List.filterMap_append, ← ih]
    cases d with
    | defineLabel | mark => exact (List.append_nil _).symm
    | emit instr => exact patch_append place _ _ [instr] inside
    | jump label => exact patch_emitJump place _ (.jump 0) label inside
    | jumpIf cond label => exact patch_emitJump place _ (.jumpIf cond 0) label inside

/-- The targets are filled in unless some label has no place; the first such label is
reported. -/
theorem resolve_eq (a : Assembler) (jumps : List (Nat × Nat)) (code : List Instr) :
    a.resolve jumps code =
      match (jumps.map Prod.snd).find? fun label => (a.placeOf? label).isNone with
      | some label => .error (.unmarkedLabel label)
      | none => .ok (patch (fun label => (a.placeOf? label).getD 0) jumps code) := by
  induction jumps generalizing code with
  | nil => rfl
  | cons jump rest ih =>
    obtain ⟨at_, label⟩ := jump
    unfold resolve
    cases place : a.placeOf? label with
    | none => simp [place]
    | some target => simp [place, ih, patch]

/-- The first label without a place among those that are jumped to. -/
theorem find?_named_eq_some (directives : List Directive) (label : Nat) :
    ((named directives).find? fun label => ((assemble directives).placeOf? label).isNone) =
      some label ↔ FirstUnmarked directives label := by
  have unplaced (label : Nat) : ((assemble directives).placeOf? label).isNone = true ↔
      label ∉ marked directives := by
    rw [← isSome_placeOf?_assemble, Option.isNone_iff_eq_none, Option.not_isSome_iff_eq_none]
  have placed (label : Nat) : (!((assemble directives).placeOf? label).isNone) = true ↔
      label ∈ marked directives := by
    rw [← isSome_placeOf?_assemble, Option.not_isNone]
  rw [List.find?_eq_some_iff_append]
  simp only [unplaced, placed]
  constructor
  · rintro ⟨missing, front, back, split, known⟩
    obtain ⟨before, rest, rfl, rfl, found⟩ := List.filterMap_eq_append_iff.1 split
    obtain ⟨quiet, d, after, rfl, silent, names, rfl⟩ := List.filterMap_eq_cons_iff.1 found
    refine ⟨before ++ quiet, d, after, by simp, names, missing, ?_⟩
    intro other mem
    have nothing : quiet.filterMap Directive.named? = [] := List.filterMap_eq_nil_iff.2 silent
    unfold named at mem
    rw [List.filterMap_append, nothing, List.append_nil] at mem
    exact known other mem
  · rintro ⟨before, d, after, rfl, names, missing, known⟩
    refine ⟨missing, named before, named after, ?_, known⟩
    unfold named
    rw [List.filterMap_append, List.filterMap_cons_some names]

/-- No label is without a place if all that are jumped to are marked. -/
theorem find?_named_eq_none (directives : List Directive) :
    ((named directives).find? fun label => ((assemble directives).placeOf? label).isNone) =
      none ↔ ∀ label ∈ named directives, label ∈ marked directives := by
  rw [List.find?_eq_none]
  refine forall₂_congr fun label _ => ?_
  rw [← isSome_placeOf?_assemble, Option.isNone_iff_eq_none, Option.isSome_iff_ne_none]

end State

/-! ### The finished code -/

section Finish

variable (directives : List Directive)

/-- What the finished code is, when all labels are as they should be. -/
theorem finish_assemble :
    (assemble directives).finish =
      match (assemble directives).duplicate with
      | some label => .error (.duplicateLabel label)
      | none =>
        match (named directives).find? fun label =>
          ((assemble directives).placeOf? label).isNone with
        | some label => .error (.unmarkedLabel label)
        | none => .ok (directives.filterMap (Directive.instr? fun label =>
            ((assemble directives).placeOf? label).getD 0)) := by
  have resolved := (assemble directives).resolve_eq (assemble directives).jumps
    (assemble directives).code
  rw [(jumps_assemble directives).1, patch_assemble] at resolved
  unfold finish
  cases (assemble directives).duplicate with
  | some label => rfl
  | none => exact resolved

variable {directives}

theorem exists_split_of_marked {label : Nat} (mem : label ∈ marked directives) :
    ∃ before after, directives = before ++ .mark label :: after := by
  obtain ⟨d, mem, marks⟩ := List.mem_filterMap.1 mem
  obtain ⟨before, after, rfl⟩ := List.append_of_mem mem
  cases d with
  | mark other =>
    cases marks
    exact ⟨before, after, rfl⟩
  | _ => cases marks

/-- If all labels that are jumped to are marked, their places say what is added. -/
theorem Locates.filterMap_eq {place place' : Nat → UInt32}
    (all : ∀ label ∈ named directives, label ∈ marked directives)
    (locates : Locates directives place) (locates' : Locates directives place') :
    directives.filterMap (Directive.instr? place) =
      directives.filterMap (Directive.instr? place') := by
  have agree {label : Nat} (mem : label ∈ named directives) : place label = place' label := by
    obtain ⟨before, after, split⟩ := exists_split_of_marked (all label mem)
    rw [locates before label after split, locates' before label after split]
  refine List.filterMap_congr fun d mem => ?_
  cases d with
  | jump label | jumpIf _ label =>
    have names : label ∈ named directives := List.mem_filterMap.2 ⟨_, mem, rfl⟩
    simp only [Directive.instr?, agree names]
  | _ => rfl

/-- As long as labels are as they should be, the directives describe one code. -/
theorem describes_iff (once : (marked directives).Nodup)
    (all : ∀ label ∈ named directives, label ∈ marked directives) (code : List Instr) :
    Describes directives code ↔ directives.filterMap (Directive.instr? fun label =>
      ((assemble directives).placeOf? label).getD 0) = code := by
  have locates := locates_assemble once
  constructor
  · rintro ⟨place, located, rfl⟩
    exact locates.filterMap_eq all located
  · rintro rfl
    exact ⟨_, locates, rfl⟩

variable (directives)

/-- The code can be finished exactly if no label is marked twice and every label that is jumped
to is marked.  Then it is what the directives add, in order: every jump to a label is of its kind
and goes to the number of instructions in front of the mark, and all else is as it was added.
Otherwise the error names the first label that is marked again, or if there is none, the first one
that is jumped to and marked nowhere. -/
theorem labels_resolved :
    ((∃ code, (assemble directives).finish = .ok code) ↔ (marked directives).Nodup ∧
      ∀ label ∈ named directives, label ∈ marked directives) ∧
    (∀ code, (assemble directives).finish = .ok code ↔ (marked directives).Nodup ∧
      (∀ label ∈ named directives, label ∈ marked directives) ∧ Describes directives code) ∧
    (∀ label, (assemble directives).finish = .error (.duplicateLabel label) ↔
      FirstRepeated directives label) ∧
    ∀ label, (assemble directives).finish = .error (.unmarkedLabel label) ↔
      (marked directives).Nodup ∧ FirstUnmarked directives label := by
  have once := duplicate_eq_none directives
  have all := find?_named_eq_none directives
  have repeated := duplicate_eq_some directives
  have unmarked := find?_named_eq_some directives
  rw [finish_assemble]
  cases duplicate : (assemble directives).duplicate with
  | some first =>
    have again : ¬ (marked directives).Nodup := by simp [← once, duplicate]
    simp [again, ← repeated, duplicate]
  | none =>
    have apart : (marked directives).Nodup := once.1 duplicate
    cases missing : (named directives).find? fun label =>
      ((assemble directives).placeOf? label).isNone with
    | some first =>
      have open_ : ¬ ∀ label ∈ named directives, label ∈ marked directives := by
        rw [← all, missing]
        simp
      simp only [apart, open_, ← repeated, ← unmarked, duplicate, missing]
      simp
    | none =>
      have closed := all.1 missing
      refine ⟨⟨fun _ => ⟨apart, closed⟩, fun _ => ⟨_, rfl⟩⟩, fun code => ?_, fun label => ?_,
        fun label => ?_⟩
      · rw [describes_iff apart closed, Except.ok.injEq]
        exact ⟨fun same => ⟨apart, closed, same⟩, fun described => described.2.2⟩
      · rw [← repeated, duplicate]
        simp
      · rw [← unmarked, missing]
        simp

example : (assemble [.defineLabel, .jumpIf false 0, .emit (.jump 7), .mark 0, .jump 0]).finish =
    .ok [.jumpIf false 2, .jump 7, .jump 2] := by decide

end Finish

end LiveUpdate.Assembler
