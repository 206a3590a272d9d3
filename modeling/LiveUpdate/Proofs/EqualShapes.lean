import LiveUpdate.Proofs.Differences
import LiveUpdate.Proofs.UnitCoding
import LiveUpdate.Unit.Builder
import Mathlib.Data.List.Sort
import Mathlib.Data.String.Basic

/-!
# Units with equal shapes

The difference between the shapes of two verified units is empty exactly when the units
declare the same, up to the order of their interfaces, of their members and of the types
that a method may throw.  Interfaces and thrown types are compared as sorted lists, members
by their names and keys, and bodies by digests of their writings, so the digest must not
take two of the compared writings for each other.
-/

set_option autoImplicit false

namespace LiveUpdate

/-! ### Sorted lists -/

namespace MethodShape

variable {xs ys : List String}

theorem perm_sorted (xs : List String) : (sorted xs).Perm xs := List.mergeSort_perm _ _

theorem sortedLE_sorted (xs : List String) : (sorted xs).SortedLE := List.sortedLE_mergeSort

/-- Sorting forgets the order and nothing else. -/
theorem sorted_eq_sorted_iff : sorted xs = sorted ys ↔ xs.Perm ys := by
  constructor
  · intro same
    exact (perm_sorted xs).symm.trans (same ▸ perm_sorted ys)
  · intro perm
    exact List.Perm.eq_of_sortedLE (sortedLE_sorted xs) (sortedLE_sorted ys)
      ((perm_sorted xs).trans (perm.trans (perm_sorted ys).symm))

end MethodShape

section Repetitions

variable {α : Type}

/-- What was collected stays in front of what is still found. -/
theorem eraseRepsBy_loop_eq_append (r : α → α → Bool) (a : α) (xs collected : List α) :
    List.eraseRepsBy.loop r a xs collected =
      collected.reverse ++ List.eraseRepsBy.loop r a xs [] := by
  induction xs generalizing a collected with
  | nil => simp [List.eraseRepsBy.loop]
  | cons b xs ih =>
    unfold List.eraseRepsBy.loop
    split
    · exact ih a collected
    · rw [ih b (a :: collected), ih b [a], List.reverse_cons, List.append_assoc]
      rfl

theorem eraseReps_cons_cons [DecidableEq α] (a b : α) (xs : List α) :
    (a :: b :: xs).eraseReps =
      if a = b then (b :: xs).eraseReps else a :: (b :: xs).eraseReps := by
  have step : (a :: b :: xs).eraseReps = match a == b with
      | true => (a :: xs).eraseReps
      | false => List.eraseRepsBy.loop (fun x y => x == y) b xs [a] := rfl
  rw [step]
  by_cases same : a = b
  · rw [if_pos same, same, beq_self_eq_true]
  · rw [if_neg same, beq_false_of_ne same]
    exact eraseRepsBy_loop_eq_append _ b xs [a]

/-- Leaving out repetitions keeps every element. -/
theorem mem_eraseReps [DecidableEq α] {xs : List α} {x : α} : x ∈ xs.eraseReps ↔ x ∈ xs := by
  match xs with
  | [] => rfl
  | [a] => rfl
  | a :: b :: xs =>
    have behind : x ∈ (b :: xs).eraseReps ↔ x ∈ b :: xs := mem_eraseReps
    rw [eraseReps_cons_cons]
    split
    next same => rw [behind, same, List.mem_cons (a := x) (b := b) (l := b :: xs),
        or_iff_right_of_imp fun first => first ▸ List.mem_cons_self]
    · rw [List.mem_cons, behind, ← List.mem_cons]

/-- In a sorted list repetitions stand together, so none is left. -/
theorem pairwise_lt_eraseReps [LinearOrder α] {xs : List α} (ordered : xs.Pairwise (· ≤ ·)) :
    xs.eraseReps.Pairwise (· < ·) := by
  match xs with
  | [] => exact List.Pairwise.nil
  | [a] => exact List.pairwise_singleton _ _
  | a :: b :: xs =>
    obtain ⟨least, ordered⟩ := List.pairwise_cons.1 ordered
    have behind : (b :: xs).eraseReps.Pairwise (· < ·) := pairwise_lt_eraseReps ordered
    rw [eraseReps_cons_cons]
    split
    · exact behind
    next differ =>
      have less : a < b := lt_of_le_of_ne (least b List.mem_cons_self) differ
      refine List.pairwise_cons.2 ⟨fun x mem => ?_, behind⟩
      rcases List.mem_cons.1 (mem_eraseReps.1 mem) with rfl | mem
      · exact less
      · exact less.trans_le ((List.pairwise_cons.1 ordered).1 x mem)

end Repetitions

/-- Sorting and leaving out repetitions forgets order and repetitions and nothing else. -/
theorem eraseReps_sorted_eq_iff {xs ys : List String} :
    (MethodShape.sorted xs).eraseReps = (MethodShape.sorted ys).eraseReps ↔
      ∀ x, x ∈ xs ↔ x ∈ ys := by
  have kept (zs : List String) (x : String) : x ∈ (MethodShape.sorted zs).eraseReps ↔ x ∈ zs :=
    mem_eraseReps.trans (MethodShape.perm_sorted zs).mem_iff
  have strict (zs : List String) : (MethodShape.sorted zs).eraseReps.SortedLT :=
    (pairwise_lt_eraseReps (MethodShape.sortedLE_sorted zs).pairwise).sortedLT
  constructor
  · intro same x
    rw [← kept xs x, ← kept ys x, same]
  · intro members
    have perm : ((MethodShape.sorted xs).eraseReps).Perm (MethodShape.sorted ys).eraseReps :=
      (List.perm_ext_iff_of_nodup (strict xs).nodup (strict ys).nodup).2 fun x => by
        rw [kept xs x, kept ys x, members x]
    exact perm.eq_of_sortedLE (strict xs).sortedLE (strict ys).sortedLE

/-! ### Units that declare the same -/

namespace MethodDef

/-- Two declarations of a method that say the same: the types that may be thrown count as a
set, the number of local slots does not count. -/
structure Alike (m m' : MethodDef) : Prop where
  name : m.name = m'.name
  sig : m.sig = m'.sig
  modifiers : m.modifiers = m'.modifiers
  annotations : m.annotations = m'.annotations
  throws : ∀ t, t ∈ m.throws ↔ t ∈ m'.throws
  code : m.code = m'.code

theorem Alike.symm {m m' : MethodDef} (alike : m.Alike m') : m'.Alike m where
  name := alike.name.symm
  sig := alike.sig.symm
  modifiers := alike.modifiers.symm
  annotations := alike.annotations.symm
  throws t := (alike.throws t).symm
  code := alike.code.symm

end MethodDef

namespace TypeUnit

/-- The names of the constants of an enumeration, in their order. -/
def enumConstantNames (u : TypeUnit) : List String :=
  (u.fields.filter FieldDef.isEnumConstant).map FieldDef.name

/-- Two units that declare the same: interfaces and members in any order, the constants of
an enumeration in the same one. -/
structure Alike (u v : TypeUnit) : Prop where
  superName : u.superName = v.superName
  interfaces : u.interfaces.Perm v.interfaces
  modifiers : u.modifiers = v.modifiers
  annotations : u.annotations = v.annotations
  fields : ∀ f, f ∈ u.fields ↔ f ∈ v.fields
  enumConstants : u.enumConstantNames = v.enumConstantNames
  kept : ∀ m ∈ u.methods, ∃ m' ∈ v.methods, m.Alike m'
  declared : ∀ m' ∈ v.methods, ∃ m ∈ u.methods, m.Alike m'

theorem Alike.symm {u v : TypeUnit} (alike : u.Alike v) : v.Alike u where
  superName := alike.superName.symm
  interfaces := alike.interfaces.symm
  modifiers := alike.modifiers.symm
  annotations := alike.annotations.symm
  fields f := (alike.fields f).symm
  enumConstants := alike.enumConstants.symm
  kept m' mem := by
    obtain ⟨m, mem', alike'⟩ := alike.declared m' mem
    exact ⟨m, mem', alike'.symm⟩
  declared m mem := by
    obtain ⟨m', mem', alike'⟩ := alike.kept m mem
    exact ⟨m', mem', alike'.symm⟩

/-- The bodies of a unit can be written and read back: their signatures are well formed and
their strings have lengths that can be written.  What is written for a longer string may
also be written for several instructions. -/
def BodiesEncodable (u : TypeUnit) : Prop := ∀ m ∈ u.methods, ∀ i ∈ m.code, i.Encodable

/-- The bodies of every unit that was read can be written and read back. -/
theorem bodiesEncodable_of_decode {data : List UInt8} {u : TypeUnit}
    (decoded : decode data = .ok u) : u.BodiesEncodable :=
  fun m mem => ((encodable_of_decode decoded).2.1.methods.fits m mem).code.fits

/-- The digest does not take the writings of two bodies for each other that two units have
under one key. -/
def DigestsTell (u v : TypeUnit) : Prop :=
  ∀ m ∈ u.methods, ∀ m' ∈ v.methods, m.key = m'.key →
    Sha256.digest m.codeBytes = Sha256.digest m'.codeBytes → m.codeBytes = m'.codeBytes

theorem DigestsTell.symm {u v : TypeUnit} (tell : u.DigestsTell v) : v.DigestsTell u :=
  fun m' mem' m mem keyed same => (tell m mem m' mem' keyed.symm same.symm).symm

end TypeUnit

namespace MethodShape

variable {m m' : MethodDef}

/-- Bodies whose writings the digest tells apart have the same digest when they are the
same. -/
theorem codeDigest_ofDef_eq_iff (fits : ∀ i ∈ m.code, i.Encodable)
    (fits' : ∀ i ∈ m'.code, i.Encodable)
    (tells : Sha256.digest m.codeBytes = Sha256.digest m'.codeBytes →
      m.codeBytes = m'.codeBytes) :
    (ofDef m).codeDigest = (ofDef m').codeDigest ↔ m.code = m'.code := by
  constructor
  · intro same
    unfold ofDef at same
    dsimp only at same
    cases empty : m.code.isEmpty with
    | true =>
      cases empty' : m'.code.isEmpty with
      | true => rw [List.isEmpty_iff.1 empty, List.isEmpty_iff.1 empty']
      | false =>
        rw [empty, empty'] at same
        cases same
    | false =>
      cases empty' : m'.code.isEmpty with
      | true =>
        rw [empty, empty'] at same
        cases same
      | false =>
        rw [empty, empty'] at same
        exact Instr.eq_of_encodeAll_eq fits fits' (tells (Option.some.inj same))
  · intro same
    unfold ofDef MethodDef.codeBytes
    rw [same]

/-- Two methods have one shape when they are declared alike. -/
theorem ofDef_eq_iff (fits : ∀ i ∈ m.code, i.Encodable) (fits' : ∀ i ∈ m'.code, i.Encodable)
    (tells : m.key = m'.key → Sha256.digest m.codeBytes = Sha256.digest m'.codeBytes →
      m.codeBytes = m'.codeBytes) :
    ofDef m = ofDef m' ↔ m.Alike m' := by
  constructor
  · intro same
    have name : m.name = m'.name := congrArg MethodShape.name same
    have sig : m.sig = m'.sig := congrArg MethodShape.sig same
    have keyed : m.key = m'.key := by
      unfold MethodDef.key
      rw [name, sig]
    exact {
      name
      sig
      modifiers := congrArg MethodShape.modifiers same
      annotations := congrArg MethodShape.annotations same
      throws := eraseReps_sorted_eq_iff.1 (congrArg MethodShape.throws same)
      code := (codeDigest_ofDef_eq_iff fits fits' (tells keyed)).1
        (congrArg MethodShape.codeDigest same) }
  · intro alike
    have throws : (ofDef m).throws = (ofDef m').throws := eraseReps_sorted_eq_iff.2 alike.throws
    have digest : (ofDef m).codeDigest = (ofDef m').codeDigest := by
      unfold ofDef MethodDef.codeBytes
      rw [alike.code]
    have parts (n : MethodDef) : ofDef n =
        ⟨n.name, n.sig, n.modifiers, n.annotations, (ofDef n).throws, (ofDef n).codeDigest⟩ := rfl
    rw [parts m, parts m', alike.name, alike.sig, alike.modifiers, alike.annotations, throws,
      digest]

end MethodShape

namespace TypeShape

variable {u v : TypeUnit}

/-- Two units have the same shapes of methods when each declares what the other does. -/
theorem methods_ofUnit_iff (fits : u.BodiesEncodable) (fits' : v.BodiesEncodable)
    (tell : u.DigestsTell v) :
    (∀ m, m ∈ (ofUnit u).methods ↔ m ∈ (ofUnit v).methods) ↔
      (∀ m ∈ u.methods, ∃ m' ∈ v.methods, m.Alike m') ∧
        ∀ m' ∈ v.methods, ∃ m ∈ u.methods, m.Alike m' := by
  have shape (m : MethodDef) (mem : m ∈ u.methods) (m' : MethodDef) (mem' : m' ∈ v.methods) :
      MethodShape.ofDef m = MethodShape.ofDef m' ↔ m.Alike m' :=
    MethodShape.ofDef_eq_iff (fits m mem) (fits' m' mem') (tell m mem m' mem')
  constructor
  · intro same
    constructor
    · intro m mem
      obtain ⟨m', mem', eq⟩ := List.mem_map.1 ((same _).1 (List.mem_map_of_mem mem))
      exact ⟨m', mem', (shape m mem m' mem').1 eq.symm⟩
    · intro m' mem'
      obtain ⟨m, mem, eq⟩ := List.mem_map.1 ((same _).2 (List.mem_map_of_mem mem'))
      exact ⟨m, mem, (shape m mem m' mem').1 eq⟩
  · rintro ⟨kept, declared⟩ shape'
    constructor
    · intro listed
      obtain ⟨m, mem, rfl⟩ := List.mem_map.1 listed
      obtain ⟨m', mem', alike⟩ := kept m mem
      exact List.mem_map.2 ⟨m', mem', ((shape m mem m' mem').2 alike).symm⟩
    · intro listed
      obtain ⟨m', mem', rfl⟩ := List.mem_map.1 listed
      obtain ⟨m, mem, alike⟩ := declared m' mem'
      exact List.mem_map.2 ⟨m, mem, (shape m mem m' mem').2 alike⟩

/-- The difference of the shapes of two units says whether they declare the same. -/
theorem isEmpty_between_ofUnit_iff (verified : u.verify = .ok ()) (verified' : v.verify = .ok ())
    (fits : u.BodiesEncodable) (fits' : v.BodiesEncodable) (tell : u.DigestsTell v) :
    (ShapeDiff.between (ofUnit u) (ofUnit v)).isEmpty = true ↔ u.Alike v := by
  have interfaces : (ofUnit u).interfaces = (ofUnit v).interfaces ↔
      u.interfaces.Perm v.interfaces := MethodShape.sorted_eq_sorted_iff
  rw [ShapeDiff.isEmpty_between_iff (simple_ofUnit verified) (simple_ofUnit verified'),
    interfaces, methods_ofUnit_iff fits fits' tell]
  constructor
  · rintro ⟨superName, interfaces, modifiers, annotations, fields, enumConstants, kept, declared⟩
    exact { superName, interfaces, modifiers, annotations, fields, enumConstants, kept, declared }
  · intro alike
    exact ⟨alike.superName, alike.interfaces, alike.modifiers, alike.annotations, alike.fields,
      alike.enumConstants, alike.kept, alike.declared⟩

end TypeShape

namespace ShapeDiff

/-- The difference of the shapes of two verified units is empty exactly when they declare
the same, and so in whichever direction it is taken. -/
theorem isEmpty_between_iff_alike {u v : TypeUnit} {s s' : TypeShape}
    (verified : u.verify = .ok ()) (verified' : v.verify = .ok ())
    (extracted : TypeShape.extract u = .ok s) (extracted' : TypeShape.extract v = .ok s')
    (fits : u.BodiesEncodable) (fits' : v.BodiesEncodable) (tell : u.DigestsTell v) :
    ((between s s').isEmpty = true ↔ u.Alike v) ∧
      (between s' s).isEmpty = (between s s').isEmpty := by
  obtain rfl := TypeShape.eq_ofUnit extracted
  obtain rfl := TypeShape.eq_ofUnit extracted'
  have forth := TypeShape.isEmpty_between_ofUnit_iff verified verified' fits fits' tell
  have back := TypeShape.isEmpty_between_ofUnit_iff verified' verified fits' fits tell.symm
  refine ⟨forth, Bool.eq_iff_iff.2 ?_⟩
  rw [forth, back]
  exact ⟨TypeUnit.Alike.symm, TypeUnit.Alike.symm⟩

end ShapeDiff

/-! ### A type with its members in another order -/

namespace Reordered

def narrow : FieldDef := ⟨"narrow", .int, .privateBit, none, []⟩

def wide : FieldDef := ⟨"wide", .float, .publicBit, some "Box<T>", [⟨"Range", [("max", "9")]⟩]⟩

/-- A method with a body that answers a text. -/
def answering (text : String) (throws : List String) : MethodDef :=
  { MethodDef.make "answer" ⟨[], .ref "String"⟩ .publicBit [.constStr text, .retValue] with throws }

def silent : MethodDef := .make "silent" .void .publicBit [.ret]

/-- A unit with the interfaces, fields and methods in the order in which they are given. -/
def arranged (interfaces : List String) (fields : List FieldDef) (methods : List MethodDef) :
    TypeUnit :=
  { TypeUnit.named "app.T" with interfaces, fields, methods }

def early : TypeUnit :=
  arranged ["app.I", "app.J", "app.I"] [narrow, wide] [answering "a" ["app.E", "app.F"], silent]

def late : TypeUnit :=
  arranged ["app.J", "app.I", "app.I"] [wide, narrow]
    [silent, answering "a" ["app.F", "app.E", "app.F"]]

/-- The unit with another text in the same body. -/
def altered : TypeUnit :=
  arranged ["app.I", "app.J", "app.I"] [narrow, wide] [answering "b" ["app.E", "app.F"], silent]

theorem bodiesEncodable_arranged (interfaces : List String) (fields : List FieldDef)
    {methods : List MethodDef} {text : String} (short : ShortString text) {throws : List String}
    (only : ∀ m ∈ methods, m = answering text throws ∨ m = silent) :
    (arranged interfaces fields methods).BodiesEncodable := by
  intro m mem i mem'
  rcases only m mem with rfl | rfl
  · rcases List.mem_pair.1 mem' with rfl | rfl
    · exact short
    · trivial
  · obtain rfl := List.mem_singleton.1 mem'
    trivial

theorem alike : early.Alike late where
  superName := rfl
  interfaces := List.Perm.swap "app.J" "app.I" ["app.I"]
  modifiers := rfl
  annotations := rfl
  fields f := by
    show f ∈ [narrow, wide] ↔ f ∈ [wide, narrow]
    rw [List.mem_pair, List.mem_pair, or_comm]
  enumConstants := rfl
  kept m mem := by
    rcases List.mem_pair.1 mem with rfl | rfl
    · exact ⟨answering "a" ["app.F", "app.E", "app.F"], by decide, rfl, rfl, rfl, rfl,
        fun t => by simp [answering]; tauto, rfl⟩
    · exact ⟨silent, by decide, rfl, rfl, rfl, rfl, fun _ => .rfl, rfl⟩
  declared m mem := by
    rcases List.mem_pair.1 mem with rfl | rfl
    · exact ⟨silent, by decide, rfl, rfl, rfl, rfl, fun _ => .rfl, rfl⟩
    · exact ⟨answering "a" ["app.E", "app.F"], by decide, rfl, rfl, rfl, rfl,
        fun t => by simp [answering]; tauto, rfl⟩

theorem not_alike : ¬ early.Alike altered := by
  intro alike
  obtain ⟨m, mem, same⟩ := alike.kept (answering "a" ["app.E", "app.F"]) (by decide)
  rcases List.mem_pair.1 mem with rfl | rfl
  · exact absurd same.code (by decide)
  · exact absurd same.name (by decide)

end Reordered

open Reordered in
/-- Members in another order make no difference, and one other text in a body makes one. -/
theorem isEmpty_between_reordered :
    (ShapeDiff.between (.ofUnit early) (.ofUnit late)).isEmpty = true ∧
      (ShapeDiff.between (.ofUnit early) (.ofUnit altered)).isEmpty = false ∧
      (ShapeDiff.between (.ofUnit altered) (.ofUnit early)).isEmpty = false := by
  have fits : early.BodiesEncodable :=
    bodiesEncodable_arranged _ _ (by decide) fun m mem => List.mem_pair.1 mem
  have fits' : late.BodiesEncodable :=
    bodiesEncodable_arranged _ _ (by decide) fun m mem => (List.mem_pair.1 mem).symm
  have fits'' : altered.BodiesEncodable :=
    bodiesEncodable_arranged _ _ (by decide) fun m mem => List.mem_pair.1 mem
  have tell : early.DigestsTell late := by
    unfold TypeUnit.DigestsTell
    decide +kernel
  have tell' : early.DigestsTell altered := by
    unfold TypeUnit.DigestsTell
    decide +kernel
  have same := ShapeDiff.isEmpty_between_iff_alike (by rfl) (by rfl) rfl rfl fits fits' tell
  have differ := ShapeDiff.isEmpty_between_iff_alike (by rfl) (by rfl) rfl rfl fits fits'' tell'
  have unlike : (ShapeDiff.between (.ofUnit early) (.ofUnit altered)).isEmpty = false :=
    Bool.eq_false_iff.2 fun empty => not_alike (differ.1.1 empty)
  exact ⟨same.1.2 alike, unlike, differ.2.trans unlike⟩

end LiveUpdate
