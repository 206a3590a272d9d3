import LiveUpdate.Proofs.DerivedBodies
import LiveUpdate.Proofs.HostMembers

/-!
# Where the engine puts its instructions

In a class that the engine defines, an instruction of its own stands in few places: a check of
the entry in front of a body of a host class, a guard in front of the use that it guards, and a
privileged instruction in the executor of the type that it acts for.  A unit that is verified as
one that the engine did not write has none of them, and every way of deriving a body from such a
unit puts them in those places only.
-/

set_option autoImplicit false

namespace LiveUpdate

/-- An instruction of the engine is where the engine puts it: at a place of some code, in a class
that hosts a managed type or acts for one, when owners of members have these numbers. -/
inductive Inserted (names : NameTable) (managed standsFor : Option TypeId) (code : List Instr)
    (i : Nat) : Instr → Prop
  /-- A check of the entry begins the body and names the type that the class hosts. -/
  | entry {id : TypeId} {slot : UInt32} (first : i = 0) (hosts : managed = some id) :
      Inserted names managed standsFor code i (.entryCheck id slot)
  /-- A guard names the owner of the member that the next instruction uses. -/
  | call {id : TypeId} {kind : InvokeKind} {ref : MethodRef}
      (next : code[i + 1]? = some (.invoke kind ref)) (numbered : names.lookup ref.owner = some id) :
      Inserted names managed standsFor code i (.invokeCheck id)
  | field {id : TypeId} {access : FieldAccess} {ref : FieldRef}
      (next : code[i + 1]? = some (.access access ref)) (numbered : names.lookup ref.owner = some id) :
      Inserted names managed standsFor code i (.fieldCheck id)
  /-- An access without regard to modifiers names a field of the type that the class acts for. -/
  | access {id : TypeId} {access : FieldAccess} {ref : FieldRef} (acts : standsFor = some id)
      (numbered : names.lookup ref.owner = some id) :
      Inserted names managed standsFor code i (.liveAccess access id ref)
  | special {id : TypeId} {ref : MethodRef} (acts : standsFor = some id) :
      Inserted names managed standsFor code i (.liveSpecial id ref)
  | inherited {id : TypeId} {ref : MethodRef} (acts : standsFor = some id) :
      Inserted names managed standsFor code i (.liveSuper id ref)
  | constructor {id : TypeId} {ref : MethodRef} (acts : standsFor = some id) :
      Inserted names managed standsFor code i (.liveInit id ref)

/-- All instructions of the engine in some code are where the engine puts them. -/
def Genuine (names : NameTable) (managed standsFor : Option TypeId) (code : List Instr) : Prop :=
  ∀ i instr, code[i]? = some instr → instr.isEngineOnly = true →
    Inserted names managed standsFor code i instr

/-- No instruction of some code is one of the engine. -/
def IsPlain (code : List Instr) : Prop := ∀ instr ∈ code, instr.isEngineOnly = false

section Code

variable {names : NameTable} {managed standsFor : Option TypeId} {code : List Instr}

theorem IsPlain.genuine (plain : IsPlain code) : Genuine names managed standsFor code := by
  intro i instr here engine
  rw [plain instr (List.mem_of_getElem? here)] at engine
  cases engine

/-- Numbers are never taken back. -/
theorem Genuine.extends {later : NameTable} (genuine : Genuine names managed standsFor code)
    (extends_ : later.Extends names) : Genuine later managed standsFor code := by
  intro i instr here engine
  cases genuine i instr here engine with
  | entry first hosts => exact .entry first hosts
  | call next numbered => exact .call next (NameTable.lookup_of_extends extends_ numbered)
  | field next numbered => exact .field next (NameTable.lookup_of_extends extends_ numbered)
  | access acts numbered => exact .access acts (NameTable.lookup_of_extends extends_ numbered)
  | special acts => exact .special acts
  | inherited acts => exact .inherited acts
  | constructor acts => exact .constructor acts

/-- What is inserted apart from the beginning of a body depends on the next instruction only. -/
theorem Inserted.moved {code' : List Instr} {i j : Nat} {instr : Instr}
    (inserted : Inserted names none standsFor code i instr)
    (next : ∀ x, code[i + 1]? = some x → x.jumpTarget? = none → code'[j + 1]? = some x) :
    Inserted names managed standsFor code' j instr := by
  cases inserted with
  | entry first hosts => cases hosts
  | call here numbered => exact .call (next _ here rfl) numbered
  | field here numbered => exact .field (next _ here rfl) numbered
  | access acts numbered => exact .access acts numbered
  | special acts => exact .special acts
  | inherited acts => exact .inherited acts
  | constructor acts => exact .constructor acts

theorem Genuine.append {rest : List Instr} (genuine : Genuine names none standsFor code)
    (genuine' : Genuine names none standsFor rest) :
    Genuine names none standsFor (code ++ rest) := by
  intro i instr here engine
  rcases Nat.lt_or_ge i code.length with lt | ge
  · rw [List.getElem?_append_left lt] at here
    refine (genuine i instr here engine).moved fun x next _ => ?_
    obtain ⟨lt', -⟩ := List.getElem?_eq_some_iff.1 next
    rw [List.getElem?_append_left lt']
    exact next
  · rw [List.getElem?_append_right ge] at here
    refine (genuine' _ instr here engine).moved fun x next _ => ?_
    rw [List.getElem?_append_right (by omega), show i + 1 - code.length =
      i - code.length + 1 by omega]
    exact next

theorem genuine_flatMap {expand : Instr → List Instr}
    (each : ∀ instr ∈ code, Genuine names none standsFor (expand instr)) :
    Genuine names none standsFor (code.flatMap expand) := by
  induction code with
  | nil => exact fun i instr here => by cases here
  | cons instr rest ih =>
    exact (each instr List.mem_cons_self).append
      (ih fun x mem => each x (List.mem_cons_of_mem _ mem))

/-- Relocation moves jumps only. -/
theorem Genuine.relocateJumps (genuine : Genuine names none standsFor code) (places : List Nat)
    (finish : Nat) : Genuine names none standsFor (code.map (relocateJump places finish)) := by
  intro i instr here engine
  rw [List.getElem?_map] at here
  obtain ⟨x, there, moved⟩ := Option.map_eq_some_iff.1 here
  have plain : instr.jumpTarget? = none := by
    cases instr with
    | jump | jumpIf => cases engine
    | _ => rfl
  obtain rfl := eq_of_relocateJump moved plain
  refine (genuine i x there engine).moved fun next follows unmoved => ?_
  rw [List.getElem?_map, follows]
  exact congrArg some (relocateJump_of_not_jump unmoved)

theorem Genuine.relocate {expand : Instr → List Instr}
    (each : ∀ instr ∈ code, Genuine names none standsFor (expand instr)) :
    Genuine names none standsFor (relocate [] expand code) :=
  (genuine_flatMap each).relocateJumps _ _

/-- A check of the entry may stand in front of a body. -/
theorem Genuine.checked (genuine : Genuine names none standsFor code) (id : TypeId)
    (slot : UInt32) :
    Genuine names (some id) standsFor (LiveUpdate.relocate [.entryCheck id slot] (fun i => [i]) code) := by
  let check : List Instr := [.entryCheck id slot]
  let places := expansionPlaces check.length (code.map fun i => [i])
  have body : LiveUpdate.relocate check (fun i => [i]) code =
      .entryCheck id slot :: code.map (relocateJump places (check.length + code.length)) := by
    rw [relocate_eq, List.flatMap_singleton']
    rfl
  have moved := genuine.relocateJumps places (check.length + code.length)
  rw [body]
  intro i instr here engine
  cases i with
  | zero =>
    cases here
    exact .entry rfl rfl
  | succ i => exact (moved i instr here engine).moved fun _ next _ => next

end Code

/-! ### Units that the engine did not write -/

namespace TypeUnit

variable {u : TypeUnit}

/-- A unit without the engine's mark that is verified has none of the engine's instructions. -/
theorem plain_of_verify (verified : u.verify = .ok ()) (unmarked : u.isInstrumented = false)
    {m : MethodDef} (mem : m ∈ u.methods) : IsPlain m.code := by
  intro instr there
  cases abstract : m.modifiers.isAbstract with
  | true =>
    have empty := (isAbstract_iff_of_verify verified mem).1 abstract
    rw [List.isEmpty_iff.1 empty] at there
    cases there
  | false =>
    have passes := ((checkMethods_eq_ok (checkMethods_of_verify verified)).2 m mem).2
    unfold checkMethod at passes
    simp only [abstract, Bool.false_eq_true, if_false] at passes
    split at passes
    · cases passes
    unfold checkBody at passes
    dsimp only at passes
    split at passes
    · cases passes
    obtain ⟨done, instrs, -⟩ := Exec.bind_eq_ok.1 passes
    obtain ⟨i, passes⟩ := checkInstr_of_mem instrs there
    unfold checkInstr at passes
    rw [unmarked] at passes
    cases engine : instr.isEngineOnly with
    | false => rfl
    | true =>
      rw [engine] at passes
      cases passes

end TypeUnit

section Guards

variable {options : Options} {names : NameTable} {standsFor : Option TypeId} {instr : Instr}

/-- A guard in front of an instruction names the owner of what the instruction uses. -/
theorem genuine_withGuard (plain : instr.isEngineOnly = false)
    (numbered : ∀ owner, guardedOwner? options instr = some owner →
      (names.lookup owner).isSome) :
    Genuine names none standsFor (withGuard options names instr) := by
  unfold withGuard
  cases guarded : guardedOwner? options instr with
  | none =>
    refine IsPlain.genuine fun x mem => ?_
    rw [List.mem_singleton.1 mem]
    exact plain
  | some owner =>
    obtain ⟨id, known⟩ := Option.isSome_iff_exists.1 (numbered owner guarded)
    have owns : instr.owner? = some owner := (Option.filter_eq_some_iff.1 guarded).1
    dsimp only
    rw [known]
    intro i x here engine
    match i with
    | 0 =>
      cases here
      cases instr with
      | invoke kind ref =>
        cases owns
        exact .call rfl known
      | access access ref =>
        cases owns
        exact .field rfl known
      | _ => cases owns
    | 1 =>
      cases here
      rw [plain] at engine
      cases engine
    | _ + 2 => cases here

/-- The guarded form of plain code. -/
theorem IsPlain.genuine_guarded {code : List Instr} (plain : IsPlain code)
    (named : Engine.NamesOwners options names code) :
    Genuine names none standsFor (relocate [] (withGuard options names) code) :=
  Genuine.relocate fun instr mem => genuine_withGuard (plain instr mem) (named instr mem)

variable {ctx : ExecutorContext}

/-- In an executor an instruction becomes privileged, or it gets a guard. -/
theorem genuine_compileInstr (plain : instr.isEngineOnly = false)
    (own : names.lookup ctx.typeName = some ctx.typeId)
    (numbered : ∀ owner, ctx.guardedOwner? options instr = some owner →
      (names.lookup owner).isSome) :
    Genuine names none (some ctx.typeId) (ctx.compileInstr options names instr) := by
  unfold ExecutorContext.compileInstr
  cases privileged : ctx.privileged? instr with
  | none =>
    refine genuine_withGuard plain fun owner guarded => numbered owner ?_
    unfold ExecutorContext.guardedOwner?
    rw [privileged]
    exact guarded
  | some replaced =>
    have inserted (engine : replaced.isEngineOnly = true) :
        Inserted names none (some ctx.typeId) [replaced] 0 replaced := by
      cases instr with
      | access a f =>
        dsimp only [ExecutorContext.privileged?] at privileged
        split at privileged
        next same =>
          cases privileged
          exact .access rfl (same ▸ own)
        · cases privileged
      | invoke kind ref =>
        cases kind with
        | special =>
          cases privileged
          unfold ExecutorContext.specialCall at engine ⊢
          split at engine
          next same =>
            rw [if_pos same]
            exact .special rfl
          next other =>
            rw [if_neg other]
            split at engine
            next init =>
              rw [if_pos init]
              exact .constructor rfl
            next plainCall =>
              rw [if_neg plainCall]
              dsimp only at engine ⊢
              split at engine
              · cases engine
              next missing =>
                rw [if_neg missing]
                exact .inherited rfl
        | _ =>
          dsimp only [ExecutorContext.privileged?] at privileged
          split at privileged <;> cases privileged
          exact .special rfl
      | _ => cases privileged
    intro i x here engine
    match i with
    | 0 =>
      cases here
      exact inserted engine
    | _ + 1 => cases here

end Guards

/-! ### Classes -/

/-- All instructions of the engine in the methods of a class are where the engine puts them. -/
def Class.Genuine (names : NameTable) (cls : Class) : Prop :=
  ∀ key method, cls.method? key = some method →
    LiveUpdate.Genuine names cls.managed cls.standsFor method.code

namespace Class

variable {names : NameTable} {cls : Class}

theorem Genuine.extends {later : NameTable} (genuine : cls.Genuine names)
    (extends_ : later.Extends names) : cls.Genuine later :=
  fun key method declared => (genuine key method declared).extends extends_

/-- What the code of a class is does not depend on what has run. -/
theorem Genuine.of_skeleton_eq {cls' : Class} (genuine : cls.Genuine names)
    (same : cls'.skeleton = cls.skeleton) : cls'.Genuine names := by
  have methods : cls'.skeleton.methods = cls.skeleton.methods := by rw [same]
  have managed : cls'.skeleton.managed = cls.skeleton.managed := by rw [same]
  have standsFor : cls'.skeleton.standsFor = cls.skeleton.standsFor := by rw [same]
  intro key method declared
  have genuine := genuine key method
  unfold Class.method? at genuine declared
  rw [show cls'.methods = cls.methods from methods] at declared
  rw [show cls'.managed = cls.managed from managed,
    show cls'.standsFor = cls.standsFor from standsFor]
  exact genuine declared

/-- A class has the code of the unit that it is defined from. -/
theorem genuine_fresh {place : ClassRef} {id : Nat} {spec : ClassSpec} {parent : Option Class}
    {interfaces : List Class}
    (each : ∀ m ∈ spec.unit.methods, LiveUpdate.Genuine names spec.managed spec.standsFor m.code) :
    (fresh place id spec parent interfaces).Genuine names := by
  intro key method declared
  have found : (methodsOf spec).get? key = some method := declared
  rw [get?_methodsOf] at found
  obtain ⟨m, here, rfl⟩ := Option.map_eq_some_iff.1 found
  exact each m (List.mem_reverse.1 (List.mem_of_find?_eq_some here))

end Class

namespace TypeUnit

variable {u : TypeUnit} {options : Options} {names : NameTable}

variable (plain : ∀ m ∈ u.methods, IsPlain m.code)
  (named : ∀ m ∈ u.methods, Engine.NamesOwners options names m.code)
include plain named

theorem genuine_withGuards {standsFor : Option TypeId} {m : MethodDef}
    (mem : m ∈ (u.withGuards options names).methods) : Genuine names none standsFor m.code := by
  obtain ⟨origin, there, rfl⟩ := List.mem_map.1 mem
  exact (plain origin there).genuine_guarded (named origin there)

/-- The host form adds checks of the entry, and members that only forward. -/
theorem genuine_hostForm (id : TypeId) (parent : Option Class) {m : MethodDef}
    (mem : m ∈ (HostForm.ofUnit (u.withGuards options names) id parent).unit.methods) :
    Genuine names (some id) none m.code := by
  let guarded := u.withGuards options names
  have checked {slots : SlotTable} {m : MethodDef} (genuine : Genuine names none none m.code) :
      Genuine names (some id) none (HostForm.addCheck id slots (HostForm.widen m)).code := by
    have unchecked : Genuine names (some id) none m.code := fun i instr here engine =>
      (genuine i instr here engine).moved fun _ next _ => next
    unfold HostForm.addCheck
    split
    · split
      · show Genuine names (some id) none (relocate _ _ (HostForm.widen m).code)
        rw [HostForm.code_widen]
        exact genuine.checked id _
      · rw [HostForm.code_widen]
        exact unchecked
    · rw [HostForm.code_widen]
      exact unchecked
  have forwards (name owner : String) (key : MemberKey) (mark : Modifiers) :
      Genuine names none none (forwardingMethod name owner key mark).code := by
    refine IsPlain.genuine fun instr mem => ?_
    rcases List.mem_append.1 mem with mem | mem
    · obtain ⟨i, -, rfl⟩ := List.mem_map.1 mem
      rfl
    · rcases List.mem_pair.1 mem with rfl | rfl
      · rfl
      · cases key.sig.returnsValue <;> rfl
  obtain ⟨origin, rfl, own | generated⟩ := HostForm.mem_ofUnit id mem
  · exact checked (genuine_withGuards plain named own)
  · obtain ⟨name, owner, key, mark, -, rfl⟩ := generated
    exact checked (forwards name owner key mark)

end TypeUnit

/-- The methods of an executor are compiled from methods of the unit. -/
theorem ExecutorContext.mem_concreteMethods {ctx : ExecutorContext} {u : TypeUnit}
    {entry : MethodDef × MethodShape} (mem : entry ∈ ctx.concreteMethods u) :
    entry.1 ∈ u.methods :=
  (List.of_mem_zip (List.mem_filter.1 mem).1).1

theorem TypeUnit.genuine_executorUnit {u : TypeUnit} {ctx : ExecutorContext} {options : Options}
    {names : NameTable} {number : Nat} (plain : ∀ m ∈ u.methods, IsPlain m.code)
    (own : names.lookup ctx.typeName = some ctx.typeId)
    (named : ∀ entry ∈ ctx.concreteMethods u, ∀ instr ∈ entry.1.code, ∀ owner,
      ctx.guardedOwner? options instr = some owner → (names.lookup owner).isSome)
    {m : MethodDef} (mem : m ∈ (ctx.executorUnit options names number u).methods) :
    Genuine names none (some ctx.typeId) m.code := by
  obtain ⟨entry, there, rfl⟩ := List.mem_map.1 mem
  exact Genuine.relocate fun instr here =>
    genuine_compileInstr (plain _ (ctx.mem_concreteMethods there) instr here) own
      (named entry there instr here)

end LiveUpdate
