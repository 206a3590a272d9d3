import LiveUpdate.Proofs.Differences
import LiveUpdate.Proofs.Digests
import LiveUpdate.Proofs.ExecutorMembers
import LiveUpdate.Proofs.Reachable
import LiveUpdate.Proofs.Relocation
import LiveUpdate.Unit.Builder

/-!
# Executor entries of dispatch tables

A slot whose entry names a method of the executor runs the code of the last method of the
version that is that member of the executor.  It is the code of the slot's own method
exactly when no later method of the unit clashes with it.
-/

set_option autoImplicit false

namespace LiveUpdate

open MethodShape

namespace TypeShape

/-- The shape of a unit has the methods of the unit. -/
theorem method?_ofUnit (u : TypeUnit) (key : MemberKey) :
    (ofUnit u).method? key = (u.method? key).map .ofDef := by
  unfold method? TypeUnit.method? ofUnit
  rw [List.find?_map]
  rfl

end TypeShape

namespace MethodShape

/-- No method clashes with itself. -/
theorem not_clash_self (typeName : String) (m : MethodShape) : ¬ Clash typeName m m := by
  rintro ⟨-, ⟨receiver, none_, -⟩ | ⟨receiver, none_, -⟩ | ⟨-, apart, -⟩⟩
  · exact none_ receiver
  · exact none_ receiver
  · exact apart rfl

end MethodShape

namespace TypeUnit

variable {u : TypeUnit} {typeName : String}

/-- The methods with bodies that stand behind the one with a key. -/
def after (u : TypeUnit) (key : MemberKey) : List MethodDef :=
  (u.bodied.dropWhile fun m => m.key ≠ key).drop 1

/-- The methods with bodies are those of the unit that are not abstract. -/
theorem mem_bodied (verified : u.verify = .ok ()) {m : MethodDef} :
    m ∈ u.bodied ↔ m ∈ u.methods ∧ m.modifiers.isAbstract = false := by
  unfold bodied
  rw [List.mem_filter]
  refine and_congr_right fun mem => ?_
  have body := isAbstract_iff_of_verify verified mem
  cases abstract : m.modifiers.isAbstract <;> cases empty : m.code.isEmpty <;> simp_all

/-- The methods with bodies are split by every one of them into those before it and those
after it, and its key is that of none of these. -/
theorem bodied_split (verified : u.verify = .ok ()) {m : MethodDef} (mem : m ∈ u.bodied) :
    ∃ before, u.bodied = before ++ m :: u.after m.key ∧
      ∀ m' ∈ before ++ u.after m.key, m'.key ≠ m.key := by
  have distinct : (u.bodied.map MethodDef.key).Nodup :=
    (nodup_keys_of_verify verified).sublist (List.filter_sublist.map _)
  obtain ⟨before, behind, split⟩ := List.append_of_mem mem
  rw [split, List.map_append, List.map_cons] at distinct
  have apart : ∀ m' ∈ before ++ behind, m'.key ≠ m.key := by
    intro m' mem' same
    have absent := (List.nodup_middle.1 distinct).notMem
    apply absent
    rw [← List.map_append, ← same]
    exact List.mem_map_of_mem mem'
  have behind_eq : u.after m.key = behind := by
    unfold after
    rw [split, List.dropWhile_append_of_pos fun m' mem' => by
      simpa using apart m' (List.mem_append_left _ mem')]
    simp
  rw [behind_eq]
  exact ⟨before, split, apart⟩

/-- The executor has the code of a method exactly when no later one clashes with it. -/
theorem memberSource?_eq_self_iff (verified : u.verify = .ok ()) {own source : MethodDef}
    (mem : own ∈ u.bodied)
    (found : u.memberSource? typeName (executorKey typeName (.ofDef own)) = some source) :
    source = own ↔ ∀ later ∈ u.after own.key, ¬ Clash typeName (.ofDef own) (.ofDef later) := by
  obtain ⟨before, split, apart⟩ := bodied_split verified mem
  have clash_iff (later : MethodDef) (behind : later ∈ u.after own.key) :
      executorKey typeName (.ofDef later) = executorKey typeName (.ofDef own) ↔
        Clash typeName (.ofDef own) (.ofDef later) := by
    have other : (MethodShape.ofDef own).key ≠ (MethodShape.ofDef later).key :=
      (apart later (List.mem_append_right _ behind)).symm
    rw [eq_comm]
    exact executorKey_eq_iff_clash other
  unfold memberSource? at found
  rw [split, List.reverse_append, List.reverse_cons, List.append_assoc, List.find?_append] at found
  cases behind : (u.after own.key).reverse.find? fun m =>
      executorKey typeName (.ofDef m) = executorKey typeName (.ofDef own) with
  | some later =>
    rw [behind] at found
    cases found
    have mem' : source ∈ u.after own.key := List.mem_reverse.1 (List.mem_of_find?_eq_some behind)
    have same : executorKey typeName (.ofDef source) = executorKey typeName (.ofDef own) := by
      simpa using List.find?_some behind
    refine ⟨fun eq => ?_, fun none_ => ?_⟩
    · exact absurd (congrArg MethodDef.key eq) (apart source (List.mem_append_right _ mem'))
    · exact absurd ((clash_iff source mem').1 same) (none_ source mem')
  | none =>
    rw [behind] at found
    have self : source = own := by simpa using found.symm
    refine ⟨fun _ later mem' clash => ?_, fun _ => self⟩
    have missed := List.find?_eq_none.1 behind later (List.mem_reverse.2 mem')
    exact missed (decide_eq_true ((clash_iff later mem').2 clash))

/-- The methods with bodies are distinct members of an executor exactly when no two of them
clash. -/
theorem executorKey_injective_iff (verified : u.verify = .ok ()) (typeName : String) :
    (∀ a ∈ u.bodied, ∀ b ∈ u.bodied,
        executorKey typeName (.ofDef a) = executorKey typeName (.ofDef b) → a = b) ↔
      ∀ a ∈ u.bodied, ∀ b ∈ u.bodied, ¬ Clash typeName (.ofDef a) (.ofDef b) := by
  have inUnit {m : MethodDef} (mem : m ∈ u.bodied) : m ∈ u.methods := (List.mem_filter.1 mem).1
  constructor
  · intro injective a mem b mem' clash
    by_cases same : a.key = b.key
    · have eq := eq_of_key_eq verified (inUnit mem) (inUnit mem') same
      subst eq
      exact not_clash_self typeName _ clash
    · have apart : (MethodShape.ofDef a).key ≠ (MethodShape.ofDef b).key := same
      have eq := injective a mem b mem' ((executorKey_eq_iff_clash apart).2 clash)
      exact same (congrArg MethodDef.key eq)
  · intro none_ a mem b mem' eq
    by_cases same : a.key = b.key
    · exact eq_of_key_eq verified (inUnit mem) (inUnit mem') same
    · have apart : (MethodShape.ofDef a).key ≠ (MethodShape.ofDef b).key := same
      exact absurd ((executorKey_eq_iff_clash apart).1 eq) (none_ a mem b mem')

end TypeUnit

/-- An entry that names a method of the executor stands for a concrete method of the
version, and the executor has it under the member of that method. -/
theorem DispatchTable.entryFor_eq_executor {typeName : String} {live : TypeShape}
    {cumulative : Option ShapeDiff} {executor : Option Class} {slot : Slot} {m : Method}
    (entry : entryFor typeName live cumulative executor slot = .executor m) :
    ∃ own, live.method? slot.key = some own ∧ own.isAbstract = false ∧
      (executor.bind fun c => c.method? (executorKey typeName own)) = some m := by
  unfold entryFor at entry
  cases declared : live.method? slot.key with
  | none =>
    rw [declared] at entry
    cases caught : decide (slot.origin = .catcher) <;> simp_all
  | some own =>
    rw [declared] at entry
    refine ⟨own, rfl, ?_⟩
    dsimp only at entry
    split at entry
    · cases entry
    next concrete =>
      refine ⟨by simpa using concrete, ?_⟩
      split at entry
      · cases entry
      · split at entry
        next target found =>
          cases entry
          exact found
        · split at entry <;> cases entry

namespace Engine

variable {e : Engine} {t : TypeRef}

/-- A method of an executor is what a method of a version was compiled into. -/
def CompiledFrom (e : Engine) (t : TypeRef) (w : LiveVersion) (source : MethodDef)
    (m : Method) : Prop :=
  ∃ native names number, (e.typeAt t).native = some native ∧
    e.HadNames (e.typeAt t).scope names ∧
    m = Class.bind (executorName (e.typeAt t).name number) []
      ((e.executorContext t native w.shape).compileMethod (e.optionsOf t) names source
        (.ofDef source))

/-- The method of an executor that stands under a key was compiled from the last method with
that member, of the unit that the executor was generated from. -/
theorem Compiles.method? {w : LiveVersion} {a : Artifacts}
    (shaped : TypeShape.extract w.unit = .ok w.shape) (compiles : e.Compiles t w.unit w.shape a)
    {key : MemberKey} {m : Method} (found : (e.classAt a.executor).method? key = some m) :
    ∃ source, w.unit.memberSource? (e.typeAt t).name key = some source ∧
      e.CompiledFrom t w source m := by
  obtain ⟨native, names, number, hosted, had, -, described⟩ := compiles.executor
  let ctx := e.executorContext t native w.shape
  have live : ctx.live = .ofUnit w.unit := TypeShape.eq_ofUnit shaped
  unfold Class.method? at found
  rw [described.methods_eq, ExecutorContext.methodsOf_spec live] at found
  obtain ⟨source, some_source, rfl⟩ := Option.map_eq_some_iff.1 found
  exact ⟨source, some_source, native, names, number, hosted, had, rfl⟩

/-- Where the source of a method of an executor has an instruction that the engine's own one
replaces, the method has that. -/
theorem CompiledFrom.exists_privileged {w : LiveVersion} {source : MethodDef} {m : Method}
    {native : ClassRef} (compiled : e.CompiledFrom t w source m)
    (hosted : (e.typeAt t).native = some native) {index : Nat} {instr replaced : Instr}
    (here : source.code[index]? = some instr)
    (privileged : (e.executorContext t native w.shape).privileged? instr = some replaced)
    (linear : replaced.jumpTarget? = none) : ∃ place : Nat, m.code[place]? = some replaced := by
  obtain ⟨native', names, number, hosted', -, rfl⟩ := compiled
  obtain rfl : native = native' := Option.some.inj (hosted.symm.trans hosted')
  let ctx := e.executorContext t native w.shape
  have expansion : (ctx.compileInstr (e.optionsOf t) names instr)[0]? = some replaced := by
    unfold ExecutorContext.compileInstr
    rw [privileged]
    rfl
  exact ⟨_, getElem?_relocate [] _ here expansion linear⟩

/-- The methods of the executor of a recorded version were compiled from those of a version with
the same digest, which has the same methods unless two payloads have one digest. -/
theorem Recorded.sources {v : LiveVersion} {a : Artifacts} (recorded : e.Recorded t v)
    (generated : v.artifacts = some a) : ∃ w ∈ (e.typeAt t).versions,
      (TypeUnit.DigestsCollide w.data v.data ∨ w.unit.methods = v.unit.methods) ∧
      w.shape = .ofUnit w.unit ∧ e.Compiles t w.unit w.shape a ∧
      ∀ key m, (e.classAt a.executor).method? key = some m →
        ∃ source ∈ w.unit.bodied, w.unit.memberSource? (e.typeAt t).name key = some source ∧
          e.CompiledFrom t w source m := by
  obtain ⟨w, mem, digest, decoded, -, shaped, stored, compiles⟩ := recorded.artifacts a generated
  refine ⟨w, mem, ?_, TypeShape.eq_ofUnit shaped, compiles, fun key m found => ?_⟩
  · refine TypeUnit.collide_or_methods_eq decoded recorded.decoded ?_
    rw [← stored, ← recorded.digest, digest]
  · obtain ⟨source, last, compiled⟩ := compiles.method? shaped found
    exact ⟨source, List.mem_reverse.1 (List.mem_of_find?_eq_some last), last, compiled⟩

/-- An entry of a recorded version that names a method of the executor stands for a method
of the version, and for the last one of its source with the same member. -/
theorem Recorded.executor_entry {v : LiveVersion} (recorded : e.Recorded t v) {key : MemberKey}
    {m : Method} (entry : (key, .executor m) ∈ v.dispatch.entries) :
    ∃ own ∈ v.unit.bodied, own.key = key ∧ ∃ w ∈ (e.typeAt t).versions, ∃ source,
      w.unit.memberSource? (e.typeAt t).name (executorKey (e.typeAt t).name (.ofDef own)) =
        some source ∧ e.CompiledFrom t w source m ∧
      (TypeUnit.DigestsCollide w.data v.data ∨ w.unit.methods = v.unit.methods) := by
  obtain ⟨slots, -, -, dispatch⟩ := recorded.dispatch
  rw [dispatch] at entry
  obtain ⟨slot, -, same⟩ := List.mem_map.1 entry
  obtain ⟨rfl, runs⟩ := Prod.mk.inj same
  obtain ⟨own', declared, concrete, found⟩ := DispatchTable.entryFor_eq_executor runs
  have shape := TypeShape.eq_ofUnit recorded.shaped
  rw [shape, TypeShape.method?_ofUnit] at declared
  obtain ⟨own, inUnit, rfl⟩ := Option.map_eq_some_iff.1 declared
  have key : own.key = slot.key := by simpa using List.find?_some inUnit
  have mem : own ∈ v.unit.bodied :=
    (TypeUnit.mem_bodied recorded.verified).2 ⟨List.mem_of_find?_eq_some inUnit, concrete⟩
  cases artifacts : v.artifacts with
  | none =>
    rw [artifacts] at found
    cases found
  | some a =>
    rw [artifacts] at found
    obtain ⟨w, mem_w, alike, -, -, sources⟩ := recorded.sources artifacts
    obtain ⟨source, -, last, compiled⟩ := sources _ m found
    exact ⟨own, mem, key, w, mem_w, source, last, compiled, alike⟩

end Engine

/-- The methods with bodies of a verified unit are distinct members of its executor exactly
when no two of them clash.  In a reachable engine an entry of the version in force that
names a method of the executor was compiled from the last method with the member of its
slot, which is the slot's own method exactly when no later method clashes with that.  The
executor may have been generated for another version with the same digest, which has the
same methods unless two payloads have one digest. -/
theorem executor_members_apart_iff {u : TypeUnit} (verified : u.verify = .ok ())
    (typeName : String) :
    ((∀ a ∈ u.bodied, ∀ b ∈ u.bodied,
        executorKey typeName (.ofDef a) = executorKey typeName (.ofDef b) → a = b) ↔
      ∀ a ∈ u.bodied, ∀ b ∈ u.bodied, ¬ Clash typeName (.ofDef a) (.ofDef b)) ∧
    ∀ (e : Engine) (t : TypeRef) (v : LiveVersion) (key : MemberKey) (m : Method),
      e.Reachable → e.IsManaged t → (e.typeAt t).published = some v →
      (key, .executor m) ∈ v.dispatch.entries →
      ∃ own ∈ v.unit.bodied, own.key = key ∧ ∃ w ∈ (e.typeAt t).versions, ∃ source,
        w.unit.memberSource? (e.typeAt t).name (executorKey (e.typeAt t).name (.ofDef own)) =
          some source ∧
        e.CompiledFrom t w source m ∧
        (TypeUnit.DigestsCollide w.data v.data ∨
          w.unit.methods = v.unit.methods ∧
            (source = own ↔ ∀ later ∈ v.unit.after key,
              ¬ Clash (e.typeAt t).name (.ofDef own) (.ofDef later))) := by
  refine ⟨TypeUnit.executorKey_injective_iff verified typeName, ?_⟩
  intro e t v key m reachable managed published entry
  have recorded := (reachable.chronicled managed).recorded published
  obtain ⟨own, mem, rfl, w, mem_w, source, last, compiled, same⟩ := recorded.executor_entry entry
  refine ⟨own, mem, rfl, w, mem_w, source, last, compiled, same.imp_right fun methods => ?_⟩
  have last' : v.unit.memberSource? (e.typeAt t).name
      (executorKey (e.typeAt t).name (.ofDef own)) = some source := by
    unfold TypeUnit.memberSource? TypeUnit.bodied at last ⊢
    rw [← methods]
    exact last
  exact ⟨methods, TypeUnit.memberSource?_eq_self_iff recorded.verified mem last'⟩

namespace Overloaded

/-- A body that answers a number. -/
def answering (n : Int64) : List Instr := [.constInt n, .retValue]

def instanceMethod (n : Int64) : MethodDef := .make "m" ⟨[], .int⟩ .publicBit (answering n)

/-- A static method of the same name that takes the type first. -/
def staticMethod (n : Int64) : MethodDef :=
  .make "m" ⟨[.ref "app.T"], .int⟩ (.publicBit ||| .staticBit) (answering n)

/-- A type with both methods. -/
def overloaded (own other : Int64) : TypeUnit :=
  ((TypeUnit.named "app.T").addMethod (instanceMethod own)).addMethod (staticMethod other)

/-- A scope in which the type was defined. -/
def defined : Engine := (Engine.opened { included := ["app.*"] }).defining 4 (overloaded 1 2)

/-- The scope after a reload with other bodies. -/
def engine : Engine := defined.reloading 4 0 "later" (overloaded 10 20)

/-- The executor's method that both slots run. -/
def shared : Method where
  key := ⟨"m", ⟨[.ref "app.T"], .int⟩⟩
  modifiers := .publicBit ||| .staticBit ||| .syntheticBit
  declared := .publicBit ||| .staticBit ||| .syntheticBit
  declaring := "app.T$$E1"
  maxLocals := 1
  code := answering 20

set_option maxRecDepth 100000 in
theorem entries : 0 < defined.types.size ∧ engine.IsManaged 0 ∧ (engine.typeAt 0).published.isSome ∧
    (engine.typeAt 0).name = "app.T" ∧
    (engine.typeAt 0).live.unit = overloaded 10 20 ∧
    (engine.typeAt 0).live.dispatch.entries =
      [(⟨"m", ⟨[], .int⟩⟩, .executor shared), (⟨"m", ⟨[.ref "app.T"], .int⟩⟩, .executor shared)] := by
  decide +kernel

theorem reachable : engine.Reachable :=
  ((Engine.reachable_opened _).defining 4 _ (by decide)).reloading 4 0 _ _ entries.1

theorem published : (engine.typeAt 0).published = some (engine.typeAt 0).live :=
  ManagedType.published_eq_live entries.2.2.1

end Overloaded

open Overloaded in
/-- The unit's methods are no distinct members, and the entry of the instance method stands
for a method that the static one has taken the place of unless none behind it clashes. -/
theorem executor_members_apart_overloaded :
    (overloaded 10 20).verify = .ok () ∧
    (¬ ∀ a ∈ (overloaded 10 20).bodied, ∀ b ∈ (overloaded 10 20).bodied,
      executorKey "app.T" (.ofDef a) = executorKey "app.T" (.ofDef b) → a = b) ∧
    ∃ own ∈ (engine.typeAt 0).live.unit.bodied, own.key = ⟨"m", ⟨[], .int⟩⟩ ∧
      ∃ w ∈ (engine.typeAt 0).versions, ∃ source,
        w.unit.memberSource? (engine.typeAt 0).name
          (executorKey (engine.typeAt 0).name (.ofDef own)) = some source ∧
        engine.CompiledFrom 0 w source shared ∧
        (TypeUnit.DigestsCollide w.data (engine.typeAt 0).live.data ∨
          w.unit.methods = (engine.typeAt 0).live.unit.methods ∧
            (source = own ↔ ∀ later ∈ (engine.typeAt 0).live.unit.after ⟨"m", ⟨[], .int⟩⟩,
              ¬ Clash (engine.typeAt 0).name (.ofDef own) (.ofDef later))) := by
  have verified : (overloaded 10 20).verify = .ok () := by rfl
  obtain ⟨apart, runs⟩ := executor_members_apart_iff verified "app.T"
  refine ⟨verified, fun distinct => ?_, ?_⟩
  · have clash : Clash "app.T" (.ofDef (instanceMethod 10)) (.ofDef (staticMethod 20)) := by decide
    exact apart.1 distinct _ List.mem_cons_self _ (List.mem_cons_of_mem _ List.mem_cons_self) clash
  · refine runs engine 0 _ _ _ reachable entries.2.1 published ?_
    rw [entries.2.2.2.2.2]
    exact List.mem_cons_self

open Overloaded in
/-- Methods of a verified unit are confused in its executor, and a slot of a reachable engine
runs the code of another method. -/
theorem executor_members_confused :
    (¬ ∀ (u : TypeUnit) (typeName : String), u.verify = .ok () → ∀ a ∈ u.bodied, ∀ b ∈ u.bodied,
      executorKey typeName (.ofDef a) = executorKey typeName (.ofDef b) → a = b) ∧
    ¬ ∀ (e : Engine) (t : TypeRef) (v : LiveVersion) (key : MemberKey) (m : Method),
      e.Reachable → e.IsManaged t → (e.typeAt t).published = some v →
      (key, .executor m) ∈ v.dispatch.entries →
      ∃ own ∈ v.unit.bodied, own.key = key ∧ ∃ w ∈ (e.typeAt t).versions,
        e.CompiledFrom t w own m := by
  refine ⟨fun injective => ?_, fun faithful => ?_⟩
  · have verified : (overloaded 1 2).verify = .ok () := by rfl
    have same := injective (overloaded 1 2) "app.T" verified _ List.mem_cons_self _
      (List.mem_cons_of_mem _ List.mem_cons_self) (by decide)
    exact absurd same (by decide)
  · have entry : (⟨"m", ⟨[], .int⟩⟩, .executor shared) ∈
        (engine.typeAt 0).live.dispatch.entries := by
      rw [entries.2.2.2.2.2]
      exact List.mem_cons_self
    obtain ⟨own, mem, key, w, -, native, names, number, -, -, eq⟩ :=
      faithful engine 0 _ _ _ reachable entries.2.1 published entry
    rw [entries.2.2.2.2.1] at mem
    have bodies : own = instanceMethod 10 ∨ own = staticMethod 20 := by
      have inUnit := List.mem_of_mem_filter mem
      simpa [overloaded, TypeUnit.addMethod, TypeUnit.named] using inUnit
    rcases bodies with rfl | rfl
    · have code : answering 20 = answering 10 := congrArg Method.code eq
      exact absurd code (by decide)
    · exact absurd key (by decide)

end LiveUpdate
