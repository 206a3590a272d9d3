import LiveUpdate.Proofs.ExecutorEntries
import LiveUpdate.Proofs.Outcomes

/-!
# Classes can be generated for every verified version

The contract and the executor of a version are found in order, because the unit was
verified, and a scope defines both as long as it does not know their names.
-/

set_option autoImplicit false

namespace LiveUpdate

open Exec

/-- An executor is not called like a contract. -/
theorem executorName_ne_contractName (typeName : String) (number number' : Nat) :
    executorName typeName number ≠ contractName typeName number' := by
  intro same
  have chars := congrArg String.toList same
  simp only [executorName, contractName, String.toList_append, List.append_assoc] at chars
  have marks := List.append_cancel_left chars
  cases marks

theorem isInterface_contractUnit (typeName : String) (number : Nat) (live : TypeShape) :
    (contractUnit typeName number live).modifiers.isInterface = true := by
  have bits : (Modifiers.publicBit ||| .interfaceBit ||| .abstractBit ||| .syntheticBit).isInterface
      = true := by decide
  exact bits

namespace ExecutorContext

variable {ctx : ExecutorContext} {u : TypeUnit}

/-- What an executor declares is public and static, and it declares a member for every method
with a body. -/
theorem implements_executorUnit (live : ctx.live = .ofUnit u) (options : Options)
    (names : NameTable) (number : Nat) {m : MethodDef} (mem : m ∈ u.bodied) :
    implements (ctx.executorUnit options names number u)
      (executorKey ctx.typeName (.ofDef m)) = true := by
  have methods : (ctx.executorUnit options names number u).methods =
      u.bodied.map fun m => ctx.compileMethod options names m (.ofDef m) := by
    show (ctx.concreteMethods u).map _ = _
    rw [concreteMethods_eq live, List.map_map]
    rfl
  unfold implements TypeUnit.method?
  rw [methods]
  cases found : (u.bodied.map fun m => ctx.compileMethod options names m (.ofDef m)).find?
      fun m' => m'.key = executorKey ctx.typeName (.ofDef m) with
  | none =>
    have missed := List.find?_eq_none.1 found _ (List.mem_map_of_mem mem)
    exact absurd (decide_eq_true rfl) missed
  | some compiled =>
    obtain ⟨source, -, rfl⟩ := List.mem_map.1 (List.mem_of_find?_eq_some found)
    have open_ : (Modifiers.publicBit ||| .staticBit ||| .syntheticBit).contains
        (.publicBit ||| .staticBit) = true := by decide
    rw [Option.any_some]
    exact open_

/-- The executor of a verified unit implements the contract. -/
theorem checkConformity_executorUnit (verified : u.verify = .ok ()) (live : ctx.live = .ofUnit u)
    (options : Options) (names : NameTable) (number : Nat) :
    checkConformity (contractUnit ctx.typeName number (.ofUnit u))
      (ctx.executorUnit options names number u) = .ok () := by
  unfold checkConformity
  cases fault : (contractUnit ctx.typeName number (.ofUnit u)).methods.find?
      fun m => !implements (ctx.executorUnit options names number u) m.key with
  | none => rfl
  | some member =>
    obtain ⟨shape, declared, rfl⟩ := List.mem_map.1 (List.mem_of_find?_eq_some fault)
    obtain ⟨inUnit, concrete⟩ := List.mem_filter.1 declared
    obtain ⟨m, mem, rfl⟩ := List.mem_map.1 inUnit
    rw [Bool.not_eq_true'] at concrete
    have bodied : m ∈ u.bodied := (TypeUnit.mem_bodied verified).2 ⟨mem, concrete⟩
    have implemented := implements_executorUnit live options names number bodied
    have missing := List.find?_some fault
    rw [Bool.not_eq_true'] at missing
    exact absurd implemented (by simpa [MethodDef.make, MethodDef.key] using missing)

end ExecutorContext

/-- A class without a superclass is defined when what it implements is an interface. -/
theorem Class.define_of_parentless (place : ClassRef) (id : Nat) (spec : ClassSpec)
    {interfaces : List Class} (all : ∀ i ∈ interfaces, i.isInterface) :
    Class.define place id spec none interfaces = .ok (.fresh place id spec none interfaces) := by
  have others : interfaces.find? (fun i => !i.unit.modifiers.isInterface) = none := by
    rw [List.find?_eq_none]
    intro i mem
    have isInterface : i.unit.modifiers.isInterface = true := all i mem
    simp [isInterface]
  have unopposed (entries : List (MemberKey × Method)) :
      entries.findSome? (fun e => Class.overrideFault? [] e.2) = none := by
    rw [List.findSome?_eq_none_iff]
    intro e _
    rfl
  unfold Class.define
  simp only [Option.bind_none, others, Option.map_none, Option.getD_none, unopposed]
  rfl

namespace Engine

variable {e : Engine} {t : TypeRef}

/-- A scope does not know the names of the classes that are generated next for a managed
type. -/
structure NamesFree (e : Engine) (t : TypeRef) : Prop where
  contract : e.class? (e.typeAt t).scope
    (contractName (e.typeAt t).name (e.typeAt t).nextArtifact) = none
  executor : e.class? (e.typeAt t).scope
    (executorName (e.typeAt t).name (e.typeAt t).nextArtifact) = none

end Engine

namespace Scope

variable {e : Engine} {s : ScopeRef}

/-- A class without a superclass is defined when its name is free. -/
theorem ends_defineClass {spec : ClassSpec} (parentless : spec.parent = none)
    (free : e.class? s spec.unit.name = none)
    (all : ∀ i ∈ spec.interfaces, (e.classAt i).isInterface) :
    e.Ends (defineClass s spec) (fun c e' => c = e.classes.size ∧
        e' = (e.countClass s).addClass s (.fresh e.classes.size (e.scopeAt s).nextClassId spec none
          (spec.interfaces.map e.classAt)))
      fun _ _ => False := by
  have interfaces : ∀ i ∈ spec.interfaces.map e.classAt, i.isInterface := by
    intro i mem
    obtain ⟨c, mem', rfl⟩ := List.mem_map.1 mem
    exact all c mem'
  have apply := defineClass_apply free
  rw [parentless, Option.map_none, Class.define_of_parentless _ _ _ interfaces] at apply
  exact .of_ok apply ⟨rfl, rfl⟩

end Scope

namespace ManagedType

variable {e : Engine} {t : TypeRef}

/-- The classes of a verified version are generated when their names are free. -/
theorem ends_defineArtifacts (grounded : e.Grounded) (type_lt : t < e.types.size)
    {native : ClassRef} (hosted : (e.typeAt t).native = some native) (free : e.NamesFree t)
    {u : TypeUnit} (verified : u.verify = .ok ()) :
    e.Ends (defineArtifacts t native u (.ofUnit u)) (fun _ _ => True) fun _ _ => False := by
  have scope_lt := (grounded.hosted t type_lt native hosted).2
  let s := (e.typeAt t).scope
  let number := (e.typeAt t).nextArtifact
  let contract := contractUnit (e.typeAt t).name number (.ofUnit u)
  let counted := e.updateType t fun type => { type with nextArtifact := number + 1 }
  let ctx : ExecutorContext :=
    ⟨(e.typeAt t).name, (e.typeAt t).id, counted.classAt native, .ofUnit u⟩
  let compiled := ctx.compile (counted.scopeAt s).options (counted.namesOf s) number u
  let named := counted.setNames s compiled.2
  -- Conformity cannot fail, and then both names are free, the second one also beside the first.
  unfold defineArtifacts
  refine Engine.ends_ask_bind (Engine.ends_modify_bind (Engine.ends_modifyGet_bind ?_))
  show named.Ends (ofResult (checkConformity contract compiled.1) >>= _) _ _
  have conforms : checkConformity contract compiled.1 = .ok () :=
    ctx.checkConformity_executorUnit verified rfl _ _ number
  refine Engine.ends_ofResult_bind (fun _ _ => ?_) fun error fault => ?_
  swap
  · rw [conforms] at fault
    cases fault
  have contractFree : named.class? s (ClassSpec.plain contract none []).unit.name = none :=
    free.contract
  refine Engine.ends_bind (Scope.ends_defineClass rfl contractFree fun i mem => by cases mem)
    fun c e₁ held => ?_
  obtain ⟨rfl, rfl⟩ := held
  let cls := Class.fresh named.classes.size (named.scopeAt s).nextClassId
    (.plain contract none []) none []
  let withContract := (named.countClass s).addClass s cls
  have at_ : withContract.classAt named.classes.size = cls := by
    have pushed := Engine.getD_push named.classes cls named.classes.size default
    rw [if_pos rfl] at pushed
    exact pushed
  have executorFree : withContract.class? s compiled.1.name = none := by
    rw [Engine.class?_addClass, if_neg fun same => ?_]
    · have counts := Engine.class?_updateScope named s
        (fun scope => { scope with nextClassId := scope.nextClassId + 1 }) (fun _ => rfl) s
      exact (counts _).trans free.executor
    · exact executorName_ne_contractName _ _ _ same.2.2.symm
  refine Engine.ends_bind (Scope.ends_defineClass rfl executorFree fun i mem => ?_)
    fun x e₂ _ => Engine.ends_pure trivial
  rcases List.mem_singleton.1 mem with rfl
  show (withContract.classAt named.classes.size).isInterface = true
  rw [at_]
  exact isInterface_contractUnit _ _ _

end ManagedType

end LiveUpdate
