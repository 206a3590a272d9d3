import LiveUpdate.Proofs.Generating
import LiveUpdate.Proofs.Instrumenting

/-!
# Executors conform and verify

The contract of a version is made from its shape, by leaving out what is abstract; its executor
is made from its unit, by leaving out what has no body.  Verification makes the two agree, so an
executor always has the members of its contract.  Where different methods have different members
there, the executor obeys the rules for units, too: its methods keep the local slots of those that
they were compiled from, and their parameters fill the same slots, because the receiver has become
the first of them.  Only a static initializer has no receiver in an executor, even if it is
declared to have one.
-/

set_option autoImplicit false

namespace LiveUpdate

open MethodShape

/-- A method of an executor takes over from a method of the type: it is static, the receiver is an
explicit first parameter unless the method has none or is the static initializer, and its local
slots are those of the method. -/
structure TakesOver (typeName : String) (origin compiled : MethodDef) : Prop where
  isStatic : compiled.isStatic = true
  params : compiled.sig.params =
    (if origin.isStatic || origin.isStaticInit then [] else [.ref typeName]) ++ origin.sig.params
  result : compiled.sig.result = origin.sig.result
  locals : compiled.maxLocals = origin.maxLocals

namespace TakesOver

variable {typeName : String} {origin compiled : MethodDef}

/-- The parameters take the local slots that receiver and parameters take in the method itself,
less the slot of the receiver in a static initializer that has one. -/
theorem paramSlots (takes : TakesOver typeName origin compiled) :
    compiled.paramSlots =
      if origin.isStaticInit then origin.sig.arity else origin.paramSlots := by
  have static : compiled.modifiers.isStatic = true := takes.isStatic
  have params := congrArg List.length takes.params
  have alone : compiled.paramSlots = compiled.sig.params.length := by
    unfold MethodDef.paramSlots MethodDef.slotsFor
    rw [static]
    rfl
  have own : origin.paramSlots = origin.sig.params.length + if origin.isStatic then 0 else 1 := rfl
  rw [alone, params, own]
  unfold MethodSig.arity
  cases origin.isStatic <;> cases origin.isStaticInit <;> simp

theorem paramSlots_le (takes : TakesOver typeName origin compiled) :
    compiled.paramSlots ≤ origin.paramSlots := by
  rw [takes.paramSlots]
  split
  · exact Nat.le_add_right _ _
  · exact Nat.le_refl _

theorem returnsValue_eq (takes : TakesOver typeName origin compiled) :
    compiled.sig.returnsValue = origin.sig.returnsValue := by
  unfold MethodSig.returnsValue
  rw [takes.result]

end TakesOver

namespace ExecutorContext

variable {ctx : ExecutorContext} {u : TypeUnit} (options : Options) (names : NameTable)
  (number : Nat)

/-- The executor's method for a method of the version. -/
def compiled (ctx : ExecutorContext) (options : Options) (names : NameTable) (m : MethodDef) :
    MethodDef :=
  ctx.compileMethod options names m (.ofDef m)

theorem methods_executorUnit (live : ctx.live = .ofUnit u) :
    (ctx.executorUnit options names number u).methods =
      u.bodied.map (ctx.compiled options names) := by
  show (ctx.concreteMethods u).map _ = _
  rw [concreteMethods_eq live, List.map_map]
  rfl

theorem modifiers_compiled (m : MethodDef) : (ctx.compiled options names m).modifiers =
    .publicBit ||| .staticBit ||| .syntheticBit := rfl

/-- A constructor with a receiver is taken over like any other method. -/
theorem takesOver_compiled {m : MethodDef}
    (receives : m.isConstructor = true → m.isStatic = false) :
    TakesOver ctx.typeName m (ctx.compiled options names m) := by
  have key := executorKey_eq ctx.typeName (.ofDef m)
  have sig : (ctx.compiled options names m).sig =
      if (MethodShape.ofDef m).takesReceiver then m.sig.withReceiver ctx.typeName else m.sig :=
    congrArg MemberKey.sig key
  have takes : (MethodShape.ofDef m).takesReceiver = !(m.isStatic || m.isStaticInit) := by
    show (m.isConstructor || (!m.isStaticInit && !m.isStatic)) = _
    cases constructor_ : m.isConstructor with
    | false => rw [Bool.false_or, Bool.not_or, Bool.and_comm]
    | true =>
      have plain : m.isStaticInit = false := by
        have named : m.name = constructorName := of_decide_eq_true constructor_
        unfold MethodDef.isStaticInit
        rw [named]
        rfl
      rw [receives constructor_, plain]
      rfl
  rw [takes] at sig
  have static : (ctx.compiled options names m).modifiers.isStatic = true := by
    rw [modifiers_compiled]
    decide
  refine ⟨static, ?_, ?_, rfl⟩
  · rw [sig]
    cases m.isStatic || m.isStaticInit <;> rfl
  · rw [sig]
    cases m.isStatic || m.isStaticInit <;> rfl

variable {options names number}

theorem isEmpty_executorName (typeName : String) (number : Nat) :
    (executorName typeName number).isEmpty = false := by
  refine Bool.eq_false_iff.2 fun empty => ?_
  have chars := congrArg String.toList (String.isEmpty_iff.1 empty)
  unfold executorName at chars
  simp [toString] at chars

/-- A compiled method obeys the rules of its executor. -/
theorem fits_compiled (verified : u.verify = .ok ())
    (short : ∀ m ∈ u.methods, m.code.length < UInt32.size / 2) {m : MethodDef} (mem : m ∈ u.bodied)
    (receives : m.isConstructor = true → m.isStatic = false) :
    (ctx.compiled options names m).code.length < UInt32.size ∧
      (ctx.compiled options names m).Fits (ctx.executorUnit options names number u) := by
  obtain ⟨inUnit, concrete⟩ := (TypeUnit.mem_bodied verified).1 mem
  have lt := short m inUnit
  have half : UInt32.size = 2 * (UInt32.size / 2) := rfl
  have longer := length_relocate_le [] (length_compileInstr_le options names ctx) m.code
  rw [List.length_nil, Nat.zero_add] at longer
  have room : (relocate [] (ctx.compileInstr options names) m.code).length < UInt32.size := by omega
  have fits := TypeUnit.fits_of_verify verified inUnit concrete (by omega)
  have takes : TakesOver ctx.typeName m (ctx.compiled options names m) :=
    takesOver_compiled options names receives
  have marked : (TypeUnit.instrumentedFlag ||| TypeUnit.executorFlag) &&&
    TypeUnit.instrumentedFlag ≠ 0 := by decide
  refine ⟨room, Nat.le_trans takes.paramSlots_le fits.room, ?_, .inl (decide_eq_true marked), ?_⟩
  · rw [takes.returnsValue_eq]
    exact fits.inside.relocate [] (expands_compileInstr options names ctx) trivial (.inr room)
  · exact fun _ below => nomatch below

/-- An executor is accepted when different methods of the version are different members of it and
every constructor has a receiver. -/
theorem verify_executorUnit (verified : u.verify = .ok ())
    (short : ∀ m ∈ u.methods, m.code.length < UInt32.size / 2) (live : ctx.live = .ofUnit u)
    (apart : ∀ a ∈ u.bodied, ∀ b ∈ u.bodied,
      executorKey ctx.typeName (.ofDef a) = executorKey ctx.typeName (.ofDef b) → a = b)
    (receives : ∀ m ∈ u.methods, m.isConstructor = true → m.isStatic = false) :
    (ctx.executorUnit options names number u).verify = .ok () := by
  have methods := methods_executorUnit options names number live
  refine TypeUnit.verify_eq_ok_iff.2 ⟨?_, rfl, TypeUnit.checkMethods_eq_ok_iff.2 ⟨?_, ?_⟩⟩
  · have named := isEmpty_executorName ctx.typeName number
    have named : (ctx.executorUnit options names number u).name.isEmpty = false := named
    unfold TypeUnit.headerFault?
    rw [named]
    rfl
  · rw [methods, List.map_map]
    have distinct : u.bodied.Nodup :=
      (TypeUnit.nodup_keys_of_verify verified).of_map.sublist List.filter_sublist
    exact distinct.map_on apart
  · intro m mem
    rw [methods] at mem
    obtain ⟨origin, bodied, rfl⟩ := List.mem_map.1 mem
    have inUnit := ((TypeUnit.mem_bodied verified).1 bodied).1
    obtain ⟨room, fits⟩ : (ctx.compiled options names origin).code.length < UInt32.size ∧
        (ctx.compiled options names origin).Fits (ctx.executorUnit options names number u) :=
      fits_compiled verified short bodied (receives origin inUnit)
    have class_ : (ctx.executorUnit options names number u).isInterface = false := by
      show (Modifiers.publicBit ||| .finalBit ||| .syntheticBit).isInterface = false
      decide
    have concrete : (ctx.compiled options names origin).modifiers.isAbstract = false := by
      rw [modifiers_compiled]
      decide
    refine ⟨List.not_mem_nil, by rw [class_, Bool.false_and],
      (TypeUnit.checkMethod_eq_ok_iff room).2 ⟨fun abstract => ?_, fun _ => fits⟩⟩
    rw [concrete] at abstract
    cases abstract

/-- Every method of an executor takes over from the method that it is compiled from. -/
theorem takesOver_methods (verified : u.verify = .ok ()) (live : ctx.live = .ofUnit u)
    (receives : ∀ m ∈ u.methods, m.isConstructor = true → m.isStatic = false) :
    List.Forall₂ (fun origin compiled => compiled.key = executorKey ctx.typeName (.ofDef origin) ∧
        TakesOver ctx.typeName origin compiled)
      u.bodied (ctx.executorUnit options names number u).methods := by
  rw [methods_executorUnit options names number live, List.forall₂_map_right_iff, List.forall₂_same]
  intro origin bodied
  have inUnit := ((TypeUnit.mem_bodied verified).1 bodied).1
  exact ⟨rfl, takesOver_compiled options names (receives origin inUnit)⟩

end ExecutorContext

/-- The executor of an accepted unit with bodies of fewer than `2 ^ 31` instructions implements the
contract of the unit's shape, whatever the host class is and whichever number the version has.  If
different methods with bodies are different members of it and no constructor is static, it is
accepted itself.  Then each of its methods takes over from the method that it was compiled from:
the receiver has become the first parameter, and the parameters fill the local slots that they
fill in that method.  The static initializer is the exception: it takes what it declares and no
receiver, even if it is not declared static. -/
theorem executor_conforms_and_verifies {u : TypeUnit} (verified : u.verify = .ok ())
    (short : ∀ m ∈ u.methods, m.code.length < UInt32.size / 2) {ctx : ExecutorContext}
    (shaped : TypeShape.extract u = .ok ctx.live) (options : Options) (names : NameTable)
    (number : Nat) :
    let executor := (ctx.compile options names number u).1
    checkConformity (contractUnit ctx.typeName number ctx.live) executor = .ok () ∧
      ((∀ a ∈ u.bodied, ∀ b ∈ u.bodied,
          executorKey ctx.typeName (.ofDef a) = executorKey ctx.typeName (.ofDef b) → a = b) →
        (∀ m ∈ u.methods, m.isConstructor = true → m.isStatic = false) →
        executor.verify = .ok () ∧
          List.Forall₂ (fun origin compiled =>
            compiled.key = executorKey ctx.typeName (.ofDef origin) ∧
              TakesOver ctx.typeName origin compiled ∧
              compiled.paramSlots =
                if origin.isStaticInit then origin.sig.arity else origin.paramSlots)
            u.bodied executor.methods) := by
  have live := TypeShape.eq_ofUnit shaped
  refine ⟨?_, fun apart receives =>
    ⟨ExecutorContext.verify_executorUnit verified short live apart receives, ?_⟩⟩
  · rw [live]
    exact ExecutorContext.checkConformity_executorUnit verified live options _ number
  · refine List.Forall₂.imp (fun origin compiled made => ?_)
      (ExecutorContext.takesOver_methods verified live receives)
    exact ⟨made.1, made.2, made.2.paramSlots⟩

namespace Compiling

/-- A type with a constructor, a method of either kind and a static initializer. -/
def unit : TypeUnit :=
  (((((TypeUnit.named "app.T").addField ⟨"n", .int, .staticBit, none, []⟩).addConstructor .void
    [.ret]).addMethod (.make "m" ⟨[.int], .int⟩ .publicBit [.load 1, .retValue])).addMethod
      (.make "s" ⟨[.int], .int⟩ (.publicBit ||| .staticBit) [.load 0, .retValue])).addStaticInit
        [.constInt 1, .access .putStatic ⟨"app.T", "n", .int⟩, .ret]

/-- A type whose static initializer is declared as if it had a receiver. -/
def initialized : TypeUnit :=
  (TypeUnit.named "app.T").addMethod (.make staticInitName .void .publicBit [.load 0, .pop, .ret])

/-- What the executor of a unit is compiled for, when the host class has no members. -/
def context (u : TypeUnit) : ExecutorContext where
  typeName := "app.T"
  typeId := 0
  host := Class.fresh 0 0 (.plain (TypeUnit.named "app.T") none []) none []
  live := .ofUnit u

def options : Options := { included := ["app.*"] }

set_option maxRecDepth 100000 in
theorem facts : (∀ m ∈ unit.methods, m.code.length < UInt32.size / 2) ∧
    (∀ a ∈ unit.bodied, ∀ b ∈ unit.bodied,
      executorKey "app.T" (.ofDef a) = executorKey "app.T" (.ofDef b) → a = b) ∧
    (∀ m ∈ unit.methods, m.isConstructor = true → m.isStatic = false) ∧
    (unit.bodied.map fun m => if m.isStaticInit then m.sig.arity else m.paramSlots) =
      [1, 2, 1, 0] ∧
    ((context unit).compile options {} 1 unit).1.methods.map (fun m => (m.name, m.sig.params)) =
      [("___init___", [.ref "app.T"]), ("m", [.ref "app.T", .int]), ("s", [.int]),
        ("___clinit___", [])] := by
  decide +kernel

end Compiling

open Compiling in
/-- The executor of a type with methods of every kind conforms, is accepted, and its methods have
the parameter slots of the type's. -/
theorem executor_conforms_and_verifies_compiling :
    unit.verify = .ok () ∧ TypeShape.extract unit = .ok (context unit).live ∧
      checkConformity (contractUnit "app.T" 1 (.ofUnit unit))
        ((context unit).compile options {} 1 unit).1 = .ok () ∧
      ((context unit).compile options {} 1 unit).1.verify = .ok () ∧
      ((context unit).compile options {} 1 unit).1.methods.map (fun m => (m.name, m.sig.params)) =
        [("___init___", [.ref "app.T"]), ("m", [.ref "app.T", .int]), ("s", [.int]),
          ("___clinit___", [])] ∧
      ((context unit).compile options {} 1 unit).1.methods.map MethodDef.paramSlots =
        [1, 2, 1, 0] := by
  obtain ⟨short, apart, receives, slots, members⟩ := facts
  have verified : unit.verify = .ok () := by rfl
  have shaped : TypeShape.extract unit = .ok (context unit).live := by rfl
  obtain ⟨conforms, rest⟩ := executor_conforms_and_verifies verified short shaped options {} 1
  obtain ⟨accepted, takeOver⟩ := rest apart receives
  have same : ((context unit).compile options {} 1 unit).1.methods.map MethodDef.paramSlots =
      unit.bodied.map fun m => if m.isStaticInit then m.sig.arity else m.paramSlots := by
    rw [← List.forall₂_eq_eq_eq, List.forall₂_map_left_iff, List.forall₂_map_right_iff]
    exact (takeOver.imp fun origin compiled made => made.2.2).flip
  exact ⟨verified, shaped, conforms, accepted, members, same.trans slots⟩

open Compiling in
/-- A static initializer that is declared to have a receiver loses its slot in the executor. -/
theorem initializer_loses_receiver :
    ¬ ∀ (u : TypeUnit) (ctx : ExecutorContext) (options : Options) (names : NameTable)
      (number : Nat), u.verify = .ok () →
      (∀ m ∈ u.methods, m.code.length < UInt32.size / 2) →
      ctx.typeName = u.name → TypeShape.extract u = .ok ctx.live →
      (∀ a ∈ u.bodied, ∀ b ∈ u.bodied,
        executorKey ctx.typeName (.ofDef a) = executorKey ctx.typeName (.ofDef b) → a = b) →
      (∀ m ∈ u.methods, m.isConstructor = true → m.isStatic = false) →
      (ctx.compile options names number u).1.verify = .ok () ∧
        (ctx.compile options names number u).1.methods.map MethodDef.paramSlots =
          u.bodied.map MethodDef.paramSlots := by
  intro matching
  have same := (matching initialized (context initialized) options {} 1 (by rfl) (by decide) rfl
    (by rfl) (by decide) (by decide)).2
  exact absurd same (by decide)

end LiveUpdate
