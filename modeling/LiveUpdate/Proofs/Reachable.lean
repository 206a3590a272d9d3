import LiveUpdate.Proofs.Hosting
import LiveUpdate.Proofs.Reloading
import LiveUpdate.Scope.Basic

/-!
# Reachable engines

An engine is reachable when operations of scopes lead to it from the empty engine.  An
operation counts whether it succeeds or fails.  Each of them is a series of edits, so what
edits preserve holds of every reachable engine.
-/

set_option autoImplicit false

namespace LiveUpdate

open Exec

namespace Reflect

section Metadata

/-- The metadata of a type is what is remembered of its version, or else it is made and remembered
from now on. -/
theorem metadata_apply {e : Engine} {s : ScopeRef} {typeName : String} {c : ClassRef}
    (known : e.class? s typeName = some c) : metadata s typeName e =
      match remembered? e s typeName (versionOf e s c) with
      | some m => .ok m e
      | none =>
        match shapeOf e s c with
        | .ok shape => .ok (.ofShape shape (versionOf e s c))
          (e.withMetadata s (.ofShape shape (versionOf e s c)))
        | .error error => .error (.error error) e := by
  have found : e.requireClass s typeName = .ok c := by
    unfold Engine.requireClass
    rw [known]
  unfold metadata
  rw [bind_apply, check_apply, found]
  dsimp only
  rw [bind_apply, ask_apply]
  dsimp only
  rw [bind_apply, ask_apply]
  dsimp only
  cases remembered? e s typeName (versionOf e s c) with
  | some m => rfl
  | none =>
    dsimp only
    rw [bind_apply, check_apply]
    cases shapeOf e s c <;> rfl

variable (law : Law) (s : ScopeRef)

theorem obeys_metadata (typeName : String) :
    Exec.Obeys law.holds (metadata s typeName) fun _ => True := by
  intro e he
  cases known : e.class? s typeName with
  | none =>
    have missing : e.requireClass s typeName = .error (.classNotFound typeName) := by
      unfold Engine.requireClass
      rw [known]
    have unknown : metadata s typeName e = .error (.error (.classNotFound typeName)) e := by
      unfold metadata
      rw [bind_apply, check_apply, missing]
    exact .of_error unknown ⟨he, rfl⟩
  | some c =>
    have apply := metadata_apply known
    cases recalled : remembered? e s typeName (versionOf e s c) with
    | some m =>
      rw [recalled] at apply
      exact .of_ok apply ⟨⟨he, rfl⟩, True.intro⟩
    | none =>
      rw [recalled] at apply
      cases shaped : shapeOf e s c with
      | error error =>
        rw [shaped] at apply
        exact .of_error apply ⟨he, rfl⟩
      | ok shape =>
        rw [shaped] at apply
        exact .of_ok apply ⟨⟨law.reflects (.remembers known shaped) he, rfl⟩, True.intro⟩

theorem obeys_forget (typeName : String) :
    Exec.Obeys law.holds (forget s typeName : Run Unit) fun _ => True :=
  obeys_modify fun _ he => ⟨law.reflects (.forgets s typeName) he, rfl⟩

theorem obeys_searchField (name : String) (fuel : Nat) (met pending : List String) :
    Exec.Obeys law.holds (searchField s name fuel met pending) fun _ => True := by
  induction fuel generalizing met pending with
  | zero =>
    cases pending with
    | nil => exact obeys_pure True.intro
    | cons current pending => exact obeys_throw _
  | succ fuel ih =>
    cases pending with
    | nil => exact obeys_pure True.intro
    | cons current pending =>
      refine obeys_bind (obeys_metadata law s current) fun t _ => ?_
      split
      · exact obeys_pure True.intro
      · exact ih _ _

theorem obeys_collectMethods (fuel : Nat) (found : List MethodInfo) (met pending : List String) :
    Exec.Obeys law.holds (collectMethods s fuel found met pending) fun _ => True := by
  induction fuel generalizing found met pending with
  | zero =>
    cases pending with
    | nil => exact obeys_pure True.intro
    | cons current pending => exact obeys_throw _
  | succ fuel ih =>
    cases pending with
    | nil => exact obeys_pure True.intro
    | cons current pending =>
      exact obeys_bind (obeys_metadata law s current) fun t _ => ih _ _ _

end Metadata

section Uses

variable (law : Law) (fuel : Nat) (s : ScopeRef) (typeName name : String)

theorem obeys_liveField (receiver : Option Value) :
    Exec.Obeys law.holds (liveField s typeName name receiver) fun _ => True := by
  unfold liveField
  refine obeys_bind obeys_checked fun c _ =>
    obeys_bind (obeys_resolve fun _ _ _ _ => True.intro) fun found _ => ?_
  cases found with
  | none => exact obeys_fail _
  | some f =>
    dsimp only
    split
    · exact obeys_pure True.intro
    · split
      · exact obeys_ask_bind fun e _ => obeys_bind (Machine.obeys_checkReceiverClass _ typeName)
          fun _ _ => obeys_pure True.intro
      · exact obeys_fail _

theorem obeys_readField (receiver : Option Value) :
    Exec.Obeys law.holds (readField fuel s typeName name receiver) fun _ => True :=
  obeys_bind (obeys_liveField law s typeName name receiver) fun f _ =>
    Machine.obeys_readField (obeys_of law s fuel) f.1 f.2

theorem obeys_writeField (receiver : Option Value) (value : Value) :
    Exec.Obeys law.holds (writeField fuel s typeName name receiver value) fun _ => True :=
  obeys_bind (obeys_liveField law s typeName name receiver) fun f _ =>
    Machine.obeys_writeField (obeys_of law s fuel) f.1 f.2 value

theorem obeys_liveMethod (key : MemberKey) :
    Exec.Obeys law.holds (liveMethod s typeName key) fun found => found.2.Hosts law.runs := by
  have resolves (c : ClassRef) : Exec.Obeys law.holds (resolve fun e => e.resolveMethod s c key)
      fun found => ∀ live, found = some live → live.Hosts law.runs :=
    obeys_resolve fun e he found resolved live same => Law.hosts_resolved he (same ▸ resolved)
  unfold liveMethod
  refine obeys_bind obeys_checked fun c _ => obeys_bind (resolves c) fun found hosts => ?_
  split
  next live => exact obeys_pure (hosts live rfl)
  · exact obeys_fail _

theorem obeys_call (key : MemberKey) (args : List Value) :
    Exec.Obeys law.holds (call fuel s typeName key args) fun _ => True := by
  have hm := obeys_of law s fuel
  unfold call
  refine obeys_bind (obeys_liveMethod law s typeName key) fun found hosts => ?_
  dsimp only
  split
  · exact Machine.obeys_callResolved hm hosts _ _
  · refine obeys_bind obeys_examined fun o _ => obeys_ask_bind fun e _ =>
      obeys_bind (Machine.obeys_checkReceiverClass _ _) fun _ _ => ?_
    split
    · exact Machine.obeys_callResolved hm hosts _ _
    · exact Machine.obeys_callVirtual hm _ _ _

theorem obeys_newInstance (sig : MethodSig) (args : List Value) :
    Exec.Obeys law.holds (newInstance fuel s typeName sig args) fun _ => True := by
  have hm := obeys_of law s fuel
  unfold newInstance
  exact obeys_bind (obeys_liveMethod law s typeName _) fun found hosts =>
    obeys_bind (Machine.obeys_instantiate hm typeName) fun o _ =>
      obeys_bind (obeys_discard (Machine.obeys_callResolved hm hosts _ _)) fun _ _ =>
        obeys_pure True.intro

end Uses

end Reflect

namespace Scope

open Reflect

section Uses

variable (law : Law) (fuel : Nat) (s : ScopeRef)

theorem obeys_invokeVirtual (receiver : Value) (key : MemberKey) (args : List Value) :
    Exec.Obeys law.holds (invokeVirtual fuel s receiver key args) fun _ => True := by
  have hm := obeys_of law s fuel
  unfold invokeVirtual
  split
  · refine obeys_ask_bind fun e _ =>
      obeys_bind (Machine.obeys_dispatchVirtual hm _ _ _) fun found _ => ?_
    split
    · exact obeys_pure True.intro
    · refine obeys_ask_bind fun e _ =>
        obeys_bind (obeys_resolve fun _ _ _ _ => True.intro) fun live _ => ?_
      split
      · split
        · exact obeys_fail _
        · exact obeys_fail _
      · exact obeys_fail _
  · exact obeys_fail _

theorem obeys_invokeStatic (typeName : String) (key : MemberKey) (args : List Value) :
    Exec.Obeys law.holds (invokeStatic fuel s typeName key args) fun _ => True := by
  have hm := obeys_of law s fuel
  unfold invokeStatic
  refine obeys_bind (obeys_liveMethod law s typeName key) fun found hosts => ?_
  dsimp only
  split
  · exact Machine.obeys_callResolved hm hosts _ _
  · exact obeys_bind (obeys_fail _) fun _ (_ : True) => Machine.obeys_callResolved hm hosts _ _

theorem obeys_requireStatic (typeName name : String) :
    Exec.Obeys law.holds (requireStatic s typeName name) fun _ => True := by
  unfold requireStatic
  refine obeys_bind obeys_checked fun c _ =>
    obeys_bind (obeys_resolve fun _ _ _ _ => True.intro) fun found _ => ?_
  split
  · split
    · exact obeys_pure True.intro
    · exact obeys_fail _
  · exact obeys_fail _

theorem obeys_classNameOf (receiver : Value) (name : String) :
    Exec.Obeys law.holds (classNameOf receiver name) fun _ => True := by
  unfold classNameOf
  split
  · exact obeys_ask fun _ _ => True.intro
  · exact obeys_fail _

end Uses

end Scope

/-- A use of a scope from outside. -/
inductive Scope.Use
  | invokeStatic (typeName : String) (key : MemberKey) (args : List Value)
  | invokeVirtual (receiver : Value) (key : MemberKey) (args : List Value)
  | newInstance (typeName : String) (sig : MethodSig) (args : List Value)
  | getField (receiver : Value) (name : String)
  | setField (receiver : Value) (name : String) (value : Value)
  | getStatic (typeName name : String)
  | setStatic (typeName name : String) (value : Value)
  /-- A call by reflection. -/
  | call (typeName : String) (key : MemberKey) (args : List Value)
  | readField (typeName name : String) (receiver : Option Value)
  | writeField (typeName name : String) (receiver : Option Value) (value : Value)
deriving Inhabited

/-- Make use of a scope.  A write gives null. -/
def Scope.Use.perform (fuel : Nat) (s : ScopeRef) : Scope.Use → Run Value
  | invokeStatic typeName key args => Scope.invokeStatic fuel s typeName key args
  | invokeVirtual receiver key args => Scope.invokeVirtual fuel s receiver key args
  | newInstance typeName sig args => Reflect.newInstance fuel s typeName sig args
  | getField receiver name => Scope.getField fuel s receiver name
  | setField receiver name value => do
    Scope.setField fuel s receiver name value
    return .null
  | getStatic typeName name => Scope.getStatic fuel s typeName name
  | setStatic typeName name value => do
    Scope.setStatic fuel s typeName name value
    return .null
  | call typeName key args => Reflect.call fuel s typeName key args
  | readField typeName name receiver => Reflect.readField fuel s typeName name receiver
  | writeField typeName name receiver value => do
    Reflect.writeField fuel s typeName name receiver value
    return .null

/-- A use of a scope obeys every law. -/
theorem Scope.Use.obeys_perform (law : Law) (fuel : Nat) (s : ScopeRef) (use : Scope.Use) :
    Exec.Obeys law.holds (use.perform fuel s) fun _ => True := by
  cases use with
  | invokeStatic => exact obeys_invokeStatic _ _ _ _ _ _
  | invokeVirtual => exact obeys_invokeVirtual _ _ _ _ _ _
  | newInstance => exact Reflect.obeys_newInstance _ _ _ _ _ _
  | getField =>
    exact obeys_bind (obeys_classNameOf _ _ _) fun _ _ => Reflect.obeys_readField _ _ _ _ _ _
  | setField =>
    exact obeys_bind (obeys_bind (obeys_classNameOf _ _ _) fun _ _ =>
      Reflect.obeys_writeField _ _ _ _ _ _ _) fun _ _ => obeys_pure True.intro
  | getStatic =>
    exact obeys_bind (obeys_requireStatic _ _ _ _) fun _ _ => Reflect.obeys_readField _ _ _ _ _ _
  | setStatic =>
    exact obeys_bind (obeys_bind (obeys_requireStatic _ _ _ _) fun _ _ =>
      Reflect.obeys_writeField _ _ _ _ _ _ _) fun _ _ => obeys_pure True.intro
  | call => exact Reflect.obeys_call _ _ _ _ _ _
  | readField => exact Reflect.obeys_readField _ _ _ _ _ _
  | writeField =>
    exact obeys_bind (Reflect.obeys_writeField _ _ _ _ _ _ _) fun _ _ => obeys_pure True.intro

namespace Engine

/-- One operation, which may succeed or fail. -/
inductive Operation (e : Engine) : Engine → Prop
  | newRegistry : Operation e ((Scope.newRegistry : Run RegistryRef).final e)
  | openWith (options : Options) (registry : RegistryRef) (known : registry < e.registries.size) :
      Operation e ((Scope.openWith options registry).final e)
  | number (s : ScopeRef) (name : String) :
      Operation e ((Scope.idFor s name : Run TypeId).final e)
  | define (fuel : Nat) (s : ScopeRef) (data : List UInt8) (scope_lt : s < e.scopes.size) :
      Operation e ((Scope.define fuel s data).final e)
  | load (fuel : Nat) (t : TypeRef) (stamp : String) (data : List UInt8)
      (type_lt : t < e.types.size) : Operation e ((ManagedType.load fuel t stamp data).final e)
  | addObserver (s : ScopeRef) (observer : Observer) :
      Operation e ((Scope.addObserver s observer : Run Nat).final e)
  | close (s : ScopeRef) : Operation e ((Scope.close s : Run Unit).final e)
  | superType (t : TypeRef) : Operation e ((Scope.superType t : Run (Option TypeRef)).final e)
  | metadata (s : ScopeRef) (typeName : String) :
      Operation e ((Reflect.metadata s typeName).final e)
  | forget (s : ScopeRef) (typeName : String) :
      Operation e ((Reflect.forget s typeName : Run Unit).final e)
  | searchField (s : ScopeRef) (name : String) (fuel : Nat) (met pending : List String) :
      Operation e ((Reflect.searchField s name fuel met pending).final e)
  | collectMethods (s : ScopeRef) (fuel : Nat) (found : List MethodInfo)
      (met pending : List String) :
      Operation e ((Reflect.collectMethods s fuel found met pending).final e)
  | use (fuel : Nat) (s : ScopeRef) (use : Scope.Use) : Operation e ((use.perform fuel s).final e)

/-- An engine that operations lead to from the empty one. -/
def Reachable : Engine → Prop := Relation.ReflTransGen Operation {}

theorem leads_superType (e : Engine) (t : TypeRef) :
    e.Leads (Scope.superType t : Run (Option TypeRef)) fun _ _ => True := by
  unfold Scope.superType
  refine leads_ask_bind ?_
  split
  · exact leads_pure trivial
  · exact leads_ask_bind (leads_modify_bind (Edit.remember t _).edits (leads_pure trivial))

/-- An operation is a series of edits. -/
theorem Operation.edits {e e' : Engine} (operation : e.Operation e') (grounded : e.Grounded) :
    e.Edits e' := by
  cases operation with
  | newRegistry => exact Edit.addRegistry.edits
  | openWith options registry known =>
    refine (leads_ofResult_bind (fun filter usable => ?_) :
      e.Leads (Scope.openWith options registry) fun _ _ => True).edits
    exact ⟨(Edit.openScope options filter registry usable known).edits, fun _ _ _ => trivial⟩
  | number s name => exact (Edit.number s name).edits
  | define fuel s data scope_lt => exact (Scope.leads_define grounded scope_lt fuel data).edits
  | load fuel t stamp data type_lt =>
    exact (ManagedType.leads_load grounded type_lt fuel stamp data).edits
  | addObserver s observer => exact (Edit.observe s observer).edits
  | close s => exact (Edit.close s).edits
  | superType t => exact (leads_superType e t).edits
  | metadata s typeName => exact (leads_of_obeys fun law => Reflect.obeys_metadata law s typeName).edits
  | forget s typeName => exact (leads_of_obeys fun law => Reflect.obeys_forget law s typeName).edits
  | searchField s name fuel met pending =>
    exact (leads_of_obeys fun law => Reflect.obeys_searchField law s name fuel met pending).edits
  | collectMethods s fuel found met pending =>
    exact (leads_of_obeys fun law =>
      Reflect.obeys_collectMethods law s fuel found met pending).edits
  | use fuel s use => exact (leads_of_obeys fun law => use.obeys_perform law fuel s).edits

theorem grounded_empty : Grounded {} where
  registry s lt := by cases lt
  class_lt s name c found := by
    have none : class? {} s name = none := rfl
    rw [none] at found
    cases found
  parent_lt c lt := by cases lt
  hosted t lt := by cases lt

/-- A reachable engine comes about by edits, and all that it speaks of exists. -/
theorem Reachable.edits {e : Engine} (reachable : e.Reachable) :
    Edits {} e ∧ e.Grounded := by
  induction reachable with
  | refl => exact ⟨.refl, grounded_empty⟩
  | tail _ operation ih =>
    have edits := operation.edits ih.2
    exact ⟨ih.1.trans edits, Edits.grounded edits ih.2⟩

/-- Managed types of reachable engines are chronicled. -/
theorem Reachable.chronicled {e : Engine} {t : TypeRef} (reachable : e.Reachable) (managed : e.IsManaged t) :
    e.Chronicled t := by
  obtain ⟨edits, -⟩ := reachable.edits
  exact Edits.chronicled edits grounded_empty (fun t held => by cases held.1) t managed

theorem Reachable.grounded {e : Engine} (reachable : e.Reachable) : e.Grounded :=
  reachable.edits.2

/-- In a reachable engine the tables of scopes are true. -/
theorem Reachable.housed {e : Engine} (reachable : e.Reachable) : e.Housed :=
  Edits.housed reachable.edits.1 grounded_empty housed_empty

theorem Reachable.step {e e' : Engine} (reachable : e.Reachable) (operation : e.Operation e') :
    e'.Reachable :=
  Relation.ReflTransGen.tail reachable operation

/-- The engine in which one scope was opened. -/
def opened (options : Options) : Engine :=
  (Scope.openWith options 0).final ((Scope.newRegistry : Run RegistryRef).final {})

/-- The engine in which a unit was then defined in the first scope. -/
def defining (e : Engine) (fuel : Nat) (u : TypeUnit) : Engine :=
  (Scope.define fuel 0 u.encode).final e

/-- The engine in which a unit was then loaded as a version of a managed type. -/
def reloading (e : Engine) (fuel : Nat) (t : TypeRef) (stamp : String) (u : TypeUnit) : Engine :=
  (ManagedType.load fuel t stamp u.encode).final e

theorem reachable_opened (options : Options) : (opened options).Reachable := by
  have first : Reachable ((Scope.newRegistry : Run RegistryRef).final {}) :=
    Relation.ReflTransGen.single .newRegistry
  exact first.step (.openWith options 0 Nat.zero_lt_one)

theorem Reachable.defining {e : Engine} (reachable : e.Reachable) (fuel : Nat) (u : TypeUnit)
    (scope_lt : 0 < e.scopes.size) : (e.defining fuel u).Reachable :=
  reachable.step (.define fuel 0 u.encode scope_lt)

theorem Reachable.reloading {e : Engine} (reachable : e.Reachable) (fuel : Nat) (t : TypeRef)
    (stamp : String) (u : TypeUnit) (type_lt : t < e.types.size) :
    (e.reloading fuel t stamp u).Reachable :=
  reachable.step (.load fuel t stamp u.encode type_lt)

end Engine

end LiveUpdate
