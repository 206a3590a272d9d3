import LiveUpdate.Proofs.Routing
import LiveUpdate.Proofs.Survival

/-!
# What a member means stays what it is

As long as the types of a scope have the live versions that they have, an engine only grows:
classes, names and types are added to it.  A class that a scope knows then keeps the live
supertypes that it has and the methods that it declares.  So a search that has found a method
finds it again, and the host links it to the same method.  A search that has found nothing, or
has failed, may find something afterwards.
-/

set_option autoImplicit false

namespace LiveUpdate

open Exec

namespace Engine

variable {e e' : Engine} {s : ScopeRef} {c : ClassRef} {key : MemberKey}

/-- A search along a chain looks into the first class and then follows its live supertype. -/
theorem findSome?_chain_succ {α : Type} (e : Engine) (s : ScopeRef) (n : Nat) (c : ClassRef)
    (f : ClassRef → Option α) :
    (e.liveChainWithin s (n + 1) c).findSome? f = match f c with
      | some a => .ok (some a)
      | none => match e.liveParent s c with
        | .error name => .error (.error (.classNotFound name))
        | .ok none => .ok none
        | .ok (some p) => (e.liveChainWithin s n p).findSome? f := by
  unfold LiveChain.findSome?
  rw [liveChainWithin]
  cases e.liveParent s c with
  | error name => cases found : f c <;> simp [found]
  | ok parent =>
    cases parent with
    | none => cases found : f c <;> simp [found]
    | some p => cases found : f c <;> simp [found]

/-- An engine has only grown, and the types of a scope have the live versions that they had. -/
structure Steady (e : Engine) (s : ScopeRef) (e' : Engine) : Prop where
  grows : e.Grows e'
  live : ∀ id t, e.typeWithId? s id = some t → (e'.typeAt t).live = (e.typeAt t).live

/-- A class that was there has what it was defined with. -/
theorem Grows.class_eq (grows : e.Grows e') (lt : c < e.classes.size) {α : Type}
    (get : Class → α) (kept : ∀ cls, get cls.skeleton = get cls) :
    get (e'.classAt c) = get (e.classAt c) := by
  rw [← kept, grows.classAt c lt, kept]

/-- A class of a scope belongs to the managed type that it belonged to. -/
theorem Grows.managedOf? (grows : e.Grows e') (housed : e.Housed) (home : e.Homes s c) :
    e'.managedOf? s c = e.managedOf? s c := by
  obtain ⟨name, known⟩ := home
  obtain ⟨spec, described, -, -, types⟩ := housed.classes s name c known
  unfold Engine.managedOf?
  rw [(described.of_grows grows).managed_eq, described.managed_eq]
  cases managed : spec.managed with
  | none => rfl
  | some id =>
    obtain ⟨t, registered, -⟩ := types id managed
    rw [Option.bind_some, Option.bind_some, registered]
    exact grows.typeWithId? (scope_lt_of_class? known) registered

section Hosts

variable (grows : e.Grows e') (lineage : e.Lineage) (lt : c < e.classes.size)
include grows lineage lt

/-- The classes that the host searches for a method are the same. -/
theorem Grows.hostMethod? (key : MemberKey) : e'.hostMethod? c key = e.hostMethod? c key := by
  have declares (d : ClassRef) (before : d ≤ c) :
      (e'.classAt d).method? key = (e.classAt d).method? key :=
    grows.class_eq (Nat.lt_of_le_of_lt before lt) (·.method? key) fun _ => rfl
  unfold Engine.hostMethod?
  rw [grows.class_eq lt Class.methodOrder fun _ => rfl]
  refine findSome?_congr fun d mem => ?_
  rw [declares d]
  split at mem
  · exact Nat.le_of_eq (List.mem_singleton.1 mem)
  · exact lineage.methodOrder_le d mem

omit grows lt in
theorem Lineage.hostMethod?_le {found : ClassRef × Method}
    (linked : e.hostMethod? c key = some found) : found.1 ≤ c := by
  obtain ⟨d, mem, here⟩ := List.exists_of_findSome?_eq_some linked
  obtain ⟨m, -, rfl⟩ := Option.map_eq_some_iff.1 here
  split at mem
  · exact Nat.le_of_eq (List.mem_singleton.1 mem)
  · exact lineage.methodOrder_le d mem

/-- What the host links a method to is the same class still. -/
theorem Grows.linked {d : ClassRef} {m : Method} (linked : e.hostMethod? c key = some (d, m))
    {α : Type} (get : Class → α) (kept : ∀ cls, get cls.skeleton = get cls) :
    get (e'.classAt d) = get (e.classAt d) :=
  grows.class_eq (Nat.lt_of_le_of_lt (lineage.hostMethod?_le linked) lt) get kept

theorem Grows.interfaceMethod? (key : MemberKey) :
    e'.interfaceMethod? c key = e.interfaceMethod? c key := by
  unfold Engine.interfaceMethod?
  rw [grows.hostMethod? lineage lt]
  cases linked : e.hostMethod? c key with
  | none => rfl
  | some found =>
    dsimp only
    rw [grows.linked lineage lt linked Class.isInterface fun _ => rfl,
      grows.linked lineage lt linked Class.name fun _ => rfl]

theorem Grows.linksTo (kind : InvokeKind) (key : MemberKey) (live : LiveMethod) :
    Machine.linksTo e' c kind key live = Machine.linksTo e c kind key live := by
  unfold Machine.linksTo
  rw [grows.hostMethod? lineage lt]
  cases linked : e.hostMethod? c key with
  | none => rfl
  | some found =>
    dsimp only
    rw [nameOf, grows.linked lineage lt linked Class.name fun _ => rfl]
    rfl

end Hosts

section Steady

variable (steady : e.Steady s e') (housed : e.Housed)
include steady housed

/-- A class of the scope has the live supertype that it had. -/
theorem Steady.liveParent (grounded : e.Grounded) (home : e.Homes s c) {parent : Option ClassRef}
    (found : e.liveParent s c = .ok parent) : e'.liveParent s c = .ok parent := by
  obtain ⟨name, known⟩ := home
  have lt := grounded.class_lt s name c known
  unfold Engine.liveParent at found ⊢
  rw [steady.grows.managedOf? housed ⟨name, known⟩]
  cases managed : e.managedOf? s c with
  | none =>
    rw [managed] at found
    exact (congrArg Except.ok (steady.grows.parent lt)).trans found
  | some t =>
    rw [managed] at found
    obtain ⟨id, -, registered⟩ := Option.bind_eq_some_iff.1 managed
    dsimp only at found ⊢
    rw [steady.live id t registered]
    cases super : (e.typeAt t).live.shape.superName with
    | none =>
      rw [super] at found
      exact found
    | some superName =>
      rw [super] at found
      dsimp only at found ⊢
      cases above : e.class? s superName with
      | none =>
        rw [above] at found
        cases found
      | some p =>
        rw [above] at found
        rw [steady.grows.class? (scope_lt_of_class? above) above]
        exact found

/-- A class of the scope declares the methods that it declared. -/
theorem Steady.ownLiveMethod? (grounded : e.Grounded) (home : e.Homes s c) (key : MemberKey) :
    e'.ownLiveMethod? s key c = e.ownLiveMethod? s key c := by
  obtain ⟨name, known⟩ := home
  have lt := grounded.class_lt s name c known
  unfold Engine.ownLiveMethod?
  dsimp only
  rw [steady.grows.managedOf? housed ⟨name, known⟩,
    steady.grows.class_eq lt (·.method? key) fun _ => rfl,
    steady.grows.class_eq lt Class.name fun _ => rfl]
  cases managed : e.managedOf? s c with
  | none => rfl
  | some t =>
    obtain ⟨id, -, registered⟩ := Option.bind_eq_some_iff.1 managed
    dsimp only
    rw [steady.live id t registered]

/-- A search along the chain of a class comes to the end that it came to. -/
theorem Steady.findSome?_chain (grounded : e.Grounded) {α : Type} {f f' : ClassRef → Option α}
    (same : ∀ d, e.Homes s d → f' d = f d) {n n' : Nat} (le : n ≤ n') (home : e.Homes s c)
    {answer : Option α} (found : (e.liveChainWithin s n c).findSome? f = .ok answer) :
    (e'.liveChainWithin s n' c).findSome? f' = .ok answer := by
  induction n generalizing n' c with
  | zero => cases found
  | succ n ih =>
    obtain ⟨n', rfl⟩ : ∃ k, n' = k + 1 := ⟨n' - 1, by omega⟩
    rw [findSome?_chain_succ] at found ⊢
    rw [same c home]
    cases own : f c with
    | some a =>
      rw [own] at found
      exact found
    | none =>
      rw [own] at found
      dsimp only at found ⊢
      cases above : e.liveParent s c with
      | error name =>
        rw [above] at found
        cases found
      | ok parent =>
        rw [above] at found
        rw [steady.liveParent housed grounded home above]
        cases parent with
        | none => exact found
        | some p =>
          exact ih (Nat.le_of_succ_le_succ le) (housed.liveParent_homes home above) found

/-- A member that means a method for a class of the scope goes on to mean it. -/
theorem Steady.resolveMethod (grounded : e.Grounded) (lineage : e.Lineage) (home : e.Homes s c)
    {live : LiveMethod} (found : e.resolveMethod s c key = .ok (some live)) :
    e'.resolveMethod s c key = .ok (some live) := by
  have own (d : ClassRef) (home : e.Homes s d) := steady.ownLiveMethod? housed grounded home key
  have interface : e'.interfaceMethod? c key = e.interfaceMethod? c key := by
    obtain ⟨name, known⟩ := home
    exact steady.grows.interfaceMethod? lineage (grounded.class_lt s name c known) key
  unfold Engine.resolveMethod at found ⊢
  split at found
  next special =>
    rw [if_pos special, own c home]
    exact found
  next inherited =>
    rw [if_neg inherited]
    obtain ⟨answer, search, rest⟩ := bind_eq_ok.1 found
    have longer : e.classes.size + 1 ≤ e'.classes.size + 1 :=
      Nat.succ_le_succ steady.grows.classes
    refine bind_eq_ok.2 ⟨answer, steady.findSome?_chain housed grounded own longer home search, ?_⟩
    rw [interface]
    exact rest

end Steady

section During

/-! Running code changes nothing in the meaning of a member. -/

theorem resolveMethod_skeleton (e : Engine) (s : ScopeRef) (c : ClassRef) (key : MemberKey) :
    e.skeleton.resolveMethod s c key = e.resolveMethod s c key := by
  have own : e.skeleton.ownLiveMethod? s key = e.ownLiveMethod? s key := by
    funext d
    unfold ownLiveMethod?
    simp only [managedOf?_skeleton, classAt_skeleton, typeAt_skeleton]
    rfl
  have interface : e.skeleton.interfaceMethod? c key = e.interfaceMethod? c key := by
    unfold interfaceMethod?
    simp only [hostMethod?_skeleton, classAt_skeleton]
    rfl
  unfold resolveMethod
  rw [liveChain_skeleton, own, interface]

variable (during : e.During e')
include during

theorem During.resolveMethod (s : ScopeRef) (c : ClassRef) (key : MemberKey) :
    e'.resolveMethod s c key = e.resolveMethod s c key := by
  obtain ⟨depth, same⟩ := during
  rw [← resolveMethod_skeleton, same, resolveMethod_skeleton]
  exact resolveMethod_setDepth e s depth c key

theorem During.linksTo (c : ClassRef) (kind : InvokeKind) (key : MemberKey) (live : LiveMethod) :
    Machine.linksTo e' c kind key live = Machine.linksTo e c kind key live := by
  have names (d : ClassRef) : e'.nameOf d = e.nameOf d := by
    have named := congrArg Class.name (during.classAt d)
    exact named
  have host : e'.hostMethod? c key = e.hostMethod? c key := by
    obtain ⟨depth, same⟩ := during
    exact hostMethod?_of_skeleton_eq same c key
  unfold Machine.linksTo
  rw [host]
  cases e.hostMethod? c key with
  | none => rfl
  | some found =>
    dsimp only
    rw [names]

end During

end Engine

end LiveUpdate
