import LiveUpdate.Proofs.Interfaces
import LiveUpdate.Proofs.LinkedFields

/-!
# Methods that a live version no longer declares

A method is looked for in a class, then in its supertype, then in its interfaces.  The engine
does so along the chain of live supertypes, but leaves the interfaces to the host, and only if
the chain has nothing.  The host begins with the classes again, and there it still has the
methods that they were defined with.  So a method that a class declared once, and that nothing
in the chain declares now, hides what an interface declares.
-/

set_option autoImplicit false

namespace LiveUpdate

/-- A managed type has, in its live version, the supertype and the interfaces of its first one. -/
structure ManagedType.KeepsSupertypes (t : ManagedType) : Prop where
  superName : t.live.unit.superName = t.first.unit.superName
  interfaces : t.live.unit.interfaces = t.first.unit.interfaces

/-- A search that does not fail in any place ends as one that cannot fail. -/
theorem findSomeM?_eq_ok {ε α β : Type} {f : α → Except ε (Option β)} {g : α → Option β}
    {places : List α} (answers : ∀ a ∈ places, f a = .ok (g a)) :
    places.findSomeM? f = .ok (places.findSome? g) := by
  induction places with
  | nil => rfl
  | cons a rest ih =>
    unfold List.findSomeM?
    rw [answers a List.mem_cons_self, List.findSome?_cons]
    cases g a with
    | some b => rfl
    | none => exact ih fun b mem => answers b (List.mem_cons_of_mem _ mem)

namespace Engine

section Lookup

variable (e : Engine) (s : ScopeRef)

/-- The interfaces that a class implements now, as far as they are defined. -/
def liveInterfaces (c : ClassRef) : List ClassRef :=
  match e.managedOf? s c with
  | none => (e.classAt c).interfaces
  | some t => (e.typeAt t).live.unit.interfaces.filterMap (e.class? s)

/-- The method that a class has under a key where every class declares what it declares now: its
own, else one of its supertype, else one of its interfaces, going up a number of times. -/
def lookupWithin (key : MemberKey) : Nat → ClassRef → Except (Stop RunError) (Option LiveMethod)
  | 0, _ => .error .outOfFuel
  | n + 1, c =>
    match e.ownLiveMethod? s key c with
    | some m => .ok (some m)
    | none =>
      match e.liveParent s c with
      | .error name => .error (.error (.classNotFound name))
      | .ok parent => (parent.toList ++ e.liveInterfaces s c).findSomeM? (lookupWithin key n)

/-- The method that a class has under a key where every class declares what it declares now. -/
def lookupMethod (c : ClassRef) (key : MemberKey) : Except (Stop RunError) (Option LiveMethod) :=
  e.lookupWithin s key (e.classes.size + 1) c

/-- Nothing in the chain of a class declares a method now, and something else above it does.
Either that is no interface, or a class that is searched before it was defined with the method. -/
def Hides (c : ClassRef) (key : MemberKey) : Prop :=
  (∀ d ∈ c :: (e.classAt c).superclasses, e.ownLiveMethod? s key d = none) ∧
  ∃ before d after, (e.classAt c).methodOrder = before ++ d :: after ∧
    (∀ b ∈ before, e.ownLiveMethod? s key b = none) ∧ (e.ownLiveMethod? s key d).isSome ∧
    ((e.classAt d).isInterface = false ∨ ∃ b ∈ before, ((e.classAt b).method? key).isSome)

end Lookup

variable {e : Engine} {s : ScopeRef} {c d : ClassRef} {t : TypeRef} {key : MemberKey}
  {live : LiveMethod}

/-- A method under a key that is inherited is looked for in the chain, and then in what the host
finds. -/
theorem resolveMethod_eq (plain : key.isConstructor = false) (plain' : key.isStaticInit = false) :
    e.resolveMethod s c key = match (e.liveChain s c).findSome? (e.ownLiveMethod? s key) with
      | .ok none => .ok (e.interfaceMethod? c key)
      | ended => ended := by
  unfold resolveMethod
  rw [plain, plain']
  simp only [Bool.or_self, Bool.false_eq_true, if_false]
  cases (e.liveChain s c).findSome? (e.ownLiveMethod? s key) with
  | error stop => rfl
  | ok method? => cases method? <;> rfl

/-- Where the chain has an answer, or fails, the search ends with it. -/
theorem resolveMethod_of_chain (plain : key.isConstructor = false)
    (plain' : key.isStaticInit = false)
    (ended : (e.liveChain s c).findSome? (e.ownLiveMethod? s key) ≠ .ok none) :
    e.resolveMethod s c key = (e.liveChain s c).findSome? (e.ownLiveMethod? s key) := by
  rw [resolveMethod_eq plain plain']
  split
  next nothing => exact absurd nothing ended
  next => rfl

/-- Where the chain has nothing, the class that it begins with has nothing. -/
theorem eq_none_of_chain {α : Type} {f : ClassRef → Option α}
    (missed : (e.liveChain s c).findSome? f = .ok none) : f c = none := by
  rw [liveChain, findSome?_chain_succ] at missed
  cases own : f c with
  | none => rfl
  | some a =>
    rw [own] at missed
    cases missed

/-- The lookup ends so too. -/
theorem lookupWithin_of_chain (n : Nat) (c : ClassRef)
    (ended : (e.liveChainWithin s n c).findSome? (e.ownLiveMethod? s key) ≠ .ok none) :
    e.lookupWithin s key n c = (e.liveChainWithin s n c).findSome? (e.ownLiveMethod? s key) := by
  induction n generalizing c with
  | zero => rfl
  | succ n ih =>
    rw [findSome?_chain_succ] at ended ⊢
    unfold lookupWithin
    cases own : e.ownLiveMethod? s key c with
    | some m => rfl
    | none =>
      rw [own] at ended
      cases above : e.liveParent s c with
      | error name => rfl
      | ok parent =>
        rw [above] at ended
        cases parent with
        | none => exact absurd rfl ended
        | some p =>
          dsimp only at ended ⊢
          rw [Option.toList_some, List.cons_append]
          unfold List.findSomeM?
          rw [ih p ended]
          cases found : (e.liveChainWithin s n p).findSome? (e.ownLiveMethod? s key) with
          | error stop => rfl
          | ok method? =>
            cases method? with
            | none => exact absurd found ended
            | some m => rfl

/-- A class whose live version has the interfaces of the first one implements what it was defined
to implement. -/
theorem Housed.liveInterfaces_of_keeps (housed : e.Housed) (home : e.Homes s c)
    (keeps : ∀ t, e.managedOf? s c = some t →
      (e.typeAt t).live.unit.interfaces = (e.typeAt t).first.unit.interfaces) :
    e.liveInterfaces s c = (e.classAt c).interfaces := by
  unfold liveInterfaces
  cases managed : e.managedOf? s c with
  | none => rfl
  | some t =>
    have hosted := housed.hosted_of_managedOf? home managed
    have scope := (housed.managed_of_managedOf? managed).2
    obtain ⟨names, parent, interfaces, -, -, links, described, -⟩ := hosted.form
    rw [scope] at links
    dsimp only
    rw [keeps t managed, described.interfaces_eq]
    have all := congrArg (List.filterMap id) links.interfaces
    rw [List.filterMap_map, List.filterMap_map] at all
    exact all.trans List.filterMap_some

/-- The live version of a type has the shape of its unit. -/
theorem Chronicled.live_shape (chronicled : e.Chronicled t) :
    (e.typeAt t).live.shape = .ofUnit (e.typeAt t).live.unit := by
  rcases chronicled.live_cases with ⟨-, isFirst⟩ | ⟨-, recorded⟩
  · rw [isFirst]
    exact TypeShape.eq_ofUnit chronicled.shaped
  · exact TypeShape.eq_ofUnit recorded.shaped

/-- A class and what it inherits from have the live supertypes and interfaces that they were
defined with. -/
def KeepsHierarchy (e : Engine) (s : ScopeRef) (c : ClassRef) : Prop :=
  ∀ d ∈ (e.classAt c).methodOrder, e.liveParent s d = .ok (e.classAt d).parent ∧
    e.liveInterfaces s d = (e.classAt d).interfaces

/-- Where all supertypes and interfaces were kept the lookup goes through the order of the host. -/
theorem Layered.lookupWithin_eq (layered : e.Layered) (housed : e.Housed) (home : e.Homes s c)
    (keeps : e.KeepsHierarchy s c) {n : Nat} (enough : c < n) :
    e.lookupWithin s key n c =
      .ok ((e.classAt c).methodOrder.findSome? (e.ownLiveMethod? s key)) := by
  induction c using Nat.strongRecOn generalizing n with
  | ind c ih =>
    obtain ⟨spec, described, above⟩ := layered.above housed home
    obtain ⟨n, rfl⟩ := Nat.exists_eq_succ_of_ne_zero (Nat.ne_of_gt (Nat.zero_lt_of_lt enough))
    have enough : c ≤ n := Nat.le_of_lt_succ enough
    obtain ⟨parent, interfaces⟩ := keeps c (described.methodOrder_eq ▸ mem_order.2 (.inl rfl))
    have parts (d : ClassRef) (mem : d ∈ spec.parent.toList ++ spec.interfaces) :
        e.lookupWithin s key n d =
          .ok ((e.classAt d).methodOrder.findSome? (e.ownLiveMethod? s key)) := by
      obtain ⟨lt, home_d⟩ := above d mem
      refine ih d lt home_d (fun b below => keeps b ?_) (Nat.lt_of_lt_of_le lt enough)
      rw [described.methodOrder_eq]
      exact mem_order.2 (.inr ⟨d, mem, below⟩)
    rw [described.findSome?_methodOrder, lookupWithin]
    cases own : e.ownLiveMethod? s key c with
    | some m => rfl
    | none =>
      rw [parent, interfaces, described.parent_eq, described.interfaces_eq]
      exact findSomeM?_eq_ok parts

/-- What an interface declares is what the host has in it. -/
theorem Layered.ownLiveMethod?_interface (layered : e.Layered)
    (isInterface : (e.classAt d).isInterface = true) (s : ScopeRef) (key : MemberKey) :
    e.ownLiveMethod? s key d = ((e.classAt d).method? key).map fun m =>
      ⟨e.nameOf d, m.declared, none, some (d, m)⟩ := by
  have unmanaged : e.managedOf? s d = none := by
    unfold managedOf?
    rw [layered.unmanaged d isInterface]
    rfl
  unfold ownLiveMethod?
  rw [unmanaged]
  dsimp only
  cases (e.classAt d).method? key <;> rfl

/-- The host's method that goes with what a class declares is its own. -/
theorem host_of_ownLiveMethod? (found : e.ownLiveMethod? s key d = some live) :
    live.host = e.ownHostMethod? key d := by
  unfold ownLiveMethod? at found
  dsimp only at found
  split at found
  all_goals
    obtain ⟨m, -, rfl⟩ := Option.map_eq_some_iff.1 found
    rfl

theorem interfaceMethod?_eq_some_iff : e.interfaceMethod? c key = some live ↔
    ∃ d m, e.hostMethod? c key = some (d, m) ∧ (e.classAt d).isInterface = true ∧
      live = ⟨e.nameOf d, m.declared, none, some (d, m)⟩ := by
  unfold interfaceMethod?
  constructor
  · intro found
    split at found
    next d m linked =>
      split at found
      next isInterface => exact ⟨d, m, linked, isInterface, (Option.some.inj found).symm⟩
      next => cases found
    next => cases found
  · rintro ⟨d, m, linked, isInterface, rfl⟩
    rw [linked]
    exact if_pos isInterface

section Searches

variable (layered : e.Layered) (plain : key.isConstructor = false)
  (plain' : key.isStaticInit = false)
include layered plain plain'

/-- The host comes to what the order has first, of all that is declared now, exactly when that is
in an interface and nothing before it was defined with the method. -/
theorem Layered.interfaceMethod?_iff {before after : List ClassRef}
    (order : (e.classAt c).methodOrder = before ++ d :: after)
    (missed : ∀ b ∈ before, e.ownLiveMethod? s key b = none)
    (found : e.ownLiveMethod? s key d = some live) :
    e.interfaceMethod? c key = some live ↔
      (e.classAt d).isInterface = true ∧ ∀ b ∈ before, (e.classAt b).method? key = none := by
  have search := e.hostMethod?_eq c plain plain'
  rw [order, List.findSome?_append, List.findSome?_cons] at search
  rw [interfaceMethod?_eq_some_iff]
  cases nearer : before.findSome? (e.ownHostMethod? key) with
  | some found' =>
    rw [nearer] at search
    obtain ⟨b, mem, own⟩ := List.exists_of_findSome?_eq_some nearer
    obtain ⟨m, declares, rfl⟩ := Option.map_eq_some_iff.1 own
    refine iff_of_false ?_ fun free => ?_
    · rintro ⟨d', m', linked, isInterface, -⟩
      obtain ⟨rfl, rfl⟩ : b = d' ∧ m = m' := by simpa using search.symm.trans linked
      have own := layered.ownLiveMethod?_interface isInterface s key
      rw [missed b mem, declares] at own
      cases own
    · cases declares.symm.trans (free.2 b mem)
  | none =>
    rw [nearer, Option.none_or] at search
    have free : ∀ b ∈ before, (e.classAt b).method? key = none := fun b mem =>
      Option.map_eq_none_iff.1 (List.findSome?_eq_none_iff.1 nearer b mem)
    constructor
    · rintro ⟨d', m', linked, isInterface, rfl⟩
      -- the method that goes with what `d` declares is in `d` itself
      have own := host_of_ownLiveMethod? found
      obtain ⟨m, -, same⟩ := Option.map_eq_some_iff.1 own.symm
      obtain ⟨rfl, -⟩ : d = d' ∧ m = m' := by simpa using same
      exact ⟨isInterface, free⟩
    · rintro ⟨isInterface, -⟩
      rw [layered.ownLiveMethod?_interface isInterface] at found
      obtain ⟨m, declares, rfl⟩ := Option.map_eq_some_iff.1 found
      have own : e.ownHostMethod? key d = some (d, m) := by
        unfold ownHostMethod?
        rw [declares]
        rfl
      rw [own] at search
      exact ⟨d, m, search, isInterface, rfl⟩

/-- Where the chain has nothing and the order has nothing that is declared now, the host finds
nothing in an interface either. -/
theorem Layered.interfaceMethod?_eq_none
    (missed : (e.classAt c).methodOrder.findSome? (e.ownLiveMethod? s key) = none) :
    e.interfaceMethod? c key = none := by
  refine Option.eq_none_iff_forall_ne_some.2 fun live found => ?_
  obtain ⟨d, m, linked, isInterface, -⟩ := interfaceMethod?_eq_some_iff.1 found
  rw [e.hostMethod?_eq c plain plain'] at linked
  obtain ⟨d', mem, own⟩ := List.exists_of_findSome?_eq_some linked
  obtain ⟨m', declares, same⟩ := Option.map_eq_some_iff.1 own
  obtain ⟨rfl, rfl⟩ : d' = d ∧ m' = m := by simpa using same
  have own := layered.ownLiveMethod?_interface isInterface s key
  rw [List.findSome?_eq_none_iff.1 missed d' mem, declares] at own
  cases own

/-- A class of the chain that was defined with a method keeps the host from the interfaces. -/
theorem Layered.interfaceMethod?_shadowed (housed : e.Housed) (home : e.Homes s c)
    (missed : e.ownLiveMethod? s key c = none)
    (defined : ∃ d ∈ c :: (e.classAt c).superclasses, ((e.classAt d).method? key).isSome) :
    e.interfaceMethod? c key = none := by
  obtain ⟨d, mem, declares⟩ := defined
  have answers : ((c :: (e.classAt c).superclasses).findSome? (e.ownHostMethod? key)).isSome := by
    refine List.findSome?_isSome_iff.2 ⟨d, mem, ?_⟩
    unfold ownHostMethod?
    rw [Option.isSome_map]
    exact declares
  obtain ⟨⟨d, m⟩, search⟩ := Option.isSome_iff_exists.1 answers
  refine Option.eq_none_iff_forall_ne_some.2 fun live found => ?_
  obtain ⟨d', m', linked, isInterface, -⟩ := interfaceMethod?_eq_some_iff.1 found
  rw [housed.hostMethod?_of_superclass home plain plain' search] at linked
  obtain ⟨rfl, rfl⟩ : d = d' ∧ m = m' := by simpa using linked
  obtain ⟨b, mem, own⟩ := List.exists_of_findSome?_eq_some search
  obtain ⟨m', declares, same⟩ := Option.map_eq_some_iff.1 own
  obtain ⟨rfl, rfl⟩ : b = d ∧ m' = m := by simpa using same
  rcases List.mem_cons.1 mem with rfl | above
  · have own := layered.ownLiveMethod?_interface isInterface s key
    rw [missed, declares] at own
    cases own
  · cases isInterface.symm.trans (layered.superclasses housed home b above)

end Searches

/-- What keeps its supertypes and interfaces keeps the hierarchy. -/
theorem Layered.keepsHierarchy (layered : e.Layered) (housed : e.Housed) (home : e.Homes s c)
    (keeps : ∀ d ∈ (e.classAt c).methodOrder, ∀ t, e.managedOf? s d = some t →
      e.Chronicled t ∧ (e.typeAt t).KeepsSupertypes) : e.KeepsHierarchy s c := by
  intro d mem
  have home_d := layered.methodOrder_homes housed home d mem
  refine ⟨housed.liveParent_of_keeps home_d fun t managed => ?_,
    housed.liveInterfaces_of_keeps home_d fun t managed => (keeps d mem t managed).2.interfaces⟩
  rw [(keeps d mem t managed).1.live_shape]
  exact (keeps d mem t managed).2.superName

/-- Where the hierarchy was kept the chain of a class consists of its superclasses. -/
theorem Housed.liveChain_of_keeps (housed : e.Housed) (home : e.Homes s c)
    (keeps : e.KeepsHierarchy s c) :
    e.liveChain s c = ⟨c :: (e.classAt c).superclasses, .top⟩ := by
  refine housed.liveChain_of_parents home fun d mem => (keeps d ?_).1
  -- a search for `d` itself begins with the superclasses
  have search : ((c :: (e.classAt c).superclasses).findSome? fun b =>
      if b = d then some d else none).isSome :=
    List.findSome?_isSome_iff.2 ⟨d, mem, by rw [if_pos rfl]; rfl⟩
  obtain ⟨found, search⟩ := Option.isSome_iff_exists.1 search
  obtain ⟨b, within, here⟩ :=
    List.exists_of_findSome?_eq_some (housed.findSome?_methodOrder home search)
  split at here
  next same => exact same ▸ within
  next => cases here

/-- Where the chain has nothing, the host comes in an interface to what the order has first, of
all that is declared now, exactly when nothing hides that. -/
theorem Layered.interfaceMethod?_eq_first_iff (layered : e.Layered)
    (plain : key.isConstructor = false) (plain' : key.isStaticInit = false)
    (free : ∀ d ∈ c :: (e.classAt c).superclasses, e.ownLiveMethod? s key d = none) :
    e.interfaceMethod? c key = (e.classAt c).methodOrder.findSome? (e.ownLiveMethod? s key) ↔
      ¬ e.Hides s c key := by
  constructor
  · rintro same ⟨-, before, d, after, order, missed, declares, hidden⟩
    obtain ⟨live, own⟩ := Option.isSome_iff_exists.1 declares
    have first : (e.classAt c).methodOrder.findSome? (e.ownLiveMethod? s key) = some live :=
      List.findSome?_eq_some_iff.2 ⟨before, d, after, order, own, missed⟩
    obtain ⟨isInterface, undefined_⟩ :=
      (layered.interfaceMethod?_iff plain plain' order missed own).1 (same.trans first)
    rcases hidden with other | ⟨b, mem, defined⟩
    · cases isInterface.symm.trans other
    · rw [undefined_ b mem] at defined
      cases defined
  · intro clear
    cases first : (e.classAt c).methodOrder.findSome? (e.ownLiveMethod? s key) with
    | none => exact layered.interfaceMethod?_eq_none plain plain' first
    | some live =>
      -- whatever kept the host from the first declaration would hide it
      obtain ⟨before, d, after, order, own, missed⟩ := List.findSome?_eq_some_iff.1 first
      have hides (reason : (e.classAt d).isInterface = false ∨
          ∃ b ∈ before, ((e.classAt b).method? key).isSome) : e.Hides s c key :=
        ⟨free, before, d, after, order, missed, by rw [own]; rfl, reason⟩
      refine (layered.interfaceMethod?_iff plain plain' order missed own).2 ⟨?_, fun b mem => ?_⟩
      · exact Bool.eq_true_of_not_eq_false fun other => clear (hides (.inl other))
      · exact Option.not_isSome_iff_eq_none.1 fun defined =>
          clear (hides (.inr ⟨b, mem, defined⟩))

/-- The engine finds what the lookup finds, where the hierarchy was kept, exactly when nothing
hides it. -/
theorem Layered.resolveMethod_eq_iff (layered : e.Layered) (housed : e.Housed)
    (home : e.Homes s c) (plain : key.isConstructor = false) (plain' : key.isStaticInit = false)
    (keeps : e.KeepsHierarchy s c) :
    e.resolveMethod s c key = e.lookupMethod s c key ↔ ¬ e.Hides s c key := by
  have lookup : e.lookupMethod s c key =
      .ok ((e.classAt c).methodOrder.findSome? (e.ownLiveMethod? s key)) := by
    obtain ⟨spec, described, -⟩ := layered.above housed home
    exact layered.lookupWithin_eq housed home keeps (Nat.lt_succ_of_lt described.lt)
  rw [resolveMethod_eq plain plain', lookup, housed.liveChain_of_keeps home keeps,
    LiveChain.findSome?_top]
  cases chain : (c :: (e.classAt c).superclasses).findSome? (e.ownLiveMethod? s key) with
  | some m =>
    refine iff_of_true (congrArg _ (housed.findSome?_methodOrder home chain).symm) fun hides => ?_
    rw [List.findSome?_eq_none_iff.2 hides.1] at chain
    cases chain
  | none =>
    dsimp only
    rw [Except.ok.injEq]
    exact layered.interfaceMethod?_eq_first_iff plain plain' (List.findSome?_eq_none_iff.1 chain)

end Engine

/-- Where a search for a method in the chain of live supertypes ends, be it with an answer or
with an error, so does the lookup that goes through a class, its supertype and its interfaces as
they are now.  Where the chain has nothing, a class in it that was defined with the method makes
the engine find nothing at all.  As long as the class and what it inherits from keep their
supertypes and interfaces, the engine finds what the lookup finds exactly when nothing hides
it. -/
theorem inherited_method_resolves_iff {e₀ e : Engine} {s : ScopeRef} {typeName : String}
    {c : ClassRef} {key : MemberKey} (reachable : e₀.Reachable) (during : e₀.During e)
    (known : e.class? s typeName = some c) (plain : key.isConstructor = false)
    (plain' : key.isStaticInit = false) :
    ((e.liveChain s c).findSome? (e.ownLiveMethod? s key) ≠ .ok none →
      e.resolveMethod s c key = e.lookupMethod s c key) ∧
    ((e.liveChain s c).findSome? (e.ownLiveMethod? s key) = .ok none →
      (∃ d ∈ c :: (e.classAt c).superclasses, ((e.classAt d).method? key).isSome) →
      e.resolveMethod s c key = .ok none) ∧
    ((∀ d ∈ (e.classAt c).methodOrder, ∀ t, e.managedOf? s d = some t →
        (e.typeAt t).KeepsSupertypes) →
      (e.resolveMethod s c key = e.lookupMethod s c key ↔ ¬ e.Hides s c key)) := by
  have housed := during.housed reachable.housed reachable.grounded
  have layered := during.layered reachable
  have home : e.Homes s c := ⟨typeName, known⟩
  refine ⟨fun ended => ?_, fun missed defined => ?_, fun keeps => ?_⟩
  · rw [Engine.resolveMethod_of_chain plain plain' ended]
    exact (Engine.lookupWithin_of_chain _ c ended).symm
  · rw [Engine.resolveMethod_eq plain plain', missed]
    exact congrArg _ (layered.interfaceMethod?_shadowed plain plain' housed home
      (Engine.eq_none_of_chain missed) defined)
  · refine layered.resolveMethod_eq_iff housed home plain plain'
      (layered.keepsHierarchy housed home fun d mem t managed => ⟨?_, keeps d mem t managed⟩)
    exact during.chronicled reachable (housed.managed_of_managedOf? managed).1

namespace Deleting

/-- The name and the signature of the method. -/
def key : MemberKey := ⟨"m", ⟨[], .int⟩⟩

/-- An interface with an abstract method. -/
def contract : TypeUnit :=
  (TypeUnit.interfaceNamed "app.J").addMethod
    (.make key.name key.sig (.publicBit ||| .abstractBit) [])

/-- A type that implements it. -/
def without : TypeUnit := (TypeUnit.named "app.C").implementing "app.J"

/-- The type with a method of its own. -/
def implemented : TypeUnit :=
  without.addMethod (.make key.name key.sig .publicBit [.constInt 1, .retValue])

/-- A scope in which both were defined. -/
def defined : Engine :=
  ((Engine.opened { included := ["app.*"] }).defining 4 contract).defining 4 implemented

/-- The scope after a reload that deletes the method of the type. -/
def engine : Engine := defined.reloading 4 0 "without" without

/-- The method of the interface. -/
def method : Method where
  key := key
  modifiers := .publicBit ||| .abstractBit
  declared := .publicBit ||| .abstractBit
  declaring := "app.J"
  maxLocals := 1
  code := []

/-- What the interface declares. -/
def declared : LiveMethod := ⟨"app.J", .publicBit ||| .abstractBit, none, some (0, method)⟩

set_option maxRecDepth 100000 in
theorem outcomes :
    (((Engine.opened { included := ["app.*"] }).defining 4 contract).scopes.size = 1 ∧
      defined.types.size = 1) ∧
    (engine.class? 0 "app.C" = some 1 ∧
      (engine.classAt 1).methodOrder = [1, 0] ∧ engine.managedOf? 0 1 = some 0 ∧
      engine.managedOf? 0 0 = none) ∧
    ((engine.typeAt 0).live.unit = without ∧ (engine.typeAt 0).first.unit = implemented ∧
      (engine.typeAt 0).live.shape.method? key = none) ∧
    ((engine.classAt 1).method? key).isSome ∧
    ((engine.liveChain 0 1).findSome? (engine.ownLiveMethod? 0 key)).toOption = some none ∧
    (engine.lookupMethod 0 1 key).toOption = some (some declared) ∧
    (engine.resolveMethod 0 1 key).toOption = some none := by
  decide +kernel

theorem reachable : engine.Reachable := by
  obtain ⟨⟨scopes, types⟩, -⟩ := outcomes
  have opened : (Engine.opened { included := ["app.*"] }).Reachable := Engine.reachable_opened _
  have both : defined.Reachable :=
    (opened.defining 4 contract (by decide)).defining 4 implemented
      (by rw [scopes]; exact Nat.one_pos)
  exact both.reloading 4 0 "without" without (by rw [types]; exact Nat.one_pos)

theorem keeps : (engine.typeAt 0).KeepsSupertypes := by
  obtain ⟨-, -, ⟨live, first, -⟩, -⟩ := outcomes
  refine ⟨?_, ?_⟩ <;> rw [live, first] <;> rfl

end Deleting

open Deleting in
/-- After a reload that deletes the method, the engine does not find the one of the interface. -/
theorem inherited_method_resolves_deleted :
    engine.resolveMethod 0 1 key = .ok none ∧ engine.lookupMethod 0 1 key = .ok (some declared) ∧
    engine.Hides 0 1 key := by
  obtain ⟨-, ⟨known, order, managed, unmanaged⟩, -, defined, missed, lookup, -⟩ := outcomes
  have reachable := reachable
  have keeps := keeps
  -- What matters about the engine is known; its definition is not to be unfolded.
  generalize engine = e at *
  have lookup := Exec.ok_of_toOption lookup
  obtain ⟨-, shadowed, iff_⟩ := inherited_method_resolves_iff reachable (.refl e) known
    (show key.isConstructor = false from rfl) rfl
  have nothing := shadowed (Exec.ok_of_toOption missed) ⟨1, List.mem_cons_self, defined⟩
  refine ⟨nothing, lookup, not_not.1 fun clear => ?_⟩
  have agrees := (iff_ fun d mem t here => ?_).2 clear
  · rw [nothing, lookup] at agrees
    cases agrees
  · rw [order] at mem
    rcases List.mem_cons.1 mem with rfl | mem
    · exact Option.some.inj (managed.symm.trans here) ▸ keeps
    · rw [List.mem_singleton.1 mem, unmanaged] at here
      cases here

open Deleting in
/-- A method that the live version of a managed type does not declare is not always found where
the lookup finds it, even if all supertypes and interfaces are those of the first version. -/
theorem inherited_method_resolves_hidden :
    ¬ ∀ (e : Engine) (s : ScopeRef) (typeName : String) (c : ClassRef) (t : TypeRef)
      (key : MemberKey), e.Reachable → e.class? s typeName = some c → e.managedOf? s c = some t →
      (e.typeAt t).KeepsSupertypes → key.isConstructor = false → key.isStaticInit = false →
      (e.typeAt t).live.shape.method? key = none →
      e.resolveMethod s c key = e.lookupMethod s c key := by
  intro right
  obtain ⟨-, ⟨known, -, managed, -⟩, ⟨-, -, deleted⟩, -, -, lookup, resolved⟩ := outcomes
  have same := right engine 0 "app.C" 1 0 key reachable known managed keeps rfl rfl deleted
  rw [same, lookup] at resolved
  cases resolved

end LiveUpdate
