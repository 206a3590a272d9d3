import LiveUpdate.Proofs.Courses
import LiveUpdate.Proofs.DynamicCalls
import LiveUpdate.Proofs.InheritedMethods
import LiveUpdate.Proofs.InterfaceDefaults

/-!
# Virtual calls that guards let pass

A guard lets a virtual call pass if the host links it to a method of the kind that live versions
mean.  What the call then enters was selected when the classes were defined, while a call by live
versions selects among their declarations.  So the two come out at two bodies, each of which is
read off the declarations.  It is the same body if the member stays open to virtual calls in all
classes of the receiver: if none declares it statically or privately, now or first, and none
declares it now without having had it.
-/

set_option autoImplicit false

namespace LiveUpdate

open Exec

namespace Engine

variable (e : Engine) (s : ScopeRef) (key : MemberKey)

/-- Where a call comes out that enters what the host selects for receivers of a class.  If that has
no body, live versions select. -/
def tableEnd (x : ClassRef) : Option Body :=
  match e.nearestSelectable? x key with
  | some (d, b) => if b.isAbstract then e.selectedEnd s key x else e.hostEnd s key d b
  | none => e.selectedEnd s key x

/-- Where a virtual call comes out that the host links to a method: in nothing if the caller may not
use that, and what is private is not selected. -/
def linkedEnd (caller x : ClassRef) (linked : ClassRef × Method) : Option Body :=
  if e.mayUse s caller linked.2.declaring linked.2.declared then
    if linked.2.modifiers.isPrivate then e.hostEnd s key linked.1 linked.2
    else e.tableEnd s key x
  else none

/-- Where a virtual call of a live method comes out. -/
def dynamicEnd (x : ClassRef) (live : LiveMethod) : Option Body :=
  if live.modifiers.isPrivate then e.resolvedEnd key live else e.selectedEnd s key x

/-- The method that a class, or else the nearest superclass of it, declares now. -/
def nearestLive? (x : ClassRef) : Option LiveMethod :=
  (x :: (e.classAt x).superclasses).findSome? (e.ownLiveMethod? s key)

/-- A member is open to virtual calls in a class.  Neither what the class declares now nor what the
host has there is static or private.  The host has something where the class declares the member
now.  Where the class does not declare it any more, and no class above does, no interface gives
the parent a body. -/
structure OpenIn (c : ClassRef) : Prop where
  live : ∀ live, e.ownLiveMethod? s key c = some live →
    live.modifiers.isStatic = false ∧ live.modifiers.isPrivate = false
  host : ∀ b, (e.classAt c).method? key = some b →
    b.modifiers.isStatic = false ∧ b.modifiers.isPrivate = false
  covered : (e.ownLiveMethod? s key c).isSome → ((e.classAt c).method? key).isSome
  withdrawn : e.ownLiveMethod? s key c = none → ((e.classAt c).method? key).isSome →
    ∀ p, (e.classAt c).parent = some p → e.nearestLive? s key p = none →
      ∀ inherited, e.interfaceMethod? p key = some inherited → inherited.isAbstract = true

/-- In a class and in all superclasses of it. -/
def OpenAbove (x : ClassRef) : Prop :=
  ∀ c ∈ x :: (e.classAt x).superclasses, e.OpenIn s key c

variable {e s key}
variable {e₀ : Engine} {t : TypeRef} {native caller c d x : ClassRef} {b : Method}
  {live : LiveMethod}

/-! ### The nearest live declaration -/

theorem nearestLive?_of_own (own : e.ownLiveMethod? s key x = some live) :
    e.nearestLive? s key x = some live := by
  unfold nearestLive?
  rw [List.findSome?_cons, own]

theorem nearestLive?_of_parent (housed : e.Housed) (home : e.Homes s x)
    (unowned : e.ownLiveMethod? s key x = none) :
    e.nearestLive? s key x = (e.classAt x).parent.bind (e.nearestLive? s key) := by
  unfold nearestLive?
  rw [List.findSome?_cons, unowned, (housed.superclasses_eq home).1]
  cases (e.classAt x).parent <;> rfl

theorem OpenAbove.parent (open_ : e.OpenAbove s key x) (housed : e.Housed) (home : e.Homes s x)
    {p : ClassRef} (parent : (e.classAt x).parent = some p) :
    e.OpenAbove s key p ∧ p < x ∧ e.Homes s p := by
  obtain ⟨superclasses, parents⟩ := housed.superclasses_eq home
  rw [parent] at superclasses
  exact ⟨fun c mem => open_ c (List.mem_cons_of_mem _ (superclasses ▸ mem)), parents p parent⟩

theorem OpenAbove.own (open_ : e.OpenAbove s key x) : e.OpenIn s key x :=
  open_ x List.mem_cons_self

/-- What the host has nearest is where the search for the live declaration comes to. -/
theorem OpenAbove.nearestLive?_eq (open_ : e.OpenAbove s key x) (housed : e.Housed)
    (home : e.Homes s x) (nearest : e.nearest? x key = some (c, b)) :
    e.OpenAbove s key c ∧ c ≤ x ∧ e.Homes s c ∧ (e.classAt c).method? key = some b ∧
      e.nearestLive? s key x = e.nearestLive? s key c := by
  induction x using Nat.strong_induction_on with
  | _ x ih =>
    have own : e.ownHostMethod? key x = ((e.classAt x).method? key).map fun m => (x, m) := rfl
    unfold nearest? at nearest
    rw [List.findSome?_cons, own] at nearest
    cases found : (e.classAt x).method? key with
    | some m =>
      rw [found] at nearest
      cases nearest
      exact ⟨open_, Nat.le_refl _, home, found, rfl⟩
    | none =>
      rw [found, (housed.superclasses_eq home).1] at nearest
      have unowned : e.ownLiveMethod? s key x = none := by
        refine Option.not_isSome_iff_eq_none.1 fun declares => ?_
        have there := open_.own.covered declares
        rw [found] at there
        cases there
      rw [nearestLive?_of_parent housed home unowned]
      cases parent : (e.classAt x).parent with
      | none =>
        rw [parent] at nearest
        cases nearest
      | some p =>
        rw [parent] at nearest
        obtain ⟨open_p, lt, home_p⟩ := open_.parent housed home parent
        obtain ⟨open_c, le, rest⟩ := ih p lt open_p home_p nearest
        exact ⟨open_c, Nat.le_of_lt (Nat.lt_of_le_of_lt le lt), rest⟩

/-! ### What a class itself declares -/

theorem ownLiveMethod?_unmanaged (unmanaged : e.managedOf? s c = none)
    (found : (e.classAt c).method? key = some b) :
    e.ownLiveMethod? s key c = some ⟨e.nameOf c, b.declared, none, some (c, b)⟩ := by
  unfold ownLiveMethod?
  dsimp only
  rw [unmanaged, found]
  rfl

theorem ownLiveMethod?_managed (managed : e.managedOf? s c = some t) {shape : MethodShape}
    (declares : (e.typeAt t).live.shape.method? key = some shape) :
    e.ownLiveMethod? s key c = some ⟨e.nameOf c, shape.modifiers, some t,
      ((e.classAt c).method? key).map fun m => (c, m)⟩ := by
  unfold ownLiveMethod?
  dsimp only
  rw [managed]
  dsimp only
  rw [declares]
  rfl

theorem ownLiveMethod?_undeclared (managed : e.managedOf? s c = some t)
    (gone : (e.typeAt t).live.shape.method? key = none) : e.ownLiveMethod? s key c = none := by
  unfold ownLiveMethod?
  dsimp only
  rw [managed]
  dsimp only
  rw [gone]
  rfl

/-- A method of the host with a body runs as that. -/
theorem resolvedBody_host {declaring : String} {modifiers : Modifiers}
    (concrete : modifiers.isAbstract = false) :
    e.resolvedBody ⟨declaring, modifiers, none, some (c, b)⟩ key = some ⟨c, b⟩ :=
  if_neg (Bool.eq_false_iff.1 concrete)

/-! ### What is selected -/

/-- The body of what a virtual call by live versions finds. -/
def foundBody (e : Engine) (key : MemberKey) : Selection → Option Body
  | .live t => e.liveBody t key
  | .host c b => some ⟨c, b⟩
  | .abstract _ => none

section Selected

variable (reachable : e₀.Reachable) (during : e₀.During e)
include reachable during

/-- Outside of the managed types methods stand with the modifiers that they are declared with. -/
theorem During.declared_eq (home : e.Homes s c) (unmanaged : e.managedOf? s c = none)
    (found : (e.classAt c).method? key = some b) : b.declared = b.modifiers := by
  have housed := during.housed reachable.housed reachable.grounded
  have lineage := during.lineage reachable.lineage
  have lt : c < e₀.classes.size := by
    rw [← during.classes_size]
    exact lt_of_classAt (fun cls => cls.method? key = some b) found nofun
  have bound := (reachable.bound lt).of_grows lt during.grows reachable.grounded
  exact bound.plain (housed.managed_eq_none home unmanaged) key b found

/-- What a class declares now is selected in it, if the member is open there. -/
theorem OpenIn.selects (open_ : e.OpenIn s key c) (home : e.Homes s c)
    (own : e.ownLiveMethod? s key c = some live) :
    ∃ found, e.selectIn? s key c = some found ∧ e.foundBody key found = e.resolvedBody live key := by
  obtain ⟨receives, visible⟩ := open_.live live own
  unfold selectIn? resolvedBody LiveMethod.isAbstract
  dsimp only
  rcases ownLiveMethod?_cases own with ⟨t, shape, managed, declares, some_t, modifiers⟩ |
      ⟨m, unmanaged, found, none_t, host, modifiers⟩
  · rw [modifiers] at receives visible ⊢
    rw [managed, some_t]
    dsimp only
    rw [declares, Option.filter_some, if_pos (by simp [receives, visible])]
    refine ⟨_, rfl, ?_⟩
    unfold MethodShape.isAbstract
    dsimp only
    cases shape.modifiers.isAbstract <;> rfl
  · rw [during.declared_eq reachable home unmanaged found] at modifiers
    rw [modifiers] at receives visible ⊢
    rw [unmanaged, none_t, host]
    dsimp only
    rw [found, Option.filter_some, if_pos (by simp [receives, visible])]
    refine ⟨_, rfl, ?_⟩
    unfold Method.isAbstract
    dsimp only
    cases m.modifiers.isAbstract <;> rfl

end Selected

section Verified

variable (reachable : e₀.Reachable) (during : e₀.During e) (verifies : e.Verifies s)
include reachable during verifies

/-- While code runs under verification the live parent of a class is the parent that the host
knows. -/
theorem During.liveParent_eq (home : e.Homes s c) :
    e.liveParent s c = .ok (e.classAt c).parent := by
  have back := during.symm
  have verifies₀ : e₀.Verifies s := by
    obtain ⟨depth, same⟩ := back
    unfold Verifies
    rw [options_of_skeleton_eq same]
    exact verifies
  have home₀ : e₀.Homes s c := home.imp fun name known => (back.class? s name).trans known
  have parent : (e.classAt c).skeleton.parent = (e₀.classAt c).skeleton.parent := by
    rw [during.classAt c]
  have parent : (e.classAt c).parent = (e₀.classAt c).parent := parent
  obtain ⟨depth, same⟩ := during
  rw [← liveParent_skeleton, same, liveParent_skeleton, parent]
  exact reachable.liveParent_eq verifies₀ home₀

/-- So the live chain of a class consists of the class and its superclasses. -/
theorem During.liveChain_eq (home : e.Homes s c) :
    e.liveChain s c = ⟨c :: (e.classAt c).superclasses, .top⟩ := by
  have housed := during.housed reachable.housed reachable.grounded
  refine housed.liveChain_of_parents home fun d mem => ?_
  refine during.liveParent_eq reachable verifies ?_
  rcases List.mem_cons.1 mem with rfl | above
  · exact home
  · exact ((housed.superclasses_descend home).1 d above).2

/-- Where a member is open, virtual calls select its nearest live declaration. -/
theorem OpenAbove.selectedBody_eq (open_ : e.OpenAbove s key x) (home : e.Homes s x) :
    e.selectedBody s x key = (e.nearestLive? s key x).bind fun live => e.resolvedBody live key := by
  have housed := during.housed reachable.housed reachable.grounded
  have homes : ∀ c ∈ x :: (e.classAt x).superclasses, e.Homes s c := by
    intro c mem
    rcases List.mem_cons.1 mem with rfl | above
    · exact home
    · exact ((housed.superclasses_descend home).1 c above).2
  have selected : e.selectedBody s x key =
      ((x :: (e.classAt x).superclasses).findSome? (e.selectIn? s key)).bind
        (e.foundBody key) := by
    unfold selectedBody selectVirtual LiveChain.findSome?
    rw [during.liveChain_eq reachable verifies home]
    dsimp only
    cases (x :: (e.classAt x).superclasses).findSome? (e.selectIn? s key) with
    | none => rfl
    | some found => cases found <;> rfl
  rw [selected]
  unfold nearestLive?
  unfold OpenAbove at open_
  clear selected
  generalize x :: (e.classAt x).superclasses = classes at open_ homes
  induction classes with
  | nil => rfl
  | cons c rest ih =>
    rw [List.findSome?_cons, List.findSome?_cons]
    cases own : e.ownLiveMethod? s key c with
    | some live =>
      obtain ⟨found, here, same⟩ := (open_ c List.mem_cons_self).selects reachable during
        (homes c List.mem_cons_self) own
      rw [here]
      exact same
    | none =>
      rw [selectIn?_of_ownLiveMethod? own]
      exact ih (fun d mem => open_ d (List.mem_cons_of_mem _ mem))
        fun d mem => homes d (List.mem_cons_of_mem _ mem)

end Verified

/-! ### Where both come out -/

/-- What the version in force declares without a body has none to call on an object. -/
theorem Governs.liveBody_abstract (governs : e.Governs s key t native)
    (ordinary : e.Ordinary s key) {shape : MethodShape}
    (declares : (e.typeAt t).live.shape.method? key = some shape)
    (abstract_ : shape.isAbstract = true) :
    (e.liveBody t key).filter (Body.fits key.sig) = none := by
  have chronicled := governs.chronicled
  rcases chronicled.live_cases with ⟨-, first⟩ | ⟨published, recorded⟩
  · rw [governs.hosted.liveBody_leaves (chronicled.lookup_first first key)]
    rw [first, TypeShape.eq_ofUnit chronicled.shaped, TypeShape.method?_ofUnit] at declares
    obtain ⟨m, declared, rfl⟩ := Option.map_eq_some_iff.1 declares
    refine Option.filter_eq_none_iff.2 fun b found fits => ?_
    obtain ⟨own, here, rfl⟩ := Option.map_eq_some_iff.1 found
    have bodied := (governs.hosted.modifiers_own chronicled.verified declared here).1
    unfold Body.fits at fits
    rw [bodied.trans abstract_] at fits
    cases fits
  · have keyed : shape.key = key := by simpa using List.find?_some declares
    have early : shape.isStaticInit = false := by
      have early := ordinary.early
      rw [← keyed] at early
      exact early
    have entry := recorded.lookup_abstract governs.balanced rfl declares abstract_ early
    rw [governs.hosted.liveBody_none (.inl entry)]
    rfl

/-- What the version in force declares without a body has none to call, and otherwise it is the live
body that is called. -/
theorem Governs.filter_resolvedBody (governs : e.Governs s key t native)
    (ordinary : e.Ordinary s key) {shape : MethodShape}
    (declares : (e.typeAt t).live.shape.method? key = some shape) {declaring : String}
    {host : Option (ClassRef × Method)} :
    (e.resolvedBody ⟨declaring, shape.modifiers, some t, host⟩ key).filter (Body.fits key.sig) =
      (e.liveBody t key).filter (Body.fits key.sig) := by
  cases abstract_ : shape.isAbstract with
  | false =>
    have body : e.resolvedBody ⟨declaring, shape.modifiers, some t, host⟩ key =
        e.liveBody t key := if_neg (Bool.eq_false_iff.1 abstract_)
    rw [body]
  | true =>
    have bodiless : e.resolvedBody ⟨declaring, shape.modifiers, some t, host⟩ key = none :=
      if_pos abstract_
    rw [bodiless, governs.liveBody_abstract ordinary declares abstract_]
    rfl

section Chains

variable (reachable : e₀.Reachable) (during : e₀.During e) (verifies : e.Verifies s)
include reachable during verifies

/-- A call of what a type does not declare any more goes on to the nearest live declaration. -/
theorem OpenAbove.inheritedBody_eq (open_ : e.OpenAbove s key c) (ordinary : e.Ordinary s key)
    (home : e.Homes s c) (managed : e.managedOf? s c = some t)
    (gone : e.ownLiveMethod? s key c = none) (had : ((e.classAt c).method? key).isSome) :
    e.inheritedBody s t key = (e.nearestLive? s key c).bind fun live => e.resolvedBody live key := by
  have housed := during.housed reachable.housed reachable.grounded
  have above : (e.typeAt t).live.shape.superName.bind (e.class? s) = (e.classAt c).parent := by
    have parent := during.liveParent_eq reachable verifies home
    unfold liveParent at parent
    rw [managed] at parent
    dsimp only at parent
    cases super : (e.typeAt t).live.shape.superName with
    | none =>
      rw [super] at parent
      exact Except.ok.inj parent
    | some name =>
      rw [super] at parent
      dsimp only at parent
      rw [Option.bind_some]
      cases known : e.class? s name with
      | none =>
        rw [known] at parent
        cases parent
      | some p =>
        rw [known] at parent
        exact Except.ok.inj parent
  unfold inheritedBody
  rw [above, nearestLive?_of_parent housed home gone]
  cases parent : (e.classAt c).parent with
  | none => rfl
  | some p =>
    obtain ⟨-, -, home_p⟩ := open_.parent housed home parent
    have chain := during.liveChain_eq reachable verifies home_p
    dsimp only [Option.bind_some]
    rw [resolveMethod_eq ordinary.plain ordinary.early, chain, LiveChain.findSome?_top,
      show (p :: (e.classAt p).superclasses).findSome? (e.ownLiveMethod? s key) =
        e.nearestLive? s key p from rfl]
    cases nearest : e.nearestLive? s key p with
    | some live => rfl
    | none =>
      dsimp only
      cases inherited : e.interfaceMethod? p key with
      | none => rfl
      | some live =>
        have bodiless := open_.own.withdrawn gone had p parent nearest live inherited
        exact if_pos bodiless

/-- Where a class does not declare a member, and did not at first, a catcher leads to what the classes
above have. -/
theorem OpenAbove.hostEnd_caught (open_ : e.OpenAbove s key c) (ordinary : e.Ordinary s key)
    (home : e.Homes s c) (managed : e.managedOf? s c = some t)
    (gone : e.ownLiveMethod? s key c = none)
    (free : (e.typeAt t).first.unit.method? key = none) (takes : e.TakesObjects c key b)
    (further : ∀ d < c, ∀ m, e.OpenAbove s key d → e.Homes s d →
      (e.classAt d).method? key = some m → m.isAbstract = false →
      e.hostEnd s key d m = e.selectedEnd s key d) :
    e.caught s key c (e.classAt c).superclasses = e.selectedEnd s key c := by
  have housed := during.housed reachable.housed reachable.grounded
  have governs := ordinary.governs_home reachable during home managed
  obtain ⟨unmarked, -⟩ := ordinary.unmarked c t b managed takes.found
  obtain ⟨catcher, -⟩ := governs.hosted.checks_generated governs.chronicled.verified
    governs.balanced free takes.found unmarked ordinary.early
  obtain ⟨p, owner, selected, ⟨d, m⟩, catches, nearest, covers⟩ :=
    governs.exists_covers takes reachable during catcher
  obtain ⟨open_p, lt, home_p⟩ := open_.parent housed home catches.parent
  obtain ⟨open_d, le, home_d, found, same⟩ := open_p.nearestLive?_eq housed home_p nearest
  obtain ⟨receives, visible⟩ := open_d.own.host m found
  -- nothing hides what the catcher was generated for
  have selects : m.isSelectable = true := by
    have decides := covers.open_
    unfold Method.isStatic at decides
    rw [decides, receives, visible]
    rfl
  obtain ⟨rfl, rfl⟩ : d = owner ∧ m = selected := by simpa using covers.agree selects
  have superclasses := (housed.superclasses_eq home).1
  rw [catches.parent] at superclasses
  have caught : e.caught s key c (e.classAt c).superclasses = e.hostEnd s key d m := by
    rw [superclasses, caught_eq housed home_p, nearest]
    dsimp only
    unfold Method.isStatic
    rw [receives, covers.permitted]
    rfl
  have above : e.nearestLive? s key c = e.nearestLive? s key d := by
    rw [nearestLive?_of_parent housed home gone, catches.parent, Option.bind_some, same]
  rw [caught, further d (Nat.lt_of_le_of_lt le lt) m open_d home_d found covers.concrete]
  unfold selectedEnd
  rw [open_.selectedBody_eq reachable during verifies home,
    open_d.selectedBody_eq reachable during verifies home_d, above]

/-- What the host has for a member, with a body, comes out where virtual calls by live versions
do. -/
theorem OpenAbove.hostEnd_eq (open_ : e.OpenAbove s key c) (ordinary : e.Ordinary s key)
    (home : e.Homes s c) (found : (e.classAt c).method? key = some b)
    (concrete : b.isAbstract = false) : e.hostEnd s key c b = e.selectedEnd s key c := by
  have lineage := during.lineage reachable.lineage
  -- catchers lead to classes that were defined before
  induction c using Nat.strong_induction_on generalizing b with
  | _ c ih =>
    obtain ⟨receives, -⟩ := open_.own.host b found
    have fits : (Body.mk c b).fits key.sig = true := by
      unfold Body.fits Method.argCount Method.isStatic
      rw [concrete, receives, (lineage.method_eq found).2]
      simp
    have selected : e.selectedEnd s key c = ((e.nearestLive? s key c).bind fun live =>
        e.resolvedBody live key).filter (Body.fits key.sig) := by
      unfold selectedEnd
      rw [open_.selectedBody_eq reachable during verifies home]
    unfold hostEnd entered
    rw [if_pos fits]
    cases managed : e.managedOf? s c with
    | none =>
      rw [selected, nearestLive?_of_own (ownLiveMethod?_unmanaged managed found), Option.bind_some,
        resolvedBody_host (by rw [during.declared_eq reachable home managed found]; exact concrete),
        Option.filter_some, if_pos fits]
    | some t =>
      have governs := ordinary.governs_home reachable during home managed
      dsimp only
      cases declares : (e.typeAt t).live.shape.method? key with
      | some shape =>
        rw [selected, nearestLive?_of_own (ownLiveMethod?_managed managed declares),
          Option.bind_some, governs.filter_resolvedBody ordinary declares]
        rfl
      | none =>
        have gone := ownLiveMethod?_undeclared managed declares
        cases first : (e.typeAt t).first.unit.method? key with
        | some m =>
          rw [selected, ← open_.inheritedBody_eq reachable during verifies ordinary home managed
            gone (found ▸ rfl)]
          rfl
        | none =>
          exact open_.hostEnd_caught reachable during verifies ordinary home managed gone first
            (lineage.takesObjects found fits)
            fun d lt m open_d home_d there bodied => ih d lt open_d home_d there bodied

/-- So does what the host selects. -/
theorem OpenAbove.tableEnd_eq (open_ : e.OpenAbove s key x) (ordinary : e.Ordinary s key)
    (home : e.Homes s x) : e.tableEnd s key x = e.selectedEnd s key x := by
  have housed := during.housed reachable.housed reachable.grounded
  unfold tableEnd
  cases selects : e.nearestSelectable? x key with
  | none => rfl
  | some found =>
    obtain ⟨c, b⟩ := found
    dsimp only
    cases concrete : b.isAbstract with
    | true => rfl
    | false =>
      obtain ⟨⟨d, m⟩, nearest, agree⟩ := findSome?_filter selects
      obtain ⟨open_d, -, home_d, found, same⟩ := open_.nearestLive?_eq housed home nearest
      obtain ⟨receives, visible⟩ := open_d.own.host m found
      have selectable : m.isSelectable = true := by
        have keyed := ((during.lineage reachable.lineage).method_eq found).2
        unfold Method.isSelectable Method.isStatic Method.isConstructor
        rw [keyed, ordinary.plain, ordinary.early, receives, visible]
        rfl
      obtain ⟨rfl, rfl⟩ : d = c ∧ m = b := by simpa using agree selectable
      rw [if_neg Bool.false_ne_true,
        open_d.hostEnd_eq reachable during verifies ordinary home_d found concrete]
      unfold selectedEnd
      rw [open_.selectedBody_eq reachable during verifies home,
        open_d.selectedBody_eq reachable during verifies home_d, same]

end Chains

end Engine

namespace Machine

variable {e₀ e : Engine} {s : ScopeRef} {key : MemberKey} {x caller owner : ClassRef}
  {kind : InvokeKind} {ref : MethodRef} {live : LiveMethod} {linked : ClassRef × Method}
  {o : ObjectRef} {rest : List Value}

section Ends

variable (reachable : e₀.Reachable) (during : e₀.During e) (ordinary : e.Ordinary s key)
  (count : rest.length = key.sig.arity)
include reachable during ordinary count

/-- A call of what is selected from the table of a class. -/
theorem endsIn_callSelected (home : e.Homes s x) : ∃ n, EndsIn e s key.sig (.object o :: rest)
    (fun k => (Machine.of s (n + k)).callSelected x key (.object o :: rest))
    (e.tableEnd s key x) := by
  have housed := during.housed reachable.housed reachable.grounded
  have statics := during.staticsMisfit reachable s
  have table := (during.lineage reachable.lineage).get?_vtable x key
  have undecided (open_ : ∀ selected, (e.classAt x).vtable.get? key = some selected →
      selected.isAbstract = true) : ∃ n, EndsIn e s key.sig (.object o :: rest)
      (fun k => (Machine.of s (n + k)).callSelected x key (.object o :: rest))
      (e.selectedEnd s key x) := by
    obtain ⟨n, ends⟩ := endsIn_callVirtual (o := o) statics ordinary.plain count
      (ordinary.arrives_selectedBody reachable during x)
    exact ⟨n, ends.congr fun k _ depth =>
      callSelected_undecided (e := { e with depth }) open_ (.object o :: rest)⟩
  unfold Engine.tableEnd
  cases selects : e.nearestSelectable? x key with
  | none =>
    rw [selects] at table
    exact undecided fun selected there => absurd (table.symm.trans there) nofun
  | some found =>
    obtain ⟨c, b⟩ := found
    rw [selects] at table
    have table : (e.classAt x).vtable.get? key = some b := table
    dsimp only
    cases concrete : b.isAbstract with
    | true =>
      exact undecided fun selected there => Option.some.inj (table.symm.trans there) ▸ concrete
    | false =>
      obtain ⟨d, mem, here⟩ := List.exists_of_findSome?_eq_some selects
      obtain ⟨own, -⟩ := Option.filter_eq_some_iff.1 here
      obtain ⟨m, declares, same⟩ := Option.map_eq_some_iff.1 own
      obtain ⟨rfl, rfl⟩ : d = c ∧ m = b := by simpa using same
      have home_d : e.Homes s d := by
        rcases List.mem_cons.1 mem with rfl | above
        · exact home
        · exact ((housed.superclasses_descend home).1 d above).2
      have declaring := ((during.lineage reachable.lineage).method_eq declares).1
      have above : e.ancestor? x m.declaring = some d := declaring ▸ housed.ancestor?_eq home mem
      obtain ⟨n, ends⟩ := endsIn_of_arrives (o := o) statics count
        (ordinary.arrives_hostEnd reachable during home_d declares)
      exact ⟨n, ends _ fun k depth =>
        callSelected_apply (e := { e with depth }) table concrete above (.object o :: rest)⟩

end Ends

/-- The host makes no call of a method that the caller may not use. -/
theorem callNative_denied {m : Machine} (known : e.class? m.scope ref.owner = some owner)
    (found : e.hostMethod? owner ref.key = some linked)
    (fits : checkInvokeKind kind ref linked.2.isStatic = .ok ())
    (denied : e.mayUse m.scope caller linked.2.declaring linked.2.declared = false)
    (args : List Value) : m.callNative caller kind ref args e =
      .error (.error (e.refusal m.scope caller linked.2.declared ref.text)) e := by
  obtain ⟨c, b⟩ := linked
  unfold callNative Engine.requireClass
  rw [bind_apply, check_apply, known]
  dsimp only
  rw [bind_apply, require_apply, found]
  dsimp only
  rw [bind_apply, ofResult_apply, fits]
  dsimp only
  rw [bind_apply, check_apply, Engine.checkAccess_eq, denied]
  rfl

section Passed

variable (reachable : e₀.Reachable) (during : e₀.During e) (ordinary : e.Ordinary s ref.key)
  (count : rest.length = ref.sig.arity) (selects : kind.isSelecting = true)
  (typed : (e.classOf o).isSubtypeOf ref.owner = true)
include reachable during ordinary count selects typed

/-- A virtual call on an object, as the host links it. -/
theorem endsIn_callNative (home : e.Homes s (e.objectAt o).cls)
    (known : e.class? s ref.owner = some owner)
    (found : e.hostMethod? owner ref.key = some linked)
    (fits : checkInvokeKind kind ref linked.2.isStatic = .ok ()) :
    ∃ n, EndsIn e s ref.sig (.object o :: rest)
      (fun k => (Machine.of s (n + k)).callNative caller kind ref (.object o :: rest))
      (e.linkedEnd s ref.key caller (e.objectAt o).cls linked) := by
  have housed := during.housed reachable.housed reachable.grounded
  unfold Engine.linkedEnd
  cases permitted : e.mayUse s caller linked.2.declaring linked.2.declared with
  | false =>
    rw [if_neg Bool.false_ne_true]
    exact ⟨0, fun k _ depth => ⟨_, _, callNative_denied (e := { e with depth })
      (m := Machine.of s (0 + k)) known found fits permitted _⟩⟩
  | true =>
    rw [if_pos rfl]
    obtain ⟨c, b⟩ := linked
    have made (m : Machine) (scope : m.scope = s) (depth : Nat) :
        m.callNative caller kind ref (.object o :: rest) { e with depth } =
          if b.modifiers.isPrivate then m.call c b (.object o :: rest) { e with depth }
          else m.callSelected (e.objectAt o).cls ref.key (.object o :: rest) { e with depth } := by
      subst scope
      have called := callNative_object (e := { e with depth }) known found fits permitted selects o
        rest
      exact called.trans (if_pos typed)
    cases private_ : b.modifiers.isPrivate with
    | true =>
      obtain ⟨home_c, own⟩ :=
        (during.layered reachable).hostMethod?_homes housed ⟨_, known⟩ found
      obtain ⟨m, declares, same⟩ := Option.map_eq_some_iff.1 own
      obtain rfl : m = b := congrArg Prod.snd same
      obtain ⟨n, ends⟩ := endsIn_of_arrives (o := o) (during.staticsMisfit reachable s) count
        (ordinary.arrives_hostEnd reachable during home_c declares)
      exact ⟨n, ends _ fun k depth => (made _ rfl depth).trans (if_pos private_)⟩
    | false =>
      obtain ⟨n, ends⟩ := endsIn_callSelected reachable during ordinary count (o := o) home
      exact ⟨n, ends.congr fun k _ depth =>
        (made _ rfl depth).trans (if_neg (Bool.eq_false_iff.1 private_))⟩

/-- A virtual call on an object by live versions. -/
theorem endsIn_callDynamic (means : e.resolveMethod s owner ref.key = .ok (some live)) :
    ∃ n, EndsIn e s ref.sig (.object o :: rest)
      (fun k => (Machine.of s (n + k)).callDynamic caller kind ref live (.object o :: rest))
      (e.dynamicEnd s ref.key (e.objectAt o).cls live) := by
  have statics := during.staticsMisfit reachable s
  have made (m : Machine) (depth : Nat) :
      m.callDynamic caller kind ref live (.object o :: rest) { e with depth } =
        if live.modifiers.isPrivate then
          m.callResolved live ref.key (.object o :: rest) { e with depth }
        else m.callVirtual (e.objectAt o).cls ref.key (.object o :: rest) { e with depth } := by
    rw [callDynamic_object selects]
    exact if_pos typed
  unfold Engine.dynamicEnd
  cases private_ : live.modifiers.isPrivate with
  | true =>
    obtain ⟨n, ends⟩ := endsIn_of_arrives (o := o) statics count
      (ordinary.arrives_resolvedBody reachable during means)
    refine ⟨n, ends _ fun k depth => ?_⟩
    rw [made, if_pos private_]
    refine calls_callResolved (e := { e with depth }) fun _ t managed => ?_
    obtain ⟨id, registered⟩ := Engine.registered_of_resolveMethod means managed
    rw [List.length_cons, count]
    exact statics id t registered ref.key ordinary.plain
  | false =>
    obtain ⟨n, ends⟩ := endsIn_callVirtual (o := o) statics ordinary.plain count
      (ordinary.arrives_selectedBody reachable during (e.objectAt o).cls)
    exact ⟨n, ends.congr fun k _ depth =>
      (made _ depth).trans (if_neg (Bool.eq_false_iff.1 private_))⟩

end Passed

/-- After a reload a guard lets a virtual call pass.  The owner that is named is known, it has the
method, and what the scope may remember of that is right. -/
structure LetsPass (m : Machine) (before e : Engine) (caller : ClassRef) (id : TypeId)
    (kind : InvokeKind) (ref : MethodRef) (owner : ClassRef) (live : LiveMethod) : Prop where
  selects : kind.isSelecting = true
  reloaded : (before.scopeAt m.scope).epoch ≠ 0
  known : before.class? m.scope ref.owner = some owner
  means : before.resolveMethod m.scope owner ref.key = .ok (some live)
  remembers : m.Remembers before id owner kind ref.key live
  routed : m.routeInvoke caller id kind ref before = .ok .native e

variable {m : Machine} {before : Engine} {id : TypeId}

/-- So the host links the call to a method of the kind that it needs. -/
theorem LetsPass.links (passes : m.LetsPass before e caller id kind ref owner live) :
    e.skeleton = before.skeleton ∧ ∃ linked, e.hostMethod? owner ref.key = some linked ∧
      checkInvokeKind kind ref linked.2.isStatic = .ok () := by
  obtain ⟨e', epoch, same, target⟩ :=
    liveTarget?_apply passes.known passes.means passes.remembers
  have routed := passes.routed
  unfold routeInvoke at routed
  rw [bind_apply, ask_apply] at routed
  dsimp only at routed
  rw [if_neg passes.reloaded, bind_apply, target] at routed
  dsimp only at routed
  rw [bind_apply, ofResult_apply] at routed
  cases fits : checkInvokeKind kind ref live.isStatic with
  | error error =>
    rw [fits] at routed
    cases routed
  | ok _ =>
    rw [fits] at routed
    dsimp only at routed
    rw [bind_apply, check_apply] at routed
    cases access : e'.checkAccess m.scope caller live.declaring live.modifiers ref.text with
    | error error =>
      rw [access] at routed
      cases routed
    | ok _ =>
      rw [access] at routed
      dsimp only at routed
      cases native : linksTo before owner kind ref.key live with
      | false =>
        rw [native] at routed
        cases routed
      | true =>
        rw [native] at routed
        obtain rfl : e' = e := (EStateM.Result.ok.inj routed).2
        refine ⟨same, ?_⟩
        rw [Engine.hostMethod?_of_skeleton_eq same]
        unfold linksTo at native
        split at native
        next c host found =>
          simp only [Bool.and_eq_true, decide_eq_true_eq] at native
          exact ⟨(c, host), found, native.1 ▸ fits⟩
        · cases native

end Machine

/-- The caller of a call that a guard let pass may use the method that the host links it to, neither
that nor the live method is private, and the member is open to virtual calls in the receiver's class
and above. -/
structure Engine.OpenCall (e : Engine) (s : ScopeRef) (caller x : ClassRef) (key : MemberKey)
    (linked : ClassRef × Method) (live : LiveMethod) : Prop where
  permitted : e.mayUse s caller linked.2.declaring linked.2.declared = true
  host : linked.2.modifiers.isPrivate = false
  live : live.modifiers.isPrivate = false
  above : e.OpenAbove s key x

/-- In a reachable engine, or while code runs in it, let a guard let a virtual call on an object
pass.  As the host links it the call comes out at the body that is read off the first and the live
versions, by live versions it comes out at the one that is read off the live ones, and where there
is no such body it fails.  Under verification that is one body if the member is open to the
call. -/
theorem passed_call_comes_out {e₀ before e : Engine} {m : Machine} (reachable : e₀.Reachable)
    (during : e₀.During before) {caller owner : ClassRef} {id : TypeId} {kind : InvokeKind}
    {ref : MethodRef} {live : LiveMethod}
    (passes : m.LetsPass before e caller id kind ref owner live)
    (ordinary : e.Ordinary m.scope ref.key) {o : ObjectRef} {rest : List Value}
    (home : e.Homes m.scope (e.objectAt o).cls)
    (typed : (e.classOf o).isSubtypeOf ref.owner = true) (count : rest.length = ref.sig.arity) :
    ∃ linked, e.hostMethod? owner ref.key = some linked ∧
      (∃ n, Machine.EndsIn e m.scope ref.sig (.object o :: rest)
        (fun k => (Machine.of m.scope (n + k)).callNative caller kind ref (.object o :: rest))
        (e.linkedEnd m.scope ref.key caller (e.objectAt o).cls linked)) ∧
      (∃ n, Machine.EndsIn e m.scope ref.sig (.object o :: rest)
        (fun k => (Machine.of m.scope (n + k)).callDynamic caller kind ref live
          (.object o :: rest))
        (e.dynamicEnd m.scope ref.key (e.objectAt o).cls live)) ∧
      (e.Verifies m.scope → e.OpenCall m.scope caller (e.objectAt o).cls ref.key linked live →
        e.linkedEnd m.scope ref.key caller (e.objectAt o).cls linked =
          e.dynamicEnd m.scope ref.key (e.objectAt o).cls live) := by
  obtain ⟨same, linked, found, fits⟩ := passes.links
  have later := Engine.During.of_skeleton_eq same
  have during := during.trans later
  have known := (later.class? m.scope ref.owner).trans passes.known
  have means := (later.resolveMethod m.scope owner ref.key).trans passes.means
  refine ⟨linked, found,
    Machine.endsIn_callNative reachable during ordinary count passes.selects typed home known found
      fits,
    Machine.endsIn_callDynamic reachable during ordinary count passes.selects typed means,
    fun verifies open_ => ?_⟩
  unfold Engine.linkedEnd Engine.dynamicEnd
  rw [if_pos open_.permitted, if_neg (Bool.eq_false_iff.1 open_.host),
    if_neg (Bool.eq_false_iff.1 open_.live)]
  exact open_.above.tableEnd_eq reachable during verifies ordinary home

namespace Hiding

open Shadowing (given)

/-- The call of a method that two types declare, through the upper one. -/
def ref : MethodRef := ⟨"app.P", "m", ⟨[], .int⟩⟩

/-- A type with a constructor and the method. -/
def answering (u : TypeUnit) (access : Modifiers) (n : Int64) : TypeUnit :=
  u.addDefaultConstructor.addMethod (.make ref.name ref.sig access [.constInt n, .retValue])

def above : TypeUnit := answering (.named "app.P") .publicBit 1

def below (access : Modifiers) (n : Int64) : TypeUnit :=
  answering ((TypeUnit.named "app.C").extending "app.P") access n

/-- A scope in which the upper type was defined. -/
def defined : Engine := (Engine.opened { included := ["app.*"] }).defining 8 above

/-- The scope after the lower type was defined and an object of it was made. -/
def made : Engine :=
  ((Scope.Use.newInstance "app.C" .void []).perform 60 0).final
    (defined.defining 8 (below .publicBit 2))

/-- The scope after a reload of the lower type. -/
def engine (access : Modifiers) (n : Int64) : Engine := made.reloading 8 1 "later" (below access n)

/-- The decision of the guard. -/
def deciding : Run InvokeRoute := (Machine.of 0 8).routeInvoke 0 0 .virtual ref

/-- The scope after it. -/
def passed (access : Modifiers) (n : Int64) : Engine := deciding.final (engine access n)

/-- The method of the upper type in its host class, behind a check. -/
def linked : Method where
  key := ref.key
  modifiers := .publicBit
  declared := .publicBit
  declaring := "app.P"
  maxLocals := 1
  code := [.entryCheck 0 1, .constInt 1, .retValue]

/-- What live versions mean by it. -/
def live : LiveMethod := ⟨"app.P", .publicBit, some 0, some (0, linked)⟩

/-- Whether a guard let the call pass. -/
def isNative (outcome : EStateM.Result (Stop RunError) Engine InvokeRoute) : Bool :=
  match outcome with
  | .ok .native _ => true
  | _ => false

theorem eq_ok_of_isNative {x : Run InvokeRoute} {e : Engine} (native : isNative (x e) = true) :
    x e = .ok .native (x.final e) := by
  unfold Exec.final
  cases run : x e with
  | ok route e' =>
    rw [run] at native
    cases route with
    | native => rfl
    | dynamic live => cases native
  | error stop e' =>
    rw [run] at native
    cases native

/-- What the scope has after the reload, and after the guard has let the call pass. -/
def Passes (access : Modifiers) (n : Int64) : Prop :=
  (defined.scopes.size = 1 ∧ made.types.size = 2) ∧
    ((engine access n).scopeAt 0).epoch ≠ 0 ∧
    ((engine access n).class? 0 ref.owner = some 0 ∧
      (engine access n).resolveMethod 0 0 ref.key = .ok (some live)) ∧
    ((engine access n).scopeAt 0).routes.get? (0, .virtual, ref.key) = none ∧
    isNative (deciding (engine access n)) = true ∧
    (((passed access n).objectAt 0).cls = 1 ∧ (passed access n).class? 0 "app.C" = some 1 ∧
      ((passed access n).classOf 0).isSubtypeOf ref.owner = true ∧
      (passed access n).hostMethod? 0 ref.key = some (0, linked) ∧
      (passed access n).mayUse 0 0 linked.declaring linked.declared = true ∧
      ((passed access n).scopeAt 0).options.verifyReloads = true)

theorem Passes.reachable {access : Modifiers} {n : Int64} (passes : Passes access n) :
    (engine access n).Reachable := by
  obtain ⟨⟨one, two⟩, -⟩ := passes
  have opened : (Engine.opened { included := ["app.*"] }).Reachable := Engine.reachable_opened _
  have upper : defined.Reachable := opened.defining 8 above (by decide)
  have lower := upper.defining 8 (below .publicBit 2) (by rw [one]; exact Nat.one_pos)
  have object : made.Reachable := lower.step (.use 60 0 _)
  exact object.reloading 8 1 "later" (below access n) (by rw [two]; exact Nat.one_lt_two)

theorem Passes.letsPass {access : Modifiers} {n : Int64} (passes : Passes access n) :
    (Machine.of 0 8).LetsPass (engine access n) (passed access n) 0 0 .virtual ref 0 live := by
  obtain ⟨-, reloaded, ⟨known, means⟩, fresh, native, -⟩ := passes
  exact ⟨rfl, reloaded, known, means, fun route held => absurd (fresh.symm.trans held) nofun,
    eq_ok_of_isNative native⟩

/-- The method of the executor of the lower type. -/
def compiled : Method where
  key := ⟨"m", ⟨[.ref "app.C"], .int⟩⟩
  modifiers := .publicBit ||| .staticBit ||| .syntheticBit
  declared := .publicBit ||| .staticBit ||| .syntheticBit
  declaring := "app.C$$E1"
  maxLocals := 1
  code := [.constInt 3, .retValue]

/-- The member is open to virtual calls in a class, and the class declares it now. -/
def Declares (e : Engine) (c : ClassRef) : Prop :=
  (∀ live ∈ e.ownLiveMethod? 0 ref.key c,
    live.modifiers.isStatic = false ∧ live.modifiers.isPrivate = false) ∧
  (∀ b ∈ (e.classAt c).method? ref.key,
    b.modifiers.isStatic = false ∧ b.modifiers.isPrivate = false) ∧
  ((e.classAt c).method? ref.key).isSome ∧ (e.ownLiveMethod? 0 ref.key c).isSome

set_option maxRecDepth 100000 in
/-- The lower type's method stays public. -/
theorem outcomes_public : Passes .publicBit 3 ∧
    ((∀ t < (passed .publicBit 3).types.size,
        ((passed .publicBit 3).typeAt t).slots.slots.length ≤ UInt32.size ∧
          ((passed .publicBit 3).typeAt t).DigestsApart) ∧
      ∀ d < (passed .publicBit 3).classes.size,
        ∀ b ∈ ((passed .publicBit 3).classAt d).method? ref.key,
          b.modifiers.contains .superDispatcherBit = false ∧
            b.modifiers.contains .catcherBit = false) ∧
    ((passed .publicBit 3).classAt 1).superclasses = [0] ∧
    (∀ c ∈ [1, 0], Declares (passed .publicBit 3) c) ∧
    (passed .publicBit 3).dynamicEnd 0 ref.key 1 live = some ⟨3, compiled⟩ := by
  unfold Passes Declares ManagedType.DigestsApart TypeUnit.DigestsCollide
  decide +kernel

set_option maxRecDepth 100000 in
/-- It becomes private. -/
theorem outcomes_private : Passes .privateBit 2 ∧
    given ((Machine.of 0 8).callNative 0 .virtual ref [.object 0] (passed .privateBit 2)) =
      some (.int 2) ∧
    given ((Machine.of 0 8).callDynamic 0 .virtual ref live [.object 0] (passed .privateBit 2)) =
      some (.int 1) := by
  unfold Passes
  decide +kernel

end Hiding

open Hiding in
/-- After a reload that leaves the overriding method public, the call that the guard lets pass and
the call by live versions both come out at the method of the executor. -/
theorem passed_call_comes_out_overridden :
    (Machine.of 0 8).LetsPass (engine .publicBit 3) (passed .publicBit 3) 0 0 .virtual ref 0 live ∧
    (passed .publicBit 3).OpenCall 0 0 1 ref.key (0, linked) live ∧
    (∃ n, Machine.EndsIn (passed .publicBit 3) 0 ref.sig [.object 0]
      (fun k => (Machine.of 0 (n + k)).callNative 0 .virtual ref [.object 0])
      (some ⟨3, compiled⟩)) ∧
    ∃ n, Machine.EndsIn (passed .publicBit 3) 0 ref.sig [.object 0]
      (fun k => (Machine.of 0 (n + k)).callDynamic 0 .virtual ref live [.object 0])
      (some ⟨3, compiled⟩) := by
  obtain ⟨open_, ⟨types, classes⟩, superclasses, declared, end_⟩ := outcomes_public
  have reachable := open_.reachable
  have passes := open_.letsPass
  obtain ⟨-, -, -, -, -, cls, known, typed, found, permitted, verifies⟩ := open_
  -- What matters about the engines is known; their definitions are not to be unfolded.
  generalize engine .publicBit 3 = before at *
  generalize passed .publicBit 3 = e at *
  have housed : e.Housed := (Engine.During.of_skeleton_eq passes.links.1).housed reachable.housed
    reachable.grounded
  have ordinary : e.Ordinary 0 ref.key := .of_bounded housed (by decide) (by decide) types classes
  have open_ : e.OpenCall 0 0 1 ref.key (0, linked) live := by
    refine ⟨permitted, by decide, by decide, fun c mem => ?_⟩
    rw [superclasses] at mem
    obtain ⟨own, host, there, declares⟩ := declared c mem
    exact ⟨own, host, fun _ => there, fun gone => by rw [gone] at declares; cases declares⟩
  obtain ⟨linked', found', native, dynamic, same⟩ := passed_call_comes_out reachable (.refl before)
    passes ordinary (cls ▸ ⟨_, known⟩) typed (List.length_nil (α := Value))
  obtain rfl : (0, linked) = linked' := Option.some.inj (found.symm.trans found')
  rw [Machine.scope_of, cls] at native dynamic same
  rw [same verifies open_, end_] at native
  rw [end_] at dynamic
  exact ⟨passes, open_, native, dynamic⟩

open Hiding in
open Shadowing (given) in
/-- Where a reload has made the overriding method private, a call that a guard lets pass still runs
it, although live versions select the inherited one. -/
theorem passed_call_misses_selected :
    ¬ ∀ (before e : Engine) (m : Machine) (caller owner : ClassRef) (id : TypeId)
      (kind : InvokeKind) (ref : MethodRef) (live : LiveMethod), before.Reachable →
      m.LetsPass before e caller id kind ref owner live → e.Verifies m.scope →
      (∀ linked, e.hostMethod? owner ref.key = some linked →
        e.mayUse m.scope caller linked.2.declaring linked.2.declared = true) →
      ∀ (o : ObjectRef) (rest : List Value), e.Homes m.scope (e.objectAt o).cls →
        (e.classOf o).isSubtypeOf ref.owner = true → rest.length = ref.sig.arity →
        ∀ (n n' : Nat) (value value' : Value),
          given ((Machine.of m.scope n).callNative caller kind ref (.object o :: rest) e) =
            some value →
          given ((Machine.of m.scope n').callDynamic caller kind ref live (.object o :: rest) e) =
            some value' → value = value' := by
  intro right
  obtain ⟨private_, native, dynamic⟩ := outcomes_private
  have reachable := private_.reachable
  have passes := private_.letsPass
  obtain ⟨-, -, -, -, -, cls, known, typed, found, permitted, verifies⟩ := private_
  generalize engine .privateBit 2 = before at *
  generalize passed .privateBit 2 = e at *
  have same := right before e (Machine.of 0 8) 0 0 0 .virtual ref live reachable passes verifies
    (fun linked' found' => by
      obtain rfl : (0, linked) = linked' := Option.some.inj (found.symm.trans found')
      exact permitted)
    0 [] (cls ▸ ⟨_, known⟩) typed rfl 8 8 _ _ native dynamic
  cases same

end LiveUpdate
