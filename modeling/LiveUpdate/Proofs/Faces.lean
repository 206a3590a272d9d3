import LiveUpdate.Machine.Invoke
import LiveUpdate.Proofs.Skeleton

/-!
# What code sees of an engine

Code runs by what the versions in force declare, and by what it has written.  How many versions
a type has had, what they were called and how they differ, how often a scope was reloaded, what
guards and reflection remember and what observers were told, it does not see.  The face of an
engine is what is left when all of that is taken out.  What a reference means, what a call
selects and what is allowed can be read off the face.
-/

set_option autoImplicit false

namespace LiveUpdate

/-- A version without its place in a history. -/
def LiveVersion.face (v : LiveVersion) : LiveVersion :=
  { v with number := 0, stamp := "", delta := none, rerun := false }

/-- A managed type with the version in force, however that one came to be it. -/
def ManagedType.face (t : ManagedType) : ManagedType :=
  { t with versions := [], published := some t.live.face, reloads := 0, lastStamp := none }

/-- A scope of which only remains, whether it was ever reloaded, and nothing of what it
remembers. -/
def Scope.face (s : Scope) : Scope :=
  { s with epoch := min s.epoch 1, routes := [], metadata := [] }

namespace Engine

/-- An engine as code sees it. -/
def face (e : Engine) : Engine :=
  { e with
    types := e.types.map ManagedType.face
    scopes := e.scopes.map Scope.face
    trace := [] }

/-- An engine without its types and scopes: the classes, and what is in the heap. -/
def body (e : Engine) : Engine := { e with types := #[], scopes := #[], trace := [] }

/-- Code sees no difference between two engines. -/
def Resembles (e e' : Engine) : Prop := e'.face = e.face

namespace Resembles

variable {α : Type} {e e' : Engine}

theorem refl (e : Engine) : e.Resembles e := rfl

variable (same : e.Resembles e') (s : ScopeRef)
include same

/-- Questions about classes and the heap. -/
theorem of_body (g : Engine → α) (blind : ∀ e, g e.body = g e) : g e' = g e := by
  have bodies : e'.face.body = e.face.body := congrArg body same
  have bodies : e'.body = e.body := bodies
  rw [← blind e', bodies, blind e]

/-- Questions about a managed type. -/
theorem of_type (t : TypeRef) (g : ManagedType → α) (blind : ∀ type, g type.face = g type) :
    g (e'.typeAt t) = g (e.typeAt t) := by
  have types : e'.types.map ManagedType.face = e.types.map ManagedType.face :=
    congrArg Engine.types same
  have faces : (e'.typeAt t).face = (e.typeAt t).face := by
    unfold typeAt
    rw [← getD_map _ ManagedType.face, ← getD_map _ ManagedType.face, types]
  rw [← blind (e'.typeAt t), faces, blind]

/-- Questions about a scope. -/
theorem of_scope (g : Scope → α) (blind : ∀ scope, g scope.face = g scope) :
    g (e'.scopeAt s) = g (e.scopeAt s) := by
  have scopes : e'.scopes.map Scope.face = e.scopes.map Scope.face := congrArg Engine.scopes same
  have faces : (e'.scopeAt s).face = (e.scopeAt s).face := by
    unfold scopeAt
    rw [← getD_map _ Scope.face, ← getD_map _ Scope.face, scopes]
  rw [← blind (e'.scopeAt s), faces, blind]

section Names

theorem classAt (c : ClassRef) : e'.classAt c = e.classAt c :=
  same.of_body (·.classAt c) fun _ => rfl

theorem nameOf (c : ClassRef) : e'.nameOf c = e.nameOf c := same.of_body (·.nameOf c) fun _ => rfl

theorem class? (name : String) : e'.class? s name = e.class? s name :=
  same.of_scope s (fun scope => scope.classes.get? name) fun _ => rfl

theorem typeWithId? (id : TypeId) : e'.typeWithId? s id = e.typeWithId? s id :=
  same.of_scope s (fun scope => scope.types.get? id) fun _ => rfl

theorem options : (e'.scopeAt s).options = (e.scopeAt s).options :=
  same.of_scope s Scope.options fun _ => rfl

/-- Whether a scope was ever reloaded can be seen. -/
theorem epoch_eq_zero_iff : (e'.scopeAt s).epoch = 0 ↔ (e.scopeAt s).epoch = 0 := by
  refine iff_of_eq (same.of_scope s (fun scope => scope.epoch = 0) fun scope => propext ?_)
  show min scope.epoch 1 = 0 ↔ scope.epoch = 0
  omega

theorem namesOf : e'.namesOf s = e.namesOf s := by
  have registries : e'.registries = e.registries := same.of_body Engine.registries fun _ => rfl
  unfold Engine.namesOf
  rw [registries, same.of_scope s Scope.registry fun _ => rfl]

theorem requireClass (name : String) : e'.requireClass s name = e.requireClass s name := by
  unfold Engine.requireClass
  rw [same.class?]

theorem managedOf? (c : ClassRef) : e'.managedOf? s c = e.managedOf? s c := by
  have typed : e'.typeWithId? s = e.typeWithId? s := funext fun id => same.typeWithId? s id
  unfold Engine.managedOf?
  rw [same.classAt, typed]

theorem managedType (id : TypeId) : Machine.managedType e' s id = Machine.managedType e s id := by
  unfold Machine.managedType
  rw [same.typeWithId?, same.namesOf]

end Names

section Access

theorem actingClass (c : ClassRef) : e'.actingClass s c = e.actingClass s c := by
  have typed : e'.typeWithId? s = e.typeWithId? s := funext fun id => same.typeWithId? s id
  have natives (t : TypeRef) : (e'.typeAt t).native = (e.typeAt t).native :=
    same.of_type t ManagedType.native fun _ => rfl
  unfold Engine.actingClass
  simp only [same.classAt, typed, natives]

theorem descendsFrom (c : ClassRef) (name : String) :
    e'.descendsFrom c name = e.descendsFrom c name :=
  same.of_body (·.descendsFrom c name) fun _ => rfl

theorem checkAccess (caller : ClassRef) (declaring : String) (modifiers : Modifiers)
    (member : String) : e'.checkAccess s caller declaring modifiers member =
      e.checkAccess s caller declaring modifiers member := by
  unfold Engine.checkAccess
  simp only [same.actingClass, same.nameOf, same.descendsFrom]

theorem checkNonVirtual (caller : ClassRef) (method : MethodRef) :
    e'.checkNonVirtual s caller method = e.checkNonVirtual s caller method := by
  unfold Engine.checkNonVirtual
  simp only [same.actingClass, same.nameOf, same.descendsFrom]

end Access

section Members

theorem liveMethod? (t : TypeRef) (key : MemberKey) :
    (e'.typeAt t).live.shape.method? key = (e.typeAt t).live.shape.method? key :=
  same.of_type t (fun type => type.live.shape.method? key) fun _ => rfl

theorem liveParent (c : ClassRef) : e'.liveParent s c = e.liveParent s c := by
  have above (t : TypeRef) : (e'.typeAt t).live.shape.superName = (e.typeAt t).live.shape.superName :=
    same.of_type t (fun type => type.live.shape.superName) fun _ => rfl
  unfold Engine.liveParent
  simp only [same.managedOf?, same.classAt, same.class?, above]

theorem liveChain (c : ClassRef) : e'.liveChain s c = e.liveChain s c := by
  have within (n : Nat) : e'.liveChainWithin s n c = e.liveChainWithin s n c := by
    induction n generalizing c with
    | zero => rfl
    | succ n ih =>
      unfold Engine.liveChainWithin
      simp only [same.liveParent, ih]
  unfold Engine.liveChain
  rw [within, same.of_body Engine.classes fun _ => rfl]

theorem ownLiveMethod? (key : MemberKey) (c : ClassRef) :
    e'.ownLiveMethod? s key c = e.ownLiveMethod? s key c := by
  unfold Engine.ownLiveMethod?
  simp only [same.managedOf?, same.classAt, same.liveMethod?]

theorem resolveMethod (c : ClassRef) (key : MemberKey) :
    e'.resolveMethod s c key = e.resolveMethod s c key := by
  have own : e'.ownLiveMethod? s key = e.ownLiveMethod? s key :=
    funext fun d => same.ownLiveMethod? s key d
  unfold Engine.resolveMethod
  rw [own, same.liveChain, same.of_body (·.interfaceMethod? c key) fun _ => rfl]

theorem ownLiveField? (name : String) (c : ClassRef) :
    e'.ownLiveField? s name c = e.ownLiveField? s name c := by
  have own (t : TypeRef) :
      (e'.typeAt t).live.shape.field? name = (e.typeAt t).live.shape.field? name :=
    same.of_type t (fun type => type.live.shape.field? name) fun _ => rfl
  have placed (t : TypeRef) : (e'.typeAt t).fieldPlacement = (e.typeAt t).fieldPlacement :=
    same.of_type t ManagedType.fieldPlacement fun _ => rfl
  unfold Engine.ownLiveField?
  simp only [same.managedOf?, same.classAt, own, placed]

theorem resolveField (c : ClassRef) (name : String) :
    e'.resolveField s c name = e.resolveField s c name := by
  have inherited (d : ClassRef) : e'.interfaceField? name d = e.interfaceField? name d :=
    same.of_body (·.interfaceField? name d) fun _ => rfl
  unfold Engine.resolveField
  simp only [same.liveChain, same.ownLiveField?, inherited]

theorem selectVirtual (c : ClassRef) (key : MemberKey) :
    e'.selectVirtual s c key = e.selectVirtual s c key := by
  have selects : e'.selectIn? s key = e.selectIn? s key := by
    funext d
    unfold Engine.selectIn?
    simp only [same.managedOf?, same.classAt, same.liveMethod?]
  unfold Engine.selectVirtual
  rw [selects, same.liveChain]

theorem inheritedValue? (o : ObjectRef) (name : String) (sig : TypeSig) :
    e'.inheritedValue? s o name sig = e.inheritedValue? s o name sig := by
  have slot (declaring : String) : e'.slotValue? o declaring name = e.slotValue? o declaring name :=
    same.of_body (·.slotValue? o declaring name) fun _ => rfl
  unfold Engine.inheritedValue?
  simp only [same.managedOf?, same.classAt, same.of_body (·.classOf o) fun _ => rfl, slot]

end Members

end Resembles

end Engine

end LiveUpdate
