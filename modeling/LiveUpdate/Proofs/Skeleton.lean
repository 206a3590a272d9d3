import LiveUpdate.Engine.Basic

/-!
# The skeleton of an engine

Running code writes fields, allocates, initializes classes and remembers answers.  The
skeleton of an engine is what is left when all of that is taken out: the classes with
their methods, the managed types with their versions, the scopes with their names.  What
a reference means, and what a call selects, can be read off the skeleton.
-/

set_option autoImplicit false

namespace LiveUpdate

/-- A class without the values of its static fields and the progress of its
initialization. -/
def Class.skeleton (c : Class) : Class := { c with statics := [], init := .pending }

/-- A managed type without the values of its static fields. -/
def ManagedType.skeleton (t : ManagedType) : ManagedType := { t with statics := {} }

/-- A scope without what it remembers. -/
def Scope.skeleton (s : Scope) : Scope := { s with routes := [], metadata := [] }

namespace Engine

/-- An engine without what running code changes. -/
def skeleton (e : Engine) : Engine :=
  { e with
    classes := e.classes.map Class.skeleton
    objects := #[]
    arrays := #[]
    types := e.types.map ManagedType.skeleton
    scopes := e.scopes.map Scope.skeleton }

variable (e : Engine)

/-- A lookup with a default in a mapped array maps what the lookup finds. -/
theorem getD_map {α β : Type} (xs : Array α) (f : α → β) (i : Nat) (d : α) :
    (xs.map f).getD i (f d) = f (xs.getD i d) := by
  rw [Array.getD_eq_getD_getElem?, Array.getD_eq_getD_getElem?, Array.getElem?_map]
  cases xs[i]? <;> rfl

/-- A lookup where an array has no entry. -/
theorem getD_of_le {α : Type} (xs : Array α) (d : α) {i : Nat} (beyond : xs.size ≤ i) :
    xs.getD i d = d := by
  rw [Array.getD_eq_getD_getElem?, Array.getElem?_eq_none beyond]
  rfl

theorem classAt_skeleton (c : ClassRef) : e.skeleton.classAt c = (e.classAt c).skeleton :=
  getD_map e.classes Class.skeleton c default

theorem typeAt_skeleton (t : TypeRef) : e.skeleton.typeAt t = (e.typeAt t).skeleton :=
  getD_map e.types ManagedType.skeleton t default

theorem scopeAt_skeleton (s : ScopeRef) : e.skeleton.scopeAt s = (e.scopeAt s).skeleton :=
  getD_map e.scopes Scope.skeleton s default

/-- A change of one entry that a view does not show leaves the view of all as it is. -/
theorem map_modify_of_eq {α β : Type} (xs : Array α) (view : α → β) (i : Nat) (f : α → α)
    (h : ∀ x, view (f x) = view x) : (xs.modify i f).map view = xs.map view := by
  apply Array.ext
  · simp
  · intro j hj hj'
    simp only [Array.getElem_map, Array.getElem_modify]
    split <;> simp [h]

theorem skeleton_updateClass (c : ClassRef) (f : Class → Class)
    (h : ∀ cls, (f cls).skeleton = cls.skeleton) :
    (e.updateClass c f).skeleton = e.skeleton := by
  simp only [skeleton, updateClass, map_modify_of_eq _ _ _ _ h]

theorem skeleton_updateType (t : TypeRef) (f : ManagedType → ManagedType)
    (h : ∀ type, (f type).skeleton = type.skeleton) :
    (e.updateType t f).skeleton = e.skeleton := by
  simp only [skeleton, updateType, map_modify_of_eq _ _ _ _ h]

theorem skeleton_updateScope (s : ScopeRef) (f : Scope → Scope)
    (h : ∀ scope, (f scope).skeleton = scope.skeleton) :
    (e.updateScope s f).skeleton = e.skeleton := by
  simp only [skeleton, updateScope, map_modify_of_eq _ _ _ _ h]

/-- The depth is part of the skeleton, and the only part that it shares with no other. -/
theorem skeleton_setDepth (depth : Nat) :
    ({ e with depth } : Engine).skeleton = { e.skeleton with depth } := rfl

variable {e} {e' : Engine}

/-- Engines with one skeleton agree on every class but for static values and progress. -/
theorem classAt_of_skeleton_eq (same : e'.skeleton = e.skeleton) (c : ClassRef) :
    (e'.classAt c).skeleton = (e.classAt c).skeleton := by
  rw [← classAt_skeleton, ← classAt_skeleton, same]

theorem typeAt_of_skeleton_eq (same : e'.skeleton = e.skeleton) (t : TypeRef) :
    (e'.typeAt t).skeleton = (e.typeAt t).skeleton := by
  rw [← typeAt_skeleton, ← typeAt_skeleton, same]

theorem scopeAt_of_skeleton_eq (same : e'.skeleton = e.skeleton) (s : ScopeRef) :
    (e'.scopeAt s).skeleton = (e.scopeAt s).skeleton := by
  rw [← scopeAt_skeleton, ← scopeAt_skeleton, same]

theorem epoch_of_skeleton_eq (same : e'.skeleton = e.skeleton) (s : ScopeRef) :
    (e'.scopeAt s).epoch = (e.scopeAt s).epoch := by
  have scope := congrArg Scope.epoch (scopeAt_of_skeleton_eq same s)
  exact scope

theorem options_of_skeleton_eq (same : e'.skeleton = e.skeleton) (s : ScopeRef) :
    (e'.scopeAt s).options = (e.scopeAt s).options := by
  have scope := congrArg Scope.options (scopeAt_of_skeleton_eq same s)
  exact scope

theorem depth_of_skeleton_eq (same : e'.skeleton = e.skeleton) : e'.depth = e.depth := by
  have depth := congrArg Engine.depth same
  exact depth

end Engine

end LiveUpdate
