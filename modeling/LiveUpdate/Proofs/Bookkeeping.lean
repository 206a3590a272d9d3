import LiveUpdate.Proofs.Reachable
import LiveUpdate.Proofs.Refusing
import LiveUpdate.Proofs.Slots
import Mathlib.Algebra.BigOperators.Group.Finset.Piecewise
import Mathlib.Algebra.Order.BigOperators.Group.Finset

/-!
# The books agree with each other

The versions of a managed type, the version in force, the slots and the counts are kept
apart, and so is the epoch of the scope.  A definition opens the books of a type and an
accepted reload writes all of them; nothing else does.  So they agree after any operations.
-/

set_option autoImplicit false

namespace LiveUpdate

open Exec

namespace ManagedType

/-- The parts of the books of a managed type agree. -/
structure Balanced (t : ManagedType) : Prop where
  versions : ∃ later, t.versions = t.first :: later ∧ t.published = later.getLast? ∧
    t.lastStamp = later.getLast?.map LiveVersion.stamp ∧ t.reloads = later.length
  numbered : ∀ (i : Nat) (v : LiveVersion), t.versions[i]? = some v → v.number = i
  distinct : t.slots.Distinct
  serves : t.slots.Serves (t.first.unit.methods.map MethodDef.key)
  built : ∀ v ∈ t.versions, v.dispatch.entries.map Prod.fst <+: t.slots.slots.map Slot.key
  covered : t.live.dispatch.entries.map Prod.fst = t.slots.slots.map Slot.key

variable {t : ManagedType}

theorem Balanced.of_books (balanced : t.books.Balanced) : t.Balanced :=
  ⟨balanced.versions, balanced.numbered, balanced.distinct, balanced.serves, balanced.built,
    balanced.covered⟩

theorem Balanced.books (balanced : t.Balanced) : t.books.Balanced :=
  ⟨balanced.versions, balanced.numbered, balanced.distinct, balanced.serves, balanced.built,
    balanced.covered⟩

/-- A definition opens the books. -/
theorem balanced_define (id : TypeId) (s : ScopeRef) (data : List UInt8) (u : TypeUnit)
    (shape : TypeShape) {slots : SlotTable} (distinct : slots.Distinct)
    (serves : slots.Serves (u.methods.map MethodDef.key)) :
    (define id s (.first data u shape slots) slots).Balanced := by
  have entries : (DispatchTable.allHost slots).entries.map Prod.fst = slots.slots.map Slot.key :=
    List.map_map ..
  refine ⟨⟨[], rfl, rfl, rfl, rfl⟩, fun i v found => ?_, distinct, serves, fun v mem => ?_, entries⟩
  · obtain ⟨lt, rfl⟩ := List.getElem?_eq_some_iff.1 found
    have zero : i = 0 := Nat.lt_one_iff.1 lt
    subst zero
    rfl
  · rcases List.mem_singleton.1 mem with rfl
    exact entries ▸ List.prefix_refl _

/-- A publication keeps the books balanced. -/
theorem Balanced.publish (balanced : t.Balanced) {v : LiveVersion} {keys : List MemberKey}
    (enterable : ∀ key ∈ keys, key.isStaticInit = false) (number : v.number = t.versions.length)
    (entries : v.dispatch.entries.map Prod.fst =
      (t.slots.assignAll keys .added).slots.map Slot.key) :
    ({ t with slots := t.slots.assignAll keys .added }.publish v).Balanced := by
  obtain ⟨later, all, published, stamp, count⟩ := balanced.versions
  refine ⟨⟨later ++ [v], ?_, ?_, ?_, ?_⟩, fun i w found => ?_, balanced.distinct.assignAll keys _,
    balanced.serves.assignAll (fun key mem _ => enterable key mem) (by decide), fun w mem => ?_,
    entries⟩
  · show t.versions ++ [v] = _
    rw [all]
    rfl
  · simp [ManagedType.publish]
  · simp [ManagedType.publish]
  · show t.reloads + 1 = _
    rw [count, List.length_append]
    rfl
  · have found : (t.versions ++ [v])[i]? = some w := found
    by_cases old : i < t.versions.length
    · rw [List.getElem?_append_left old] at found
      exact balanced.numbered i w found
    · rw [List.getElem?_append_right (Nat.le_of_not_lt old)] at found
      obtain ⟨lt, rfl⟩ := List.getElem?_eq_some_iff.1 found
      have last : i - t.versions.length = 0 := Nat.lt_one_iff.1 lt
      simp only [last, List.getElem_cons_zero, number]
      omega
  · rcases List.mem_append.1 mem with old | new
    · exact (balanced.built w old).trans ((t.slots.prefix_assignAll keys .added).map Slot.key)
    · rcases List.mem_singleton.1 new with rfl
      exact entries ▸ List.prefix_refl _

end ManagedType

namespace HostForm

/-- The slots of a host form are given out to different members. -/
theorem distinct_slots (u : TypeUnit) (id : TypeId) (parent : Option Class) :
    (ofUnit u id parent).slots.Distinct :=
  (SlotTable.distinct_empty.assignAll _ _).assignAll _ _

/-- A host form has slots for what its unit declares and for what it catches. -/
theorem serves_slots (u : TypeUnit) (id : TypeId) (parent : Option Class) :
    (ofUnit u id parent).slots.Serves (u.methods.map MethodDef.key) := by
  have declared : (u.methods.filter fun m => !m.isStaticInit).map MethodDef.key =
      (u.methods.map MethodDef.key).filter fun key => !key.isStaticInit := by
    rw [List.filter_map]
    rfl
  unfold ofUnit
  dsimp only
  rw [declared]
  refine (SlotTable.serves_declared _).assignAll (fun key mem => ?_) (by decide)
  obtain ⟨c, caught, rfl⟩ := List.mem_map.1 mem
  cases parent with
  | none => cases caught
  | some p =>
    obtain ⟨e, inherited, rfl⟩ := List.mem_map.1 caught
    have undeclared : (u.method? e.1).isNone := by
      have kept := (List.mem_filter.1 inherited).2
      rw [Bool.and_eq_true] at kept
      exact kept.2
    intro declared
    obtain ⟨m, mem', same⟩ := List.mem_map.1 declared
    rw [Option.isNone_iff_eq_none] at undeclared
    have other := List.find?_eq_none.1 undeclared m mem'
    exact absurd (decide_eq_true same) other

end HostForm

namespace Scope

/-- Looking up the classes that a unit names changes nothing. -/
theorem keeps_requireParents {γ : Type} {π : Engine → γ} (s : ScopeRef) (u : TypeUnit) :
    Keeps π (requireParents s u) := by
  have all (names : List String) : Keeps π
      (names.mapM fun name => check fun e => e.requireClass s name : Run (List ClassRef)) := by
    induction names with
    | nil => exact keeps_pure _
    | cons name rest ih =>
      rw [List.mapM_cons]
      exact keeps_bind (keeps_check _) fun _ => keeps_bind ih fun _ => keeps_pure _
  refine keeps_bind ?_ fun _ => keeps_bind (all _) fun _ => keeps_pure _
  cases u.superName with
  | none => exact keeps_pure _
  | some name => exact keeps_bind (keeps_check _) fun _ => keeps_pure _

theorem keepsBooks_defineHost (s : ScopeRef) (t : TypeRef) (id : TypeId) (spec : ClassSpec) :
    Keeps Engine.books (defineHost s t id spec) := by
  refine keeps_tryCatch ?_ fun stop => ?_
  · refine keeps_bind (keeps_mapError _ (keepsBooks_defineClass s spec)) fun c =>
      keeps_bind (keeps_modify fun e => ?_) fun _ => keeps_pure _
    exact e.books_updateType_of_eq t fun _ => rfl
  · exact keeps_bind (keeps_modify fun _ => rfl) fun _ => keeps_throw _

theorem keepsBooks_definePlain (s : ScopeRef) (u : TypeUnit) (parent : Option ClassRef)
    (interfaces : List ClassRef) : Keeps Engine.books (definePlain s u parent interfaces) :=
  keeps_bind (keeps_modifyGet fun _ => rfl) fun _ => keepsBooks_defineClass s _

end Scope

namespace Engine

variable {e e' e'' : Engine} {t : TypeRef}

/-- The books of an engine are those of another, but for books that were opened. -/
def Opens (e e' : Engine) : Prop :=
  e'.books = e.books ∨ ∃ type : ManagedType, type.Balanced ∧ e'.books = e.books.push type.books

theorem Opens.of_eq (opens : e'.Opens e'') (same : e'.books = e.books) : e.Opens e'' := by
  unfold Opens
  rw [← same]
  exact opens

theorem Opens.of_books_eq (opens : e.Opens e') (same : e''.books = e'.books) : e.Opens e'' := by
  unfold Opens
  rw [same]
  exact opens

end Engine

namespace Scope

variable {e : Engine}

/-- The form of a unit with guards has the same members. -/
theorem ends_guardUnit (s : ScopeRef) (u : TypeUnit) :
    e.Ends (guardUnit s u : Exec ReloadError TypeUnit)
      (fun guarded e' => e'.books = e.books ∧
        guarded.methods.map MethodDef.key = u.methods.map MethodDef.key) fun _ _ => False :=
  ⟨rfl, List.map_map ..⟩

/-- However the definition of a managed type comes out, at most its books were opened. -/
theorem ends_defineManaged (s : ScopeRef) (data : List UInt8) (u : TypeUnit)
    (parent : Option ClassRef) (interfaces : List ClassRef) :
    e.Ends (defineManaged s data u parent interfaces) (fun _ e' => e.Opens e')
      fun _ e' => e.Opens e' := by
  unfold defineManaged registerType
  simp only [bind_assoc]
  have counts : Keeps Engine.books (idFor s u.name : Exec ReloadError TypeId) :=
    keeps_modifyGet fun _ => rfl
  have numbered := Engine.ends_of_keeps (e := e) counts
  refine Engine.ends_bind (numbered.weaken (fun _ _ h => h) fun _ _ h => .inl h)
    fun id e₁ books₁ => ?_
  refine Engine.ends_ofResult_bind (fun shape _ => ?_) fun error _ => .inl books₁
  refine Engine.ends_bind_done (ends_guardUnit s u) fun guarded e₂ held => ?_
  obtain ⟨same, keys⟩ := held
  have books₂ : e₂.books = e.books := same.trans books₁
  refine Engine.ends_ask_bind (Engine.ends_ask_bind ?_)
  split
  · exact .inl books₂
  · let form := HostForm.ofUnit guarded id (parent.map e₂.classAt)
    let type := ManagedType.define id s (.first data u shape form.slots) form.slots
    have serves : form.slots.Serves (u.methods.map MethodDef.key) := by
      have guardedKeys := HostForm.serves_slots guarded id (parent.map e₂.classAt)
      rwa [keys] at guardedKeys
    have opens : e.Opens (e₂.addType s type) := by
      refine .inr ⟨type, ManagedType.balanced_define id s data u shape
        (HostForm.distinct_slots _ _ _) serves, ?_⟩
      show (e₂.types.push type).map _ = _
      rw [Array.map_push, show e₂.types.map ManagedType.books = e.books from books₂]
    have hosted := Engine.ends_of_keeps (e := e₂.addType s type)
      (keepsBooks_defineHost s e₂.types.size id (form.spec id parent interfaces))
    exact (hosted.weaken (fun _ _ same => opens.of_books_eq same)
      fun _ _ same => opens.of_books_eq same :)

/-- However a definition comes out, at most the books of one type were opened. -/
theorem ends_define (fuel : Nat) (s : ScopeRef) (data : List UInt8) :
    e.Ends (define fuel s data) (fun _ e' => e.Opens e') fun _ e' => e.Opens e' := by
  have untouched : e.Opens e := .inl rfl
  unfold define
  refine Engine.ends_ofResult_bind (fun u _ => ?_) fun _ _ => untouched
  refine Engine.ends_ofResult_bind (fun _ _ => ?_) fun _ _ => untouched
  refine Engine.ends_ask_bind ?_
  split
  · exact untouched
  · have linked := Engine.ends_of_keeps (e := e)
      (keeps_mapError ReloadError.run (keeps_requireParents (π := Engine.books) s u))
    refine Engine.ends_bind (linked.weaken (fun _ _ h => h) fun _ _ h => .inl h)
      fun links e₁ books₁ => ?_
    have initialized (c : ClassRef) (e₂ : Engine) (opens : e.Opens e₂) : e₂.Ends (do
        mapError .run ((Machine.of s fuel).ensureInitialized c)
        return c : Exec ReloadError ClassRef) (fun _ e' => e.Opens e') fun _ e' => e.Opens e' := by
      have ran := Engine.ends_of_keeps (e := e₂) (keeps_mapError ReloadError.run
        (keepsBooks_of_obeys fun law => Machine.obeys_ensureInitialized (obeys_of law s fuel) c))
      exact Engine.ends_bind (ran.weaken (fun _ _ h => opens.of_books_eq h)
        fun _ _ h => opens.of_books_eq h) fun _ _ opens => Engine.ends_pure opens
    refine Engine.ends_ask_bind ?_
    split
    · have managed := ends_defineManaged (e := e₁) s data u links.1 links.2
      exact Engine.ends_bind (managed.weaken (fun _ _ opens => opens.of_eq books₁)
        fun _ _ opens => opens.of_eq books₁) initialized
    · have plain := Engine.ends_of_keeps (e := e₁) (keeps_mapError ReloadError.run
        (keepsBooks_definePlain s u links.1 links.2))
      exact Engine.ends_bind (plain.weaken (fun _ _ same => .inl (same.trans books₁))
        fun _ _ same => .inl (same.trans books₁)) initialized

end Scope

namespace Engine

variable {e e' : Engine} {t : TypeRef} {s : ScopeRef}

/-- The books of every managed type balance. -/
def Balanced (e : Engine) : Prop := ∀ t < e.types.size, (e.typeAt t).Balanced

theorem Balanced.of_books_eq (balanced : e.Balanced) (same : e'.books = e.books) :
    e'.Balanced := by
  intro t lt
  have size : e'.types.size = e.types.size := by rw [← size_books, same, size_books]
  have books := (balanced t (size ▸ lt)).books
  rw [← books_typeAt_of_eq same t] at books
  exact books.of_books

theorem Balanced.of_opens (balanced : e.Balanced) (opens : e.Opens e') : e'.Balanced := by
  rcases opens with same | ⟨type, opened, pushed⟩
  · exact balanced.of_books_eq same
  · intro t lt
    have size : e'.types.size = e.types.size + 1 := by
      rw [← size_books, pushed, Array.size_push, size_books]
    have books : (e'.typeAt t).books =
        if t = e.types.size then type.books else (e.typeAt t).books := by
      rw [← getD_books, pushed, getD_push, size_books, getD_books]
    refine ManagedType.Balanced.of_books ?_
    rw [books]
    split
    · exact opened.books
    · exact (balanced t (by omega)).books

theorem Balanced.of_publishes (balanced : e.Balanced) {stamp : String} {v : LiveVersion}
    (publishes : ManagedType.Publishes e t stamp v e') : e'.Balanced := by
  obtain ⟨keys, enterable, entries, books⟩ := publishes.books
  intro t' lt
  have lt : t' < e.books.size := by
    rw [← size_books, books, Array.size_modify] at lt
    exact lt
  have at_ := getD_modify e.books t (fun type => ManagedType.publish { type with
    slots := (e.typeAt t).slots.assignAll keys .added } v) t' (default : ManagedType).books lt
  rw [← books, getD_books, getD_books] at at_
  refine ManagedType.Balanced.of_books ?_
  rw [at_]
  rw [size_books] at lt
  split
  next here =>
    subst here
    exact ((balanced t lt).publish enterable publishes.number entries).books
  next => exact (balanced t' lt).books

theorem Balanced.refuse (balanced : e.Balanced) (t : TypeRef) :
    (e.updateType t fun type => { type with rejected := type.rejected + 1 }).Balanced := by
  intro t' lt
  have lt : t' < e.types.size := by simpa [updateType] using lt
  rw [e.typeAt_updateType t _ lt]
  have before := balanced t' lt
  split
  · exact ⟨before.versions, before.numbered, before.distinct, before.serves, before.built,
      before.covered⟩
  · exact before

/-- A reload keeps all books balanced, however it comes out. -/
theorem Balanced.of_load (balanced : e.Balanced) (grounded : e.Grounded)
    (type_lt : t < e.types.size) (fuel : Nat) (stamp : String) (data : List UInt8) :
    ((ManagedType.load fuel t stamp data).final e).Balanced := by
  have ends := ManagedType.ends_load grounded type_lt fuel stamp data
  refine Engine.Ends.final (ends.weaken (fun accepted e' h => ?_) fun stop e' h => ?_)
  · cases accepted with
    | true =>
      obtain ⟨v, publishes⟩ := h
      exact balanced.of_publishes publishes
    | false =>
      have h : e' = e.updateType t fun type => { type with rejected := type.rejected + 1 } := h
      rw [h]
      exact balanced.refuse t
  · rcases h with ⟨trace, rfl⟩ | ⟨-, same⟩ | ⟨v, native, -, publishes, -⟩
    · exact balanced
    · exact balanced.of_books_eq same
    · exact balanced.of_publishes publishes

/-- Operations keep all books balanced. -/
theorem Operation.balanced (operation : e.Operation e') (grounded : e.Grounded)
    (balanced : e.Balanced) : e'.Balanced := by
  have kept {ε α : Type} {x : Exec ε α} (hx : Keeps books x) : (x.final e).Balanced :=
    balanced.of_books_eq (hx e)
  cases operation with
  | newRegistry => exact kept (keeps_modifyGet fun _ => rfl)
  | openWith options registry known =>
    exact kept (keeps_bind (keeps_ofResult _) fun _ => keeps_modifyGet fun _ => rfl)
  | number s name => exact kept (keeps_modifyGet fun _ => rfl)
  | define fuel s data scope_lt =>
    have opens := (Scope.ends_define (e := e) fuel s data).final
    exact balanced.of_opens opens
  | load fuel t stamp data type_lt => exact balanced.of_load grounded type_lt fuel stamp data
  | addObserver s observer =>
    exact kept (keeps_bind (keeps_modify fun _ => rfl) fun _ => keeps_ask _)
  | close s => exact kept (keeps_modify fun _ => rfl)
  | superType t =>
    refine kept (keeps_bind (keeps_ask _) fun known => ?_)
    split
    · exact keeps_pure _
    · refine keeps_bind (keeps_ask _) fun found => keeps_bind (keeps_modify fun e => ?_) fun _ =>
        keeps_pure _
      exact e.books_updateType_of_eq t fun _ => rfl
  | metadata s typeName => exact kept (keepsBooks_of_obeys fun law => Reflect.obeys_metadata law s typeName)
  | forget s typeName => exact kept (keepsBooks_of_obeys fun law => Reflect.obeys_forget law s typeName)
  | searchField s name fuel met pending =>
    exact kept (keepsBooks_of_obeys fun law => Reflect.obeys_searchField law s name fuel met pending)
  | collectMethods s fuel found met pending =>
    exact kept (keepsBooks_of_obeys fun law =>
      Reflect.obeys_collectMethods law s fuel found met pending)
  | use fuel s use => exact kept (keepsBooks_of_obeys fun law => use.obeys_perform law fuel s)

theorem Reachable.balanced (reachable : e.Reachable) : e.Balanced := by
  induction reachable with
  | refl => exact fun t lt => by cases lt
  | tail before operation ih => exact operation.balanced (Reachable.grounded before) ih

/-- The number of reloads that a managed type of a scope has accepted, and none for any other
type. -/
def accepted (e : Engine) (s : ScopeRef) (t : TypeRef) : Nat :=
  if e.IsManaged t ∧ (e.typeAt t).scope = s then (e.typeAt t).versions.length - 1 else 0

/-- The epoch of a scope counts the reloads that its managed types have accepted. -/
def Tallied (e : Engine) : Prop :=
  ∀ s, (e.scopeAt s).epoch = ∑ t ∈ Finset.range e.types.size, e.accepted s t

theorem accepted_of_not_managed (unmanaged : ¬ e.IsManaged t) : e.accepted s t = 0 :=
  if_neg fun h => unmanaged h.1

/-- The tally stays right as long as no epoch changes and no type accepts a reload. -/
theorem Tallied.of_same (tallied : e.Tallied)
    (epoch : ∀ s, (e'.scopeAt s).epoch = (e.scopeAt s).epoch)
    (size : e.types.size ≤ e'.types.size)
    (old : ∀ s, ∀ t < e.types.size, e'.accepted s t = e.accepted s t)
    (new : ∀ s, ∀ t, e.types.size ≤ t → t < e'.types.size → e'.accepted s t = 0) : e'.Tallied := by
  intro s
  rw [epoch, tallied s]
  have split : Finset.range e.types.size ⊆ Finset.range e'.types.size :=
    Finset.range_subset_range.2 size
  rw [← Finset.sum_subset split fun t inside outside => ?_]
  · exact Finset.sum_congr rfl fun t mem => (old s t (Finset.mem_range.1 mem)).symm
  · exact new s t (by simpa using outside) (Finset.mem_range.1 inside)

theorem epoch_updateScope (e : Engine) (s : ScopeRef) {f : Scope → Scope}
    (h : ∀ scope, (f scope).epoch = scope.epoch) (s' : ScopeRef) :
    ((e.updateScope s f).scopeAt s').epoch = (e.scopeAt s').epoch := by
  rw [scopeAt_updateScope]
  split
  · exact h _
  · rfl

theorem epoch_addClass (e : Engine) (s : ScopeRef) (cls : Class) (s' : ScopeRef) :
    ((e.addClass s cls).scopeAt s').epoch = (e.scopeAt s').epoch := by
  refine epoch_updateScope { e with classes := e.classes.push cls } s ?_ s'
  intro scope
  rfl

/-- Only a publication changes an epoch. -/
theorem Edit.epoch (edit : e.Edit e') (quiet : ∀ t v, e.Offers t v → e' ≠ e.publish t v) :
    (e'.scopeAt s).epoch = (e.scopeAt s).epoch := by
  cases edit with
  | run same lawful => exact epoch_of_skeleton_eq same s
  | openScope options filter registry usable known =>
    have at_ : ({ e with scopes := e.scopes.push (.empty options filter registry) } :
        Engine).scopeAt s = if s = e.scopes.size then .empty options filter registry
          else e.scopeAt s := getD_push _ _ _ _
    rw [at_]
    split
    next last =>
      have beyond : e.scopeAt s = default := getD_of_le _ _ (Nat.le_of_eq last.symm)
      rw [beyond]
      rfl
    next => rfl
  | setDepth | addRegistry | number | trace | abandon | countArtifact | addSlots | refuse | remember => rfl
  | countClass s' | observe s' observer | close s' =>
    refine epoch_updateScope e s' ?_ s
    intro scope
    rfl
  | addClass s' spec cls admits origin => exact epoch_addClass e s' cls s
  | manage s' type form parent interfaces cls manages hosted admits =>
    refine (epoch_addClass _ s' cls s).trans ?_
    refine epoch_updateScope { e with types := e.types.push type } s' ?_ s
    intro scope
    rfl
  | publish t v offers => exact absurd rfl (quiet t v offers)

/-- What a type has accepted changes only by a publication. -/
theorem Edit.accepted_eq (edit : e.Edit e') (quiet : ∀ t v, e.Offers t v → e' ≠ e.publish t v) :
    (∀ t < e.types.size, e'.accepted s t = e.accepted s t) ∧
      ∀ t, e.types.size ≤ t → t < e'.types.size → e'.accepted s t = 0 := by
  refine ⟨fun t lt => ?_, fun t new lt => ?_⟩
  · have kept := edit.grows.typeAt t lt
    -- A type without a host class counts nothing, whatever stands in its books.
    by_cases hosted : (e'.typeAt t).native.isSome
    · have lt' := Nat.lt_of_lt_of_le lt edit.grows.types
      rcases edit.versions lt' hosted with ⟨-, versions, -⟩ | ⟨v, offers, rfl⟩ | ⟨last, -⟩
      · have managed : e'.IsManaged t := ⟨lt', hosted⟩
        have managed' : e.IsManaged t := ⟨lt, kept.native ▸ hosted⟩
        simp only [accepted, managed, managed', versions, kept.scope]
      · exact absurd rfl (quiet t v offers)
      · exact absurd last (Nat.ne_of_lt lt)
    · rw [accepted_of_not_managed fun managed => hosted managed.2,
        accepted_of_not_managed fun managed => hosted (kept.native ▸ managed.2)]
  · by_cases hosted : (e'.typeAt t).native.isSome
    · rcases edit.versions lt hosted with ⟨old, -⟩ | ⟨v, offers, rfl⟩ |
          ⟨-, s', form, parent, interfaces, manages⟩
      · exact absurd old (Nat.not_lt.2 new)
      · exact absurd rfl (quiet t v offers)
      · have versions : (e'.typeAt t).versions = [(e'.typeAt t).first] := by
          rw [manages.defines]
          rfl
        unfold accepted
        rw [versions]
        split <;> rfl
    · exact accepted_of_not_managed fun managed => hosted managed.2

/-- A publication counts for its type and in the epoch of its scope. -/
theorem Offers.tallied {v : LiveVersion} (offers : e.Offers t v) (grounded : e.Grounded)
    (begun : (e.typeAt t).versions ≠ []) (tallied : e.Tallied) : (e.publish t v).Tallied := by
  intro s
  obtain ⟨native, hosted⟩ := Option.isSome_iff_exists.1 offers.hosted
  have scope_lt := (grounded.hosted t offers.type_lt native hosted).2
  have size : (e.publish t v).types.size = e.types.size := by
    simp [Engine.publish, updateScope, updateType]
  have epoch : ((e.publish t v).scopeAt s).epoch =
      (e.scopeAt s).epoch + if (e.typeAt t).scope = s then 1 else 0 := by
    have at_ : (e.publish t v).scopeAt s = _ :=
      scopeAt_updateScope (e.updateType t fun type => type.publish v) (e.typeAt t).scope _ s
    rw [at_]
    by_cases here : (e.typeAt t).scope = s
    · rw [if_pos ⟨here, here ▸ scope_lt⟩, if_pos here]
      rfl
    · rw [if_neg fun h => here h.1, if_neg here]
      rfl
  -- Only the type itself counts one more, and only if it belongs to the scope.
  have counts : ∀ t' ∈ Finset.range e.types.size, (e.publish t v).accepted s t' =
      e.accepted s t' + if t = t' then (if (e.typeAt t).scope = s then 1 else 0) else 0 := by
    intro t' mem
    have lt := Finset.mem_range.1 mem
    have at_ : (e.publish t v).typeAt t' =
        if t = t' then (e.typeAt t').publish v else e.typeAt t' := e.typeAt_updateType t _ lt
    by_cases here : t = t'
    · subst here
      rw [if_pos rfl] at at_ ⊢
      have managed : e.IsManaged t := ⟨offers.type_lt, offers.hosted⟩
      have managed' : (e.publish t v).IsManaged t := ⟨size ▸ lt, at_ ▸ offers.hosted⟩
      have length : 0 < (e.typeAt t).versions.length := List.length_pos_of_ne_nil begun
      simp only [accepted, managed, managed', at_, ManagedType.publish, List.length_append,
        List.length_singleton, true_and]
      split <;> omega
    · rw [if_neg here] at at_ ⊢
      have managed : (e.publish t v).IsManaged t' ↔ e.IsManaged t' := by
        unfold IsManaged
        rw [size, at_]
      simp only [accepted, managed, at_, Nat.add_zero]
  rw [epoch, tallied s, size, Finset.sum_congr rfl counts, Finset.sum_add_distrib,
    Finset.sum_ite_eq, if_pos (Finset.mem_range.2 offers.type_lt)]

/-- Edits keep the tally right. -/
theorem Edit.tallied (edit : e.Edit e') (grounded : e.Grounded)
    (begun : ∀ t, e.IsManaged t → (e.typeAt t).versions ≠ []) (tallied : e.Tallied) :
    e'.Tallied := by
  by_cases published : ∃ t v, e.Offers t v ∧ e' = e.publish t v
  · obtain ⟨t, v, offers, rfl⟩ := published
    exact offers.tallied grounded (begun t ⟨offers.type_lt, offers.hosted⟩) tallied
  · have quiet (t : TypeRef) (v : LiveVersion) (offers : e.Offers t v) : e' ≠ e.publish t v :=
      fun eq => published ⟨t, v, offers, eq⟩
    exact tallied.of_same (fun _ => edit.epoch quiet) edit.grows.types
      (fun _ => (edit.accepted_eq quiet).1) fun _ => (edit.accepted_eq quiet).2

end Engine

/-- What always holds of the version history of a managed type. -/
structure ManagedType.Consistent (t : ManagedType) : Prop where
  first : t.versions[0]? = some t.first
  numbered : ∀ (i : Nat) (v : LiveVersion), t.versions[i]? = some v → v.number = i
  live : t.versions.getLast? = some t.live
  published : t.published.isSome ↔ 1 < t.versions.length
  reloads : t.reloads = t.versions.length - 1
  lastStamp : t.lastStamp = if 1 < t.versions.length then some t.live.stamp else none
  distinct : (t.slots.slots.map Slot.key).Nodup
  /-- A version has entries for the slots that there were when it was published. -/
  built : ∀ v ∈ t.versions, v.dispatch.entries.map Prod.fst <+: t.slots.slots.map Slot.key
  covered : t.live.dispatch.entries.map Prod.fst = t.slots.slots.map Slot.key
  lookup : ∀ v ∈ t.versions, ∀ key,
    v.dispatch.lookup key = (t.slots.slotOf? key).bind v.dispatch.entry?

/-- The version in force is the last one, and the first one if there was no reload. -/
theorem ManagedType.Balanced.last {t : ManagedType} (balanced : t.Balanced) :
    t.versions.getLast? = some t.live ∧ (t.published.isSome ↔ 1 < t.versions.length) ∧
      t.lastStamp = if 1 < t.versions.length then some t.live.stamp else none := by
  obtain ⟨later, all, published, stamp, -⟩ := balanced.versions
  rcases List.eq_nil_or_concat later with rfl | ⟨before, v, rfl⟩
  · have none_ : t.published = none := published
    have live : t.live = t.first := by
      unfold ManagedType.live
      rw [none_]
      rfl
    rw [all, live, none_, stamp]
    exact ⟨rfl, by simp, rfl⟩
  · rw [List.concat_eq_append] at published stamp all
    have some_v : t.published = some v := by
      rw [published, List.getLast?_append]
      rfl
    have live : t.live = v := ManagedType.live_of_published some_v
    rw [all, live, some_v, stamp]
    simp [List.getLast?_cons]

theorem ManagedType.Balanced.consistent {t : ManagedType} (balanced : t.Balanced) :
    t.Consistent := by
  obtain ⟨later, all, -, -, count⟩ := balanced.versions
  obtain ⟨live, published, lastStamp⟩ := balanced.last
  have length : t.versions.length = later.length + 1 := by rw [all, List.length_cons]
  have reloads : t.reloads = t.versions.length - 1 := by
    rw [count, length]
    rfl
  have first : t.versions[0]? = some t.first := by
    rw [all]
    rfl
  exact {
    first, reloads, live, published, lastStamp
    numbered := balanced.numbered, distinct := balanced.distinct, built := balanced.built
    covered := balanced.covered
    lookup := fun v mem key => DispatchTable.lookup_eq_entry? (balanced.built v mem) key }

namespace Engine

theorem Edits.tallied {e e' : Engine} (edits : e.Edits e') (grounded : e.Grounded)
    (chronicled : ∀ t, e.IsManaged t → e.Chronicled t) (tallied : e.Tallied) : e'.Tallied := by
  induction edits with
  | refl => exact tallied
  | tail edits edit ih =>
    refine edit.tallied (Edits.grounded edits grounded) (fun t managed => ?_) ih
    obtain ⟨later, all, -⟩ := (Edits.chronicled edits grounded chronicled t managed).later
    rw [all]
    exact List.cons_ne_nil _ _

/-- In a reachable engine the tally is right. -/
theorem Reachable.tallied {e : Engine} (reachable : e.Reachable) : e.Tallied :=
  Edits.tallied reachable.edits.1 grounded_empty (fun t managed => by cases managed.1) fun _ => rfl

/-- The scope of a type has seen a reload if a version of the type was published. -/
theorem Reachable.epoch_ne_zero {e : Engine} {t : TypeRef} {v : LiveVersion}
    (reachable : e.Reachable) (managed : e.IsManaged t)
    (published : (e.typeAt t).published = some v) :
    (e.scopeAt (e.typeAt t).scope).epoch ≠ 0 := by
  obtain ⟨later, versions, last, -⟩ := (reachable.chronicled managed).later
  have some_later : later ≠ [] := by
    rintro rfl
    cases last.symm.trans published
  have counted : 0 < e.accepted (e.typeAt t).scope t := by
    unfold accepted
    rw [if_pos ⟨managed, rfl⟩, versions, List.length_cons, Nat.add_sub_cancel]
    exact List.length_pos_iff.2 some_later
  have among : e.accepted (e.typeAt t).scope t ≤ (e.scopeAt (e.typeAt t).scope).epoch := by
    rw [reachable.tallied (e.typeAt t).scope]
    exact Finset.single_le_sum_of_canonicallyOrdered (Finset.mem_range.2 managed.1)
  omega

theorem Reachable.grows {e e' : Engine} (reachable : e.Reachable)
    (operations : Relation.ReflTransGen Operation e e') : e.Grows e' := by
  induction operations with
  | refl => exact .refl e
  | tail before operation ih =>
    have grounded := Reachable.grounded (reachable.trans before)
    exact ih.trans (Edits.grows (operation.edits grounded))

end Engine

/-- In every reachable engine the history of every managed type is consistent, whatever
operations come later only append to its versions and to its slots, and the epoch of every
scope is the sum of the reloads that were accepted by the managed types that it knows. -/
theorem version_history_consistent {e : Engine} (reachable : e.Reachable) :
    (∀ t, e.IsManaged t → (e.typeAt t).Consistent ∧
      ∀ e', Relation.ReflTransGen Engine.Operation e e' →
        (e.typeAt t).versions <+: (e'.typeAt t).versions ∧
        (e.typeAt t).slots.slots <+: (e'.typeAt t).slots.slots) ∧
    ∀ s, (e.scopeAt s).epoch =
        ∑ t ∈ (Finset.range e.types.size).filter fun t => e.IsManaged t ∧ (e.typeAt t).scope = s,
          ((e.typeAt t).versions.length - 1) ∧
      ∀ t, e.IsManaged t ∧ (e.typeAt t).scope = s ↔ ∃ id, e.typeWithId? s id = some t := by
  refine ⟨fun t managed => ⟨(reachable.balanced t managed.1).consistent, fun e' later => ?_⟩,
    fun s => ⟨?_, fun t => ⟨?_, ?_⟩⟩⟩
  · have kept := (reachable.grows later).typeAt t managed.1
    exact ⟨kept.versions, kept.slots⟩
  · rw [Finset.sum_filter]
    exact reachable.tallied s
  · rintro ⟨managed, rfl⟩
    obtain ⟨c, hosted⟩ := reachable.housed.hosts t managed
    exact ⟨_, hosted.registered⟩
  · rintro ⟨id, known⟩
    obtain ⟨managed, scope, -⟩ := reachable.housed.types s id t known
    exact ⟨managed, scope⟩

open Overloaded in
/-- The history of a type that was reloaded once is consistent, and the reload was counted. -/
theorem version_history_consistent_overloaded :
    engine.Reachable ∧ (engine.typeAt 0).Consistent ∧ 1 < (engine.typeAt 0).versions.length ∧
      (engine.scopeAt 0).epoch =
        ∑ t ∈ (Finset.range engine.types.size).filter fun t =>
          engine.IsManaged t ∧ (engine.typeAt t).scope = 0, ((engine.typeAt t).versions.length - 1) := by
  obtain ⟨types, scopes⟩ := version_history_consistent reachable
  have consistent := (types 0 entries.2.1).1
  exact ⟨reachable, consistent, consistent.published.1 entries.2.2.1, (scopes 0).1⟩

end LiveUpdate
