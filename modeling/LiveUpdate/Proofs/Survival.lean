import LiveUpdate.Proofs.Ancestry
import LiveUpdate.Proofs.Initialization
import LiveUpdate.Proofs.Lineage

/-!
# Field values survive reloads

A reload that does not run a static initializer touches no storage: it leaves the objects, the
slots and the field stores as they are.  Where a field is kept is a matter of its declarations in
the first and in the live version.  So as long as a managed type goes on declaring a field with
the same type and kind, a read of it finds the same place and gives the same answer.
-/

set_option autoImplicit false

namespace LiveUpdate

open Exec

namespace Exec

variable {ε α β : Type}

/-- What a computation answers, without the engine that it leaves. -/
def answer (x : Exec ε α) (e : Engine) : Except (Stop ε) α :=
  match x e with
  | .ok a _ => .ok a
  | .error stop _ => .error stop

theorem answer_bind (x : Exec ε α) (f : α → Exec ε β) (e : Engine) :
    (x >>= f).answer e = match x e with
      | .ok a e' => (f a).answer e'
      | .error stop _ => .error stop := by
  unfold answer
  rw [bind_apply]
  cases x e <;> rfl

theorem answer_ofResult (y : Except ε α) (e : Engine) :
    (ofResult y : Exec ε α).answer e = y.mapError Stop.error := by
  unfold answer
  cases y <;> rfl

end Exec

namespace Engine

variable {e e' : Engine} {s : ScopeRef} {t : TypeRef} {c d : ClassRef} {o : ObjectRef}

/-- Objects are of classes that exist. -/
def Peopled (e : Engine) : Prop := ∀ o < e.objects.size, (e.objectAt o).cls < e.classes.size

theorem Peopled.rests {new : Class → Prop} (peopled : e.Peopled) (rests : e.Rests new e') :
    e'.Peopled := by
  intro o lt
  unfold objectAt
  rw [rests.objects] at lt ⊢
  exact Nat.lt_of_lt_of_le (peopled o lt) rests.classes

theorem Peopled.evolves (peopled : e.Peopled) (evolves : e.Evolves e') (known : e.Known) :
    e'.Peopled := by
  intro o lt
  rw [evolves.during.classes_size]
  by_cases before : o < e.objects.size
  · rw [evolves.cls o before]
    exact peopled o before
  · exact evolves.fresh known o lt (Nat.le_of_not_lt before)

/-- Every operation advances the engine, and the classes that it adds are untouched when it adds
them. -/
theorem Operation.advances_untouched (operation : e.Operation e') :
    e.Advances Class.Untouched False e' := by
  rcases operation.advances with ⟨fuel, s, data, rfl⟩ | advances
  · exact advances_define fuel s data
  · exact advances.mono fun _ generated => generated.toUntouched

theorem Operation.peopled (operation : e.Operation e') (grounded : e'.Grounded)
    (peopled : e.Peopled) : e'.Peopled := by
  obtain ⟨e₁, e₂, rests, ran, trace, rfl⟩ := operation.advances_untouched
  have known : e₂.Known := grounded.class_lt
  have later := (peopled.rests rests).evolves ran.1 (known.during ran.1.during.symm)
  exact later

theorem Reachable.peopled (reachable : e.Reachable) : e.Peopled := by
  induction reachable with
  | refl => exact fun o lt => by cases lt
  | tail before operation ih =>
    exact operation.peopled (Reachable.step before operation).grounded ih

end Engine

namespace ManagedType
open Engine

variable {e e' : Engine} {t : TypeRef}

/-- Nothing ran in a reload after which the live version has no static initializer that should
have run. -/
theorem Leaves.reloads {fuel : Nat} (leaves : Leaves fuel t e e')
    (still : (e'.typeAt t).live.rerun = true →
      (e'.typeAt t).live.shape.staticInitializer? = none) : e.Reloads t e' := by
  cases leaves with
  | quiet reloads => exact reloads
  | rerun published native reloads wanted reported =>
    have tame : published.Tame False (rerunStaticInit fuel t native) fun _ _ => True :=
      tame_rerunStaticInit fuel t native False.elim
    have type := tame.evolves.during.typeAt t
    have live := congrArg ManagedType.live type
    obtain ⟨trace, same⟩ := reported
    have at_ : e'.typeAt t = ((rerunStaticInit fuel t native).final published).typeAt t := by
      rw [same]
      rfl
    have live : (e'.typeAt t).live = (published.typeAt t).live := by
      rw [at_]
      exact live
    rw [live] at still
    have stays : (rerunStaticInit fuel t native).final published = published := by
      have none_ := still wanted
      unfold final rerunStaticInit
      rw [bind_apply, ask_apply]
      dsimp only
      rw [none_]
      rfl
    rw [stays] at same
    exact reloads.trans (OnlyTraced.reloads ⟨trace, same⟩)

/-- Only a type with a host class is reloaded. -/
theorem isManaged_of_accepted {fuel : Nat} {stamp : String} {data : List UInt8} {loaded : Bool}
    (accepted : load fuel t stamp data e = .ok loaded e') : e.IsManaged t := by
  cases hosted : (e.typeAt t).native with
  | some native => exact ⟨type_lt_of_native hosted, by rw [hosted]; rfl⟩
  | none =>
    have refused : e.Ends (load fuel t stamp data) (fun _ _ => False) fun _ _ => True := by
      refine ends_ask_bind (ends_ask_bind ?_)
      rw [hosted]
      cases (e.scopeAt (e.typeAt t).scope).isOpen <;> exact ends_fail trivial
    exact (refused.ok accepted).elim

end ManagedType

/-- A search depends on the answers at the places of the list only. -/
theorem findSome?_congr {α β : Type} {xs : List α} {f g : α → Option β}
    (same : ∀ x ∈ xs, f x = g x) : xs.findSome? f = xs.findSome? g := by
  induction xs with
  | nil => rfl
  | cons x rest ih =>
    rw [List.findSome?_cons, List.findSome?_cons, same x List.mem_cons_self,
      ih fun y mem => same y (List.mem_cons_of_mem _ mem)]

namespace Engine

variable {e e' : Engine} {s : ScopeRef} {t : TypeRef} {c : ClassRef} {o : ObjectRef}

section Storage

variable (reloads : e.Reloads t e')
include reloads

theorem Reloads.managedOf? (s : ScopeRef) (lt : c < e.classes.size) :
    e'.managedOf? s c = e.managedOf? s c := by
  unfold Engine.managedOf?
  rw [reloads.classAt c lt]
  cases (e.classAt c).managed with
  | none => rfl
  | some id => exact reloads.registered s id

variable (peopled : e.Peopled) (inhabited : 0 < e.classes.size)
include peopled inhabited

omit reloads in
/-- Also what is not in the heap is of a class that exists: of the first. -/
theorem Peopled.cls_lt (o : ObjectRef) : (e.objectAt o).cls < e.classes.size := by
  by_cases lt : o < e.objects.size
  · exact peopled o lt
  · have absent : e.objectAt o = default := getD_of_le _ _ (Nat.le_of_not_lt lt)
    rw [absent]
    exact inhabited

theorem Reloads.slotValue? (o : ObjectRef) (declaring name : String) :
    e'.slotValue? o declaring name = e.slotValue? o declaring name := by
  unfold Engine.slotValue?
  rw [reloads.classOf (peopled.cls_lt inhabited o), reloads.objectAt]

/-- What a type used to inherit is what it was. -/
theorem Reloads.inheritedValue? (lineage : e.Lineage) (s : ScopeRef) (o : ObjectRef)
    (name : String) (sig : TypeSig) :
    e'.inheritedValue? s o name sig = e.inheritedValue? s o name sig := by
  have above (d : ClassRef) (mem : d ∈ (e.classOf o).superclasses) : d < e.classes.size :=
    Nat.lt_trans (lineage.superclass_lt d mem) (peopled.cls_lt inhabited o)
  have outside : ((e.classOf o).superclasses.filter fun d => (e'.managedOf? s d).isNone) =
      (e.classOf o).superclasses.filter fun d => (e.managedOf? s d).isNone :=
    List.filter_congr fun d mem => by rw [reloads.managedOf? s (above d mem)]
  unfold Engine.inheritedValue?
  rw [reloads.classOf (peopled.cls_lt inhabited o), outside]
  refine findSome?_congr fun d mem => ?_
  simp only [reloads.classAt d (above d (List.mem_filter.1 mem).1),
    reloads.slotValue? peopled inhabited]

theorem Reloads.readStore (store : FieldStore) (policy : FieldPolicy) (f : LiveField)
    (inherited : Option Value) :
    e'.readStore store policy f inherited = e.readStore store policy f inherited := by
  have conforms (v : Value) (sig : TypeSig) : v.conforms e' sig = v.conforms e sig :=
    reloads.conforms (fun o _ => peopled.cls_lt inhabited o) sig
  unfold Engine.readStore
  simp only [conforms]

end Storage

/-- A managed type declares a field before and after a reload, with the same type, and both times
static or both times not. -/
structure Redeclares (e e' : Engine) (t : TypeRef) (name : String) (f f' : FieldDef) : Prop where
  before : (e.typeAt t).live.shape.field? name = some f
  after : (e'.typeAt t).live.shape.field? name = some f'
  sig : f'.sig = f.sig
  kind : f'.isStatic = f.isStatic

/-- The field that a managed type with a host class declares. -/
def fieldOf (e : Engine) (t : TypeRef) (c : ClassRef) (f : FieldDef) : LiveField where
  declaring := e.nameOf c
  name := f.name
  sig := f.sig
  modifiers := f.modifiers
  managed := some t
  cls := c
  placement := (e.typeAt t).fieldPlacement f

section Resolution

variable {name : String} {f f' : FieldDef} {live : LiveField}

/-- What a search finds in the class of a managed type is what the live version declares. -/
theorem fieldIn?_of_managedOf? (managed : e.managedOf? s c = some t)
    (declared : (e.typeAt t).live.shape.field? name = some f) :
    e.fieldIn? s name c = some (e.fieldOf t c f) := by
  have named := TypeShape.name_of_field? declared
  have own : e.ownLiveField? s name c = some (e.fieldOf t c f) := by
    unfold ownLiveField?
    dsimp only
    rw [managed]
    dsimp only
    rw [declared, ← named]
    rfl
  unfold fieldIn?
  rw [own]
  rfl

/-- A field that is found in a class and belongs to a managed type belongs to that of the
class. -/
theorem managedOf?_of_fieldIn? (found : e.fieldIn? s name c = some live)
    (managed : live.managed = some t) : e.managedOf? s c = some t := by
  unfold fieldIn? at found
  cases own : e.ownLiveField? s name c with
  | some live' =>
    rw [own] at found
    cases found
    unfold ownLiveField? at own
    dsimp only at own
    split at own
    next belongs =>
      obtain ⟨_, -, rfl⟩ := Option.map_eq_some_iff.1 own
      exact belongs.trans managed
    next =>
      obtain ⟨_, -, rfl⟩ := Option.map_eq_some_iff.1 own
      cases managed
  | none =>
    rw [own] at found
    obtain ⟨_, -, rfl⟩ := Option.map_eq_some_iff.1 (show e.interfaceField? name c = _ from found)
    cases managed

/-- The place of a field is a matter of its type and kind, so only its modifiers change. -/
theorem Redeclares.fieldOf (redeclares : e.Redeclares e' t name f f')
    (named : e'.nameOf c = e.nameOf c) (first : (e'.typeAt t).first = (e.typeAt t).first) :
    e'.fieldOf t c f' = { e.fieldOf t c f with modifiers := f'.modifiers } := by
  have called := TypeShape.name_of_field? redeclares.before
  have called' := TypeShape.name_of_field? redeclares.after
  have placed : (e'.typeAt t).fieldPlacement f' = (e.typeAt t).fieldPlacement f := by
    unfold ManagedType.fieldPlacement placement
    rw [first, called, called', redeclares.sig, redeclares.kind]
  unfold Engine.fieldOf
  rw [named, called, called', redeclares.sig, placed]

/-- A search along a chain looks into the first class and then follows the live parent. -/
theorem findSome?_liveChainWithin_succ {α : Type} (e : Engine) (s : ScopeRef) (n : Nat)
    (c : ClassRef) (g : ClassRef → Option α) :
    (e.liveChainWithin s (n + 1) c).classes.findSome? g = (g c).or (match e.liveParent s c with
      | .ok (some p) => (e.liveChainWithin s n p).classes.findSome? g
      | _ => none) := by
  rw [liveChainWithin]
  cases e.liveParent s c with
  | error name => cases found : g c <;> simp [found]
  | ok parent =>
    cases parent with
    | none => cases found : g c <;> simp [found]
    | some p => cases found : g c <;> simp [found]

section Elsewhere

variable (reloads : e.Reloads t e') (lineage : e.Lineage) (lt : c < e.classes.size)
include reloads lineage lt

theorem Reloads.hostField? (name : String) : e'.hostField? c name = e.hostField? c name := by
  unfold Engine.hostField?
  rw [reloads.classAt c lt]
  refine findSome?_congr fun d mem => ?_
  rw [reloads.classAt d (Nat.lt_of_le_of_lt (lineage.fieldOrder_le d mem) lt)]

theorem Reloads.interfaceField? (name : String) :
    e'.interfaceField? name c = e.interfaceField? name c := by
  unfold Engine.interfaceField?
  rw [reloads.classAt c lt]
  refine congrArg (Option.map _) (findSome?_congr fun i mem => ?_)
  exact reloads.hostField? lineage (Nat.lt_trans (lineage.interface_lt i mem) lt) name

omit lineage in
/-- A class of another type declares the fields that it declared. -/
theorem Reloads.ownLiveField? (other : e.managedOf? s c ≠ some t) (name : String) :
    e'.ownLiveField? s name c = e.ownLiveField? s name c := by
  unfold Engine.ownLiveField?
  dsimp only
  rw [reloads.managedOf? s lt, reloads.classAt c lt]
  cases managed : e.managedOf? s c with
  | none => rfl
  | some u =>
    have apart : u ≠ t := fun same => other (same ▸ managed)
    dsimp only
    rw [reloads.others u apart]

omit lineage in
/-- A class of another type has the supertype that it had. -/
theorem Reloads.liveParent (grows : e.Grows e') (other : e.managedOf? s c ≠ some t) {p : ClassRef}
    (parent : e.liveParent s c = .ok (some p)) : e'.liveParent s c = .ok (some p) := by
  unfold Engine.liveParent
  rw [reloads.managedOf? s lt, reloads.classAt c lt]
  cases managed : e.managedOf? s c with
  | none =>
    unfold Engine.liveParent at parent
    rw [managed] at parent
    exact parent
  | some u =>
    have apart : u ≠ t := fun same => other (same ▸ managed)
    obtain ⟨superName, super, known⟩ := superName_of_liveParent managed parent
    dsimp only
    rw [reloads.others u apart, super]
    dsimp only
    rw [grows.class? (scope_lt_of_class? known) known]

end Elsewhere

/-- In a class of another type a search finds what it found. -/
theorem Reloads.fieldIn? (reloads : e.Reloads t e') (lineage : e.Lineage)
    (lt : c < e.classes.size) (other : e.managedOf? s c ≠ some t) (name : String) :
    e'.fieldIn? s name c = e.fieldIn? s name c := by
  unfold Engine.fieldIn?
  rw [reloads.ownLiveField? lt other, reloads.interfaceField? lineage lt]

/-- A search that finds a field of the type finds, after a reload, what the type declares in its
place: the classes on the way to the type are those of other types. -/
theorem Reloads.findSome?_liveChainWithin (reloads : e.Reloads t e') (grows : e.Grows e')
    (housed : e.Housed) (grounded : e.Grounded) (lineage : e.Lineage)
    (redeclares : e.Redeclares e' t name f f') (home : e.Homes s c)
    (managed : live.managed = some t) {n n' : Nat} (le : n ≤ n')
    (found : (e.liveChainWithin s n c).classes.findSome? (e.fieldIn? s name) = some live) :
    ∃ d, e.Hosted t d ∧ live = e.fieldOf t d f ∧
      (e'.liveChainWithin s n' c).classes.findSome? (e'.fieldIn? s name) =
        some (e'.fieldOf t d f') := by
  -- Along the chain as it was before; the chain afterwards may be cut off later, but not earlier.
  induction n generalizing n' c with
  | zero => cases found
  | succ n ih =>
    obtain ⟨n', rfl⟩ : ∃ k, n' = k + 1 := ⟨n' - 1, by omega⟩
    obtain ⟨known_as, known⟩ := home
    have lt : c < e.classes.size := grounded.class_lt s known_as c known
    have home : e.Homes s c := ⟨known_as, known⟩
    rw [findSome?_liveChainWithin_succ] at found ⊢
    -- Only at the type itself does a reload change what is found or where the chain goes on.
    by_cases here : e.managedOf? s c = some t
    · have here' : e'.managedOf? s c = some t := (reloads.managedOf? s lt).trans here
      rw [fieldIn?_of_managedOf? here redeclares.before] at found
      cases found
      refine ⟨c, housed.hosted_of_managedOf? home here, rfl, ?_⟩
      rw [fieldIn?_of_managedOf? here' redeclares.after]
      rfl
    · rw [reloads.fieldIn? lineage lt here]
      cases own : e.fieldIn? s name c with
      | some live' =>
        rw [own] at found
        cases found
        exact absurd (managedOf?_of_fieldIn? own managed) here
      | none =>
        rw [own, Option.none_or] at found
        rw [Option.none_or]
        split at found
        next p parent =>
          rw [reloads.liveParent lt grows here parent]
          exact ih (housed.liveParent_homes home parent) (Nat.le_of_succ_le_succ le) found
        · cases found

/-- A name that means a field of the type for a class means it after the reload. -/
theorem Reloads.resolveField (reloads : e.Reloads t e') (grows : e.Grows e')
    (housed : e.Housed) (grounded : e.Grounded) (lineage : e.Lineage)
    (redeclares : e.Redeclares e' t name f f') (home : e.Homes s c)
    (managed : live.managed = some t) (found : e.resolveField s c name = .ok (some live)) :
    ∃ d, e.Hosted t d ∧ live = e.fieldOf t d f ∧
      e'.resolveField s c name = .ok (some (e'.fieldOf t d f')) := by
  have search := fieldIn?_of_resolveField found
  have longer : e.classes.size + 1 ≤ e'.classes.size + 1 := Nat.succ_le_succ reloads.classes
  obtain ⟨d, hosted, same, search'⟩ := reloads.findSome?_liveChainWithin grows housed grounded
    lineage redeclares home managed longer search
  refine ⟨d, hosted, same, ?_⟩
  show (e'.liveChain s c).findSome? (e'.fieldIn? s name) = _
  unfold LiveChain.findSome?
  unfold liveChain
  rw [search']

end Resolution

section Reads

variable {name : String} {f f' : FieldDef}

/-- Between operations the host class of a managed type is initialized. -/
theorem Hosted.done (hosted : e.Hosted t c) (settled : e.Settled) :
    (e.classAt c).init = .done := by
  obtain ⟨names, parent, interfaces, -, -, -, described, -⟩ := hosted.form
  refine (settled c described.lt).resolve_right fun generated => ?_
  rw [hosted.managed_eq] at generated
  cases generated.1

/-- What an engine holds for a field that is read in an initialized class: of an object, or,
without one, of the class. -/
def held (e : Engine) (s : ScopeRef) (f : LiveField) (receiver : Option ObjectRef) :
    Except RunError Value :=
  let policy := (e.scopeAt s).options.fieldPolicy
  match f.storedBy?, receiver with
  | some t, none => (e.readStore (e.typeAt t).statics policy f none).1
  | some _, some o =>
    (e.readStore (e.storeOf o) policy f (e.inheritedValue? s o f.name f.sig)).1
  | none, none => do e.readStatic f.cls (← e.staticSlot f.cls f.name f.missing) f.missing
  | none, some o => e.readSlot o f.declaring f.name f.missing

theorem answer_readField (m : Machine) (live : LiveField)
    (done : (e.classAt live.cls).init = .done) (receiver : Option ObjectRef) :
    (m.readField live receiver).answer e =
      (e.held m.scope live receiver).mapError Stop.error := by
  unfold Machine.readField held
  cases live.storedBy? with
  | some u =>
    unfold Machine.readStored
    rw [answer_bind, ask_apply]
    cases receiver with
    | none =>
      dsimp only
      rw [answer_bind, m.ensureInitialized_done done]
      dsimp only
      rw [answer_bind, ask_apply]
      dsimp only
      rw [answer_bind, modify_apply]
      exact answer_ofResult _ _
    | some o =>
      dsimp only
      rw [answer_bind, ask_apply]
      dsimp only
      rw [answer_bind, modify_apply]
      exact answer_ofResult _ _
  | none =>
    cases receiver with
    | none =>
      dsimp only
      rw [answer_bind, m.ensureInitialized_done done]
      dsimp only
      rw [answer_bind, check_apply]
      cases e.staticSlot live.cls live.name live.missing with
      | error error => rfl
      | ok index => exact answer_ofResult _ _
    | some o => exact answer_ofResult _ _

/-- Fields that differ in their modifiers are kept in one place, and a reload leaves it alone. -/
theorem Reloads.held (reloads : e.Reloads t e') (peopled : e.Peopled) (lineage : e.Lineage)
    (options : (e'.scopeAt s).options = (e.scopeAt s).options) {live : LiveField}
    (lt : live.cls < e.classes.size) (modifiers : Modifiers) (receiver : Option ObjectRef) :
    e'.held s { live with modifiers } receiver = e.held s live receiver := by
  have inhabited : 0 < e.classes.size := Nat.lt_of_le_of_lt (Nat.zero_le _) lt
  have same : LiveField.storedBy? { live with modifiers } = live.storedBy? := rfl
  have stores (store : FieldStore) (policy : FieldPolicy) (inherited : Option Value) :
      e'.readStore store policy { live with modifiers } inherited =
        e.readStore store policy live inherited :=
    reloads.readStore peopled inhabited store policy live inherited
  unfold Engine.held
  rw [same, options]
  cases live.storedBy? with
  | some u =>
    cases receiver with
    | none =>
      dsimp only
      rw [stores, reloads.statics]
    | some o =>
      dsimp only
      rw [stores, reloads.inheritedValue? peopled inhabited lineage]
      unfold storeOf
      rw [reloads.objectAt]
  | none =>
    cases receiver with
    | none =>
      unfold staticSlot readStatic
      dsimp only
      rw [reloads.classAt _ lt]
      rfl
    | some o =>
      unfold readSlot
      dsimp only
      rw [reloads.slotValue? peopled inhabited]
      rfl

section Entrances

variable {typeName : String}

/-- A field of an object is read by the name of its class. -/
theorem answer_getField (fuel : Nat) (named : (e.classOf o).name = typeName) :
    (Scope.getField fuel s (.object o) name).answer e =
      (Reflect.readField fuel s typeName name (some (.object o))).answer e := by
  have asked : Scope.classNameOf (.object o) name e = .ok (e.classOf o).name e := rfl
  unfold Scope.getField
  rw [answer_bind, asked, named]

theorem requireClass_of_class? (known : e.class? s typeName = some c) :
    e.requireClass s typeName = .ok c := by
  unfold requireClass
  rw [known]

variable {live : LiveField} (known : e.class? s typeName = some c)
  (found : e.resolveField s c name = .ok (some live))
include known found

theorem requireStatic_apply : Scope.requireStatic s typeName name e =
    if live.isStatic then .ok () e
    else .error (.error (.classChange (.kind s!"{typeName}.{name}" false .field))) e := by
  unfold Scope.requireStatic
  rw [bind_apply, check_apply, requireClass_of_class? known]
  dsimp only
  rw [bind_apply, resolve_apply, found]
  dsimp only
  cases live.isStatic <;> rfl

/-- A static field is read by the name of a type, if it is static. -/
theorem answer_getStatic (fuel : Nat) : (Scope.getStatic fuel s typeName name).answer e =
    if live.isStatic then (Reflect.readField fuel s typeName name none).answer e
    else .error (.error (.classChange (.kind s!"{typeName}.{name}" false .field))) := by
  unfold Scope.getStatic
  rw [answer_bind, requireStatic_apply known found]
  cases live.isStatic <;> rfl

/-- How a field that was found is read by the name of a type. -/
theorem answer_reflect (fuel : Nat) (receiver : Option Value) :
    (Reflect.readField fuel s typeName name receiver).answer e =
      if live.isStatic then ((Machine.of s fuel).readField live none).answer e
      else match receiver.bind Value.object? with
        | none => .error (.error (.nullPointer (.fieldReceiver s!"{typeName}.{name}")))
        | some o =>
          if (e.classOf o).isSubtypeOf typeName then
            ((Machine.of s fuel).readField live (some o)).answer e
          else .error (.error (.classCast (e.classOf o).name typeName)) := by
  unfold Reflect.readField Reflect.liveField
  rw [answer_bind, bind_apply, check_apply, requireClass_of_class? known]
  dsimp only
  rw [bind_apply, resolve_apply, found]
  dsimp only
  cases live.isStatic with
  | true => rfl
  | false =>
    cases receiver.bind Value.object? with
    | none => rfl
    | some o =>
      simp only [Bool.false_eq_true, if_false]
      rw [bind_apply, ask_apply]
      dsimp only
      unfold Reflect.checkInstance Machine.checkReceiverClass
      rw [bind_apply, bind_apply, ask_apply]
      dsimp only
      have at_ : e.classAt (e.objectAt o).cls = e.classOf o := rfl
      rw [at_]
      cases (e.classOf o).isSubtypeOf typeName <;> rfl

end Entrances

/-- A class has a field of a managed type under a name. -/
def HasFieldOf (e : Engine) (s : ScopeRef) (c : ClassRef) (name : String) (t : TypeRef) : Prop :=
  ∃ live, e.resolveField s c name = .ok (some live) ∧ live.managed = some t

/-- Reads of a field of a class answer alike in two engines: behind a guard, by the name of a
type, and in an object of the class. -/
structure ReadsAlike (e e' : Engine) (s : ScopeRef) (c : ClassRef) (typeName name : String) :
    Prop where
  resolved : ∀ live, e.resolveField s c name = .ok (some live) →
    ∃ live', e'.resolveField s c name = .ok (some live') ∧ live'.sig = live.sig ∧
      live'.isStatic = live.isStatic ∧ ∀ fuel receiver,
        ((Machine.of s fuel).readField live' receiver).answer e' =
          ((Machine.of s fuel).readField live receiver).answer e
  reflected : ∀ fuel receiver, (Reflect.readField fuel s typeName name receiver).answer e' =
    (Reflect.readField fuel s typeName name receiver).answer e
  static : ∀ fuel, (Scope.getStatic fuel s typeName name).answer e' =
    (Scope.getStatic fuel s typeName name).answer e
  instances : ∀ fuel o, (e.classOf o).name = typeName →
    (Scope.getField fuel s (.object o) name).answer e' =
      (Scope.getField fuel s (.object o) name).answer e

/-- A managed type has the fields that its live version declares. -/
theorem Hosted.hasFieldOf (hosted : e.Hosted t c)
    (declared : (e.typeAt t).live.shape.field? name = some f) :
    e.HasFieldOf (e.typeAt t).scope c name t := by
  have managed : e.managedOf? (e.typeAt t).scope c = some t := by
    unfold managedOf?
    rw [hosted.managed_eq]
    exact hosted.registered
  refine ⟨e.fieldOf t c f, ?_, rfl⟩
  show (e.liveChain _ c).findSome? (e.fieldIn? _ name) = _
  unfold LiveChain.findSome? liveChain
  rw [findSome?_liveChainWithin_succ, fieldIn?_of_managedOf? managed declared]
  rfl

/-- A field that a managed type goes on declaring is read alike through every class that has
it. -/
theorem Reloads.readsAlike (reloads : e.Reloads t e') (grows : e.Grows e')
    (reachable : e.Reachable) (redeclares : e.Redeclares e' t name f f') {typeName : String}
    (known : e.class? s typeName = some c) (has : e.HasFieldOf s c name t) :
    e.ReadsAlike e' s c typeName name := by
  obtain ⟨live, found, managed⟩ := has
  have housed := reachable.housed
  have lineage := reachable.lineage
  have peopled := reachable.peopled
  have settled := reachable.settled
  have scope_lt := scope_lt_of_class? known
  have options := (grows.scopeAt s scope_lt).options
  obtain ⟨d, hosted, rfl, found'⟩ := reloads.resolveField grows housed reachable.grounded lineage
    redeclares ⟨typeName, known⟩ managed found
  have known' := grows.class? scope_lt known
  have lt : d < e.classes.size := (reachable.grounded.hosted t hosted.type_lt d hosted.native).1
  have inhabited : 0 < e.classes.size := Nat.lt_of_le_of_lt (Nat.zero_le d) lt
  have cls := reloads.classAt d lt
  have classOf (o : ObjectRef) : e'.classOf o = e.classOf o :=
    reloads.classOf (peopled.cls_lt inhabited o)
  have done := hosted.done settled
  have done' : (e'.classAt d).init = .done := cls ▸ done
  have again := redeclares.fieldOf (congrArg Class.name cls) (grows.typeAt t hosted.type_lt).first
  have static : (e'.fieldOf t d f').isStatic = (e.fieldOf t d f).isStatic := redeclares.kind
  have reads (fuel : Nat) (receiver : Option ObjectRef) :
      ((Machine.of s fuel).readField (e'.fieldOf t d f') receiver).answer e' =
        ((Machine.of s fuel).readField (e.fieldOf t d f) receiver).answer e := by
    rw [answer_readField _ _ done' receiver, answer_readField _ _ done receiver, again]
    exact congrArg _ (reloads.held peopled lineage options lt f'.modifiers receiver)
  have reflected (fuel : Nat) (receiver : Option Value) :
      (Reflect.readField fuel s typeName name receiver).answer e' =
        (Reflect.readField fuel s typeName name receiver).answer e := by
    rw [answer_reflect known' found', answer_reflect known found, static, reads]
    simp only [reads, classOf]
  refine ⟨fun live same => ?_, reflected, fun fuel => ?_, fun fuel o named => ?_⟩
  · obtain rfl : e.fieldOf t d f = live := by
      rw [found] at same
      cases same
      rfl
    exact ⟨_, found', redeclares.sig, static, reads⟩
  · rw [answer_getStatic known' found', answer_getStatic known found, static, reflected]
  · have named' : (e'.classOf o).name = typeName :=
      (congrArg Class.name (classOf o)).trans named
    rw [answer_getField fuel named', answer_getField fuel named]
    exact reflected fuel _

end Reads

end Engine

open Engine

/-- The values of fields survive reloads.  When a managed type is reloaded and no static
initializer runs, a field that it declares before and after, with the same type, and both times
static or both times not, is read alike before and after: by every class that has the field of
the type, in every object, with a value or with an error, wherever the field is kept. -/
theorem field_values_survive_reload {e e' : Engine} (reachable : e.Reachable) {t : TypeRef}
    {fuel : Nat} {stamp : String} {data : List UInt8}
    (accepted : ManagedType.load fuel t stamp data e = .ok true e')
    (still : (e'.typeAt t).live.rerun = true →
      (e'.typeAt t).live.shape.staticInitializer? = none)
    {name : String} {f f' : FieldDef} (redeclares : e.Redeclares e' t name f f') :
    (∃ native, e.class? (e.typeAt t).scope (e.typeAt t).name = some native ∧
      e.HasFieldOf (e.typeAt t).scope native name t) ∧
    ∀ s typeName c, e.class? s typeName = some c → e.HasFieldOf s c name t →
      e.ReadsAlike e' s c typeName name := by
  have final : (ManagedType.load fuel t stamp data).final e = e' := by
    unfold Exec.final
    rw [accepted]
  have reloads : e.Reloads t e' :=
    (final ▸ ManagedType.leaves_load fuel stamp data : ManagedType.Leaves fuel t e e').reloads still
  have managed : e.IsManaged t := ManagedType.isManaged_of_accepted accepted
  have step : e.Operation e' := final ▸ .load fuel t stamp data managed.1
  have grows := reachable.grows (Relation.ReflTransGen.single step)
  obtain ⟨native, hosted⟩ := reachable.housed.hosts t managed
  exact ⟨⟨native, hosted.known, hosted.hasFieldOf redeclares.before⟩,
    fun s typeName c known has => reloads.readsAlike grows reachable redeclares known has⟩

namespace Surviving

def coordinate (name : String) : FieldDef := ⟨name, .int, .publicBit, none, []⟩

/-- A type with public fields and a constructor. -/
def point (names : List String) : TypeUnit :=
  { TypeUnit.named "app.P" with fields := names.map coordinate }.addDefaultConstructor

def defined : Engine := (Engine.opened { included := ["app.*"] }).defining 8 (point ["x"])

/-- A reload has given the type one more field, which has no slot. -/
def extended : Engine := defined.reloading 8 0 "second" (point ["x", "y"])

def made : Engine := ((Scope.Use.newInstance "app.P" .void []).perform 8 0).final extended

/-- The new field was written in an object. -/
def engine : Engine := ((Scope.Use.setField (.object 0) "y" (.int 7)).perform 8 0).final made

/-- The type after a reload that drops the other field. -/
def reloaded : Engine := engine.reloading 8 0 "third" (point ["y"])

def wasAccepted (outcome : EStateM.Result (Stop ReloadError) Engine Bool) : Bool :=
  match outcome with
  | .ok answer _ => answer
  | .error .. => false

theorem eq_ok_of_wasAccepted {x : Exec ReloadError Bool} {e : Engine}
    (accepts : wasAccepted (x e) = true) : x e = .ok true (x.final e) := by
  unfold Exec.final
  cases run : x e with
  | ok answer e' =>
    rw [run] at accepts
    rw [show answer = true from accepts]
  | error stop e' =>
    rw [run] at accepts
    cases accepts

set_option maxRecDepth 100000 in
theorem facts : 0 < defined.types.size ∧
    (engine.typeAt 0).scope = 0 ∧ (engine.typeAt 0).name = "app.P" ∧
    wasAccepted (ManagedType.load 8 0 "third" (point ["y"]).encode engine) = true ∧
    (reloaded.typeAt 0).live.rerun = false ∧
    (engine.typeAt 0).live.shape.field? "y" = some (coordinate "y") ∧
    (reloaded.typeAt 0).live.shape.field? "y" = some (coordinate "y") ∧
    (engine.classOf 0).name = "app.P" ∧
    (Scope.getField 8 0 (.object 0) "y").answer engine = .ok (.int 7) := by
  decide +kernel

theorem reachable : engine.Reachable := by
  have extended : extended.Reachable :=
    ((reachable_opened _).defining 8 _ (by decide)).reloading 8 0 _ _ facts.1
  exact (extended.step (.use 8 0 (.newInstance "app.P" .void []))).step
    (.use 8 0 (.setField (.object 0) "y" (.int 7)))

theorem accepted :
    ManagedType.load 8 0 "third" (point ["y"]).encode engine = .ok true reloaded :=
  eq_ok_of_wasAccepted facts.2.2.2.1

end Surviving

open Surviving in
/-- A field without a slot that was written before a reload has the same value after it. -/
theorem field_values_survive_reload_written :
    engine.Reachable ∧
    ManagedType.load 8 0 "third" (point ["y"]).encode engine = .ok true reloaded ∧
    ((reloaded.typeAt 0).live.rerun = true →
      (reloaded.typeAt 0).live.shape.staticInitializer? = none) ∧
    engine.Redeclares reloaded 0 "y" (coordinate "y") (coordinate "y") ∧
    ∃ native, engine.class? 0 "app.P" = some native ∧ engine.HasFieldOf 0 native "y" 0 ∧
      engine.ReadsAlike reloaded 0 native "app.P" "y" ∧
      (Scope.getField 8 0 (.object 0) "y").answer reloaded = .ok (.int 7) := by
  obtain ⟨-, scope, name, -, quiet, before, after, cls, value⟩ := facts
  have still : (reloaded.typeAt 0).live.rerun = true →
      (reloaded.typeAt 0).live.shape.staticInitializer? = none := fun rerun => by
    rw [quiet] at rerun
    cases rerun
  have redeclares : engine.Redeclares reloaded 0 "y" (coordinate "y") (coordinate "y") :=
    ⟨before, after, rfl, rfl⟩
  obtain ⟨⟨native, known, has⟩, alike⟩ :=
    field_values_survive_reload reachable accepted still redeclares
  rw [scope, name] at known
  rw [scope] at has
  have reads := alike 0 "app.P" native known has
  exact ⟨reachable, accepted, still, redeclares, native, known, has, reads,
    (reads.instances 8 0 cls).trans value⟩

end LiveUpdate
