import LiveUpdate.Live.Resolve
import LiveUpdate.Machine.Field
import LiveUpdate.Proofs.Bodies
import LiveUpdate.Proofs.Evolution
import LiveUpdate.Proofs.StoreReads

/-!
# Types in the heap

Slots, static fields and array elements are declared with a type.  The heap is typed when
everything in it exists and conforms to what is declared for its place.  This module says
what that is and that the writes of running code keep it, when what is written conforms to
the declaration of the place that it is written to.
-/

set_option autoImplicit false

namespace LiveUpdate

/-- A value may stand in a place that is declared with a type.  No value has the type
`void`, so a place of that type may hold anything. -/
structure Value.Fits (e : Engine) (v : Value) (sig : TypeSig) : Prop where
  there : v.Exists e
  conforms : sig ≠ .void → v.conforms e sig = true

theorem Value.Fits.mono {e e' : Engine} {v : Value} {sig : TypeSig} (fits : v.Fits e sig)
    (evolves : e.Evolves e') : v.Fits e' sig :=
  ⟨fits.there.mono evolves, fun typed =>
    (fits.there.conforms evolves sig).trans (fits.conforms typed)⟩

/-- What a place holds before anything is written to it fits there. -/
theorem Value.fits_zeroOf (e : Engine) (sig : TypeSig) : (Value.zeroOf sig).Fits e sig :=
  ⟨by cases sig <;> exact trivial, Value.conforms_zeroOf e⟩

namespace Engine

variable {e e' : Engine}

/-- Values fill the slots that are declared for them. -/
structure Fills (e : Engine) (values : List Value) (slots : List FieldSlot) : Prop where
  length : values.length = slots.length
  fits : ∀ (i : Nat) (v : Value) (slot : FieldSlot), values[i]? = some v →
    slots[i]? = some slot → v.Fits e slot.sig

theorem Fills.mono {values : List Value} {slots : List FieldSlot} (fills : e.Fills values slots)
    (evolves : e.Evolves e') : e'.Fills values slots :=
  ⟨fills.length, fun i v slot value declared => (fills.fits i v slot value declared).mono evolves⟩

/-- One more value that fits its slot. -/
theorem Fills.set {values : List Value} {slots : List FieldSlot} (fills : e.Fills values slots)
    {index : Nat} {value : Value}
    (fits : ∀ slot, slots[index]? = some slot → value.Fits e slot.sig) :
    e.Fills (values.set index value) slots := by
  refine ⟨by rw [List.length_set, fills.length], fun i v slot written declared => ?_⟩
  rw [List.getElem?_set] at written
  split at written
  next here =>
    subst here
    split at written
    · cases written
      exact fits slot declared
    · cases written
  next => exact fills.fits i v slot written declared

theorem fills_zeros (e : Engine) (slots : List FieldSlot) :
    e.Fills (slots.map fun slot => .zeroOf slot.sig) slots := by
  refine ⟨List.length_map .., fun i v slot value declared => ?_⟩
  rw [List.getElem?_map, declared] at value
  cases value
  exact Value.fits_zeroOf e slot.sig

/-- What a field store holds exists. -/
def Stocks (e : Engine) (store : FieldStore) : Prop :=
  ∀ declaring name v, store.value? declaring name = some v → v.Exists e

theorem Stocks.mono {store : FieldStore} (stocks : e.Stocks store) (evolves : e.Evolves e') :
    e'.Stocks store := fun declaring name v held => (stocks declaring name v held).mono evolves

theorem stocks_empty (e : Engine) : e.Stocks {} := fun _ _ _ held => by cases held

theorem Stocks.set {store : FieldStore} (stocks : e.Stocks store) {value : Value}
    (there : value.Exists e) (declaring name : String) :
    e.Stocks (store.set declaring name value) := by
  intro declaring' name' v held
  rw [FieldStore.value?_set] at held
  split at held
  · cases held
    exact there
  · exact stocks declaring' name' v held

theorem Stocks.drop {store : FieldStore} (stocks : e.Stocks store) (declaring name : String) :
    e.Stocks (store.drop declaring name) := by
  intro declaring' name' v held
  rw [FieldStore.value?_drop] at held
  split at held
  · cases held
  · exact stocks declaring' name' v held

/-- The store that a read looks into once more. -/
theorem Stocks.unanswered {store left : FieldStore} (stocks : e.Stocks store)
    {declaring name : String} {policy : FieldPolicy} {fits : Value → Bool}
    (unanswered : store.Unanswered declaring name policy fits left) : e.Stocks left := by
  cases unanswered with
  | absent => exact stocks
  | dropped => exact stocks.drop declaring name

/-- What fills a vacant place of a store fits the type that it is read with. -/
theorem Stocks.fill {store : FieldStore} (stocks : e.Stocks store) {declaring name : String}
    (vacant : store.value? declaring name = none) (sig : TypeSig) {revealed : Option Value}
    (there : ∀ v ∈ revealed, v.Exists e) :
    (store.fill declaring name sig (fun v => v.conforms e sig) revealed).1.1.Fits e sig ∧
      e.Stocks (store.fill declaring name sig (fun v => v.conforms e sig) revealed).2 := by
  rcases store.fill_cases declaring name sig (fun v => v.conforms e sig) revealed with
    ⟨value, held, -⟩ | ⟨value, -, found, conforms, filled⟩ | ⟨-, filled⟩
  · cases vacant.symm.trans held
  · rw [filled]
    have exists_ := there value found
    exact ⟨⟨exists_, fun _ => conforms⟩, stocks.set exists_ _ _⟩
  · rw [filled]
    have fits := Value.fits_zeroOf e sig
    exact ⟨fits, stocks.set fits.there _ _⟩

/-- A read of a store answers with a value of the type that it is read with. -/
theorem Stocks.readStore {store : FieldStore} (stocks : e.Stocks store) (policy : FieldPolicy)
    (f : LiveField) (inherited : Option Value) (there : ∀ v ∈ inherited, v.Exists e) :
    e.Stocks (e.readStore store policy f inherited).2 ∧
      ∀ v, (e.readStore store policy f inherited).1 = .ok v → v.Fits e f.sig := by
  have answer : e.readStore store policy f inherited =
      ((store.get f.declaring f.name f.sig policy (fun v => v.conforms e f.sig)
        fun store => (inherited, store)).1.map Prod.fst,
      (store.get f.declaring f.name f.sig policy (fun v => v.conforms e f.sig)
        fun store => (inherited, store)).2) := rfl
  rw [answer]
  rcases store.get_cases f.declaring f.name f.sig policy (fun v => v.conforms e f.sig)
      (fun store => (inherited, store)) with
    ⟨value, held, conforms, stored⟩ | ⟨value, held, unfit, -, refused⟩ | ⟨left, unanswered⟩
  · rw [stored]
    refine ⟨stocks, fun v same => ?_⟩
    cases same
    exact ⟨stocks _ _ value held, fun _ => conforms⟩
  · rw [refused]
    exact ⟨stocks, fun v same => by cases same⟩
  · rw [unanswered.get_eq]
    have filled := (stocks.unanswered unanswered).fill unanswered.vacant f.sig there
    refine ⟨filled.2, fun v same => ?_⟩
    cases same
    exact filled.1

/-- An object has a class, and a value in each slot of it that may stand there. -/
structure ObjectTyped (e : Engine) (object : Object) : Prop where
  cls_lt : object.cls < e.classes.size
  slots : e.Fills object.slots (e.classAt object.cls).instanceFields
  store : ∀ store ∈ object.store, e.Stocks store

/-- An array holds what its element type says. -/
def ArrayTyped (e : Engine) (cell : ArrayCell) : Prop := ∀ v ∈ cell.items, v.Fits e cell.element

/-- Everything in the heap may stand where it stands. -/
structure Typed (e : Engine) : Prop where
  objects : ∀ o < e.objects.size, e.ObjectTyped (e.objectAt o)
  statics : ∀ c, e.Fills (e.classAt c).statics (e.classAt c).staticFields
  arrays : ∀ a < e.arrays.size, e.ArrayTyped (e.arrayAt a)
  stores : ∀ t, e.Stocks (e.typeAt t).statics

theorem During.staticFields (during : e.During e') (c : ClassRef) :
    (e'.classAt c).staticFields = (e.classAt c).staticFields := by
  have same := congrArg Class.staticFields (during.classAt c)
  exact same

theorem ObjectTyped.mono {object : Object} (typed : e.ObjectTyped object)
    (evolves : e.Evolves e') : e'.ObjectTyped object where
  cls_lt := evolves.during.classes_size.symm ▸ typed.cls_lt
  slots := by
    rw [evolves.during.instanceFields]
    exact typed.slots.mono evolves
  store store held := (typed.store store held).mono evolves

theorem ArrayTyped.mono {cell : ArrayCell} (typed : e.ArrayTyped cell) (evolves : e.Evolves e') :
    e'.ArrayTyped cell := fun v mem => (typed v mem).mono evolves

/-- Everything in the heap is what it was, or may stand where it now stands. -/
structure Rewrites (e e' : Engine) : Prop where
  objects : ∀ o < e'.objects.size,
    (o < e.objects.size ∧ e'.objectAt o = e.objectAt o) ∨ e'.ObjectTyped (e'.objectAt o)
  statics : ∀ c, (e'.classAt c).statics = (e.classAt c).statics ∨
    e'.Fills (e'.classAt c).statics (e'.classAt c).staticFields
  arrays : ∀ a < e'.arrays.size,
    (a < e.arrays.size ∧ e'.arrayAt a = e.arrayAt a) ∨ e'.ArrayTyped (e'.arrayAt a)
  stores : ∀ t, (e'.typeAt t).statics = (e.typeAt t).statics ∨ e'.Stocks (e'.typeAt t).statics

theorem Typed.evolve (typed : e.Typed) (evolves : e.Evolves e') (rewrites : e.Rewrites e') :
    e'.Typed := by
  refine ⟨fun o lt => ?_, fun c => ?_, fun a lt => ?_, fun t => ?_⟩
  · rcases rewrites.objects o lt with ⟨before, same⟩ | fits
    · rw [same]
      exact (typed.objects o before).mono evolves
    · exact fits
  · rcases rewrites.statics c with same | fits
    · rw [same, evolves.during.staticFields]
      exact (typed.statics c).mono evolves
    · exact fits
  · rcases rewrites.arrays a lt with ⟨before, same⟩ | fits
    · rw [same]
      exact (typed.arrays a before).mono evolves
    · exact fits
  · rcases rewrites.stores t with same | stocks
    · rw [same]
      exact (typed.stores t).mono evolves
    · exact stocks

/-- Wherever objects have a slot of a name, it has one type. -/
def SlotsHave (e : Engine) (declaring name : String) (sig : TypeSig) : Prop :=
  ∀ c, ∀ slot ∈ (e.classAt c).instanceFields, slot.declaring = declaring → slot.name = name →
    slot.sig = sig

/-- The slots that a field of a live version is kept in have its type. -/
structure Backs (e : Engine) (f : LiveField) : Prop where
  static : ∀ (index : Nat) (slot : FieldSlot), (e.classAt f.cls).staticSlot? f.name = some index →
    (e.classAt f.cls).staticFields[index]? = some slot → slot.sig = f.sig
  slots : e.SlotsHave f.declaring f.name f.sig

/-- The slot that the host links a field to is where the host says. -/
structure Holds (e : Engine) (h : HostField) : Prop where
  static : h.slot.isStatic = true → (e.classAt h.cls).staticFields[h.index]? = some h.slot
  slots : h.slot.isStatic = false → e.SlotsHave h.slot.declaring h.slot.name h.slot.sig

/-- Names tell what they mean: a scope's classes exist, and the slots that a name of a field
leads to have the type that is declared for it. -/
structure Coherent (e : Engine) : Prop where
  known : e.Known
  hosted : ∀ c name h, e.hostField? c name = some h → e.Holds h
  backed : ∀ s c name f, e.resolveField s c name = .ok (some f) → f.storedBy? = none → e.Backs f

section Skeleton

variable (e)

theorem hostField?_skeleton (c : ClassRef) (name : String) :
    e.skeleton.hostField? c name = e.hostField? c name := by
  unfold hostField?
  simp only [classAt_skeleton]
  rfl

theorem managedOf?_skeleton (s : ScopeRef) (c : ClassRef) :
    e.skeleton.managedOf? s c = e.managedOf? s c := by
  unfold managedOf? typeWithId?
  rw [classAt_skeleton, scopeAt_skeleton]
  rfl

theorem liveParent_skeleton (s : ScopeRef) (c : ClassRef) :
    e.skeleton.liveParent s c = e.liveParent s c := by
  unfold liveParent Engine.class?
  simp only [managedOf?_skeleton, classAt_skeleton, typeAt_skeleton, scopeAt_skeleton]
  rfl

theorem liveChain_skeleton (s : ScopeRef) (c : ClassRef) :
    e.skeleton.liveChain s c = e.liveChain s c :=
  liveChain_congr _ e (Array.size_map ..) (e.liveParent_skeleton s) c

theorem resolveField_skeleton (s : ScopeRef) (c : ClassRef) (name : String) :
    e.skeleton.resolveField s c name = e.resolveField s c name := by
  have own (d : ClassRef) : e.skeleton.ownLiveField? s name d = e.ownLiveField? s name d := by
    unfold ownLiveField?
    simp only [managedOf?_skeleton, classAt_skeleton, typeAt_skeleton]
    rfl
  have interface (d : ClassRef) :
      e.skeleton.interfaceField? name d = e.interfaceField? name d := by
    unfold interfaceField?
    simp only [hostField?_skeleton, classAt_skeleton]
    rfl
  unfold resolveField
  simp only [liveChain_skeleton, own, interface]

end Skeleton

section During

variable (during : e.During e')
include during

theorem During.resolveField (s : ScopeRef) (c : ClassRef) (name : String) :
    e'.resolveField s c name = e.resolveField s c name := by
  obtain ⟨depth, same⟩ := during
  have before : ({ e with depth } : Engine).resolveField s c name = e.resolveField s c name := by
    unfold Engine.resolveField
    rw [liveChain_setDepth]
    rfl
  rw [← resolveField_skeleton, same, resolveField_skeleton, before]

theorem SlotsHave.mono {declaring name : String} {sig : TypeSig}
    (slots : e.SlotsHave declaring name sig) : e'.SlotsHave declaring name sig := by
  intro c slot mem
  rw [during.instanceFields] at mem
  exact slots c slot mem

theorem Backs.mono {f : LiveField} (backs : e.Backs f) : e'.Backs f := by
  refine ⟨fun index slot place declared => ?_, backs.slots.mono during⟩
  unfold Class.staticSlot? at place
  rw [during.staticFields] at place declared
  exact backs.static index slot place declared

theorem Holds.mono {h : HostField} (holds : e.Holds h) : e'.Holds h := by
  refine ⟨fun static => ?_, fun instances => (holds.slots instances).mono during⟩
  rw [during.staticFields]
  exact holds.static static

/-- What names mean does not change while code runs. -/
theorem Coherent.mono (coherent : e.Coherent) : e'.Coherent := by
  refine ⟨coherent.known.during during, fun c name h found => ?_, fun s c name f found kept => ?_⟩
  · have host : e'.hostField? c name = e.hostField? c name := by
      obtain ⟨depth, same⟩ := during
      rw [← hostField?_skeleton, same, hostField?_skeleton]
      rfl
    rw [host] at found
    exact (coherent.hosted c name h found).mono during
  · rw [during.resolveField] at found
    exact (coherent.backed s c name f found kept).mono during

end During

/-- Names tell what they mean, and the heap is typed. -/
structure Sound (e : Engine) : Prop where
  coherent : e.Coherent
  typed : e.Typed

theorem Sound.evolve (sound : e.Sound) (evolves : e.Evolves e') (rewrites : e.Rewrites e') :
    e'.Sound :=
  ⟨sound.coherent.mono evolves.during, sound.typed.evolve evolves rewrites⟩

section Writes

/-! What running code writes, when it fits the place that it is written to. -/

variable (sound : e.Sound)
include sound

theorem Sound.updateScope (s : ScopeRef) {f : Scope → Scope}
    (skeleton : ∀ scope, (f scope).skeleton = scope.skeleton) : (e.updateScope s f).Sound :=
  sound.evolve (e.evolves_updateScope s skeleton) ⟨fun _ lt => .inl ⟨lt, rfl⟩, fun _ => .inl rfl,
    fun _ lt => .inl ⟨lt, rfl⟩, fun _ => .inl rfl⟩

theorem Sound.setDepth (depth : Nat) : ({ e with depth } : Engine).Sound :=
  sound.evolve (e.evolves_setDepth depth) ⟨fun _ lt => .inl ⟨lt, rfl⟩, fun _ => .inl rfl,
    fun _ lt => .inl ⟨lt, rfl⟩, fun _ => .inl rfl⟩

/-- A class changes, and its static fields hold what they may hold. -/
theorem Sound.updateClass (c : ClassRef) {f : Class → Class}
    (evolves : e.Evolves (e.updateClass c f))
    (statics : (f (e.classAt c)).statics = (e.classAt c).statics ∨
      e.Fills (f (e.classAt c)).statics (e.classAt c).staticFields) :
    (e.updateClass c f).Sound := by
  refine sound.evolve evolves ⟨fun _ lt => .inl ⟨lt, rfl⟩, fun d => ?_,
    fun _ lt => .inl ⟨lt, rfl⟩, fun _ => .inl rfl⟩
  have at_ : (e.updateClass c f).classAt d =
      if c = d ∧ d < e.classes.size then f (e.classAt d) else e.classAt d :=
    getD_modify_or _ _ _ _ _
  rw [evolves.during.staticFields, at_]
  split
  next here =>
    obtain ⟨rfl, -⟩ := here
    exact statics.imp id fun fills => fills.mono evolves
  next => exact .inl rfl

theorem Sound.beginInit (c : ClassRef) : (e.beginInit c).2.Sound := by
  have evolves := e.evolves_beginInit c
  unfold Engine.beginInit at evolves ⊢
  split
  next pending =>
    rw [if_pos pending] at evolves
    exact sound.updateClass c evolves (.inl rfl)
  next => exact sound

theorem Sound.finishInit (c : ClassRef) : (e.finishInit c).Sound :=
  sound.updateClass c (e.evolves_finishInit c) (.inl rfl)

theorem Sound.setStatic (c : ClassRef) {index : Nat} {value : Value}
    (fits : ∀ slot, (e.classAt c).staticFields[index]? = some slot → value.Fits e slot.sig) :
    (e.updateClass c fun cls => cls.setStatic index value).Sound :=
  sound.updateClass c (e.evolves_setStatic c index value) (.inr ((sound.typed.statics c).set fits))

theorem Sound.updateType (t : TypeRef) {f : ManagedType → ManagedType}
    (skeleton : ∀ type, (f type).skeleton = type.skeleton)
    (stocks : e.Stocks (f (e.typeAt t)).statics) : (e.updateType t f).Sound := by
  have evolves := e.evolves_updateType t skeleton
  refine sound.evolve evolves ⟨fun _ lt => .inl ⟨lt, rfl⟩, fun _ => .inl rfl,
    fun _ lt => .inl ⟨lt, rfl⟩, fun t' => ?_⟩
  have at_ : (e.updateType t f).typeAt t' =
      if t = t' ∧ t' < e.types.size then f (e.typeAt t') else e.typeAt t' :=
    getD_modify_or _ _ _ _ _
  rw [at_]
  split
  next here =>
    obtain ⟨rfl, -⟩ := here
    exact .inr (stocks.mono evolves)
  next => exact .inl rfl

/-- An object changes, and holds what it may hold. -/
theorem Sound.updateObject (o : ObjectRef) {f : Object → Object}
    (cls : ∀ object, (f object).cls = object.cls)
    (slots : ∀ object, (f object).slots.length = object.slots.length)
    (fits : o < e.objects.size → e.ObjectTyped (f (e.objectAt o))) :
    (e.updateObject o f).Sound := by
  have evolves := e.evolves_updateObject o cls slots
  refine sound.evolve evolves ⟨fun o' lt => ?_, fun _ => .inl rfl,
    fun _ lt => .inl ⟨lt, rfl⟩, fun _ => .inl rfl⟩
  have lt : o' < e.objects.size := by simpa [Engine.updateObject] using lt
  rw [e.objectAt_updateObject o f lt]
  split
  next here =>
    subst here
    exact .inr ((fits lt).mono evolves)
  next => exact .inl ⟨lt, rfl⟩

theorem Sound.setSlot (o : ObjectRef) {index : Nat} {value : Value}
    (fits : ∀ slot, (e.classOf o).instanceFields[index]? = some slot → value.Fits e slot.sig) :
    (e.updateObject o fun object => object.setSlot index value).Sound := by
  refine sound.updateObject o (fun _ => rfl) (fun _ => List.length_set) fun lt => ?_
  have typed := sound.typed.objects o lt
  exact ⟨typed.cls_lt, typed.slots.set fits, typed.store⟩

theorem Sound.setStore (o : ObjectRef) {f : Option FieldStore → FieldStore}
    (stocks : e.Stocks (f (e.objectAt o).store)) :
    (e.updateObject o fun object => { object with store := some (f object.store) }).Sound := by
  refine sound.updateObject o (fun _ => rfl) (fun _ => rfl) fun lt => ?_
  have typed := sound.typed.objects o lt
  refine ⟨typed.cls_lt, typed.slots, fun store held => ?_⟩
  cases held
  exact stocks

theorem Sound.newObject {c : ClassRef} (lt : c < e.classes.size) : (e.newObject c).2.Sound := by
  have evolves := e.evolves_newObject fun _ => lt
  refine sound.evolve evolves ⟨fun o held => ?_, fun _ => .inl rfl,
    fun _ lt => .inl ⟨lt, rfl⟩, fun _ => .inl rfl⟩
  have held : o < e.objects.size + 1 := by simpa [Engine.newObject] using held
  have at_ : (e.newObject c).2.objectAt o = if o = e.objects.size then
      ⟨c, (e.classAt c).instanceFields.map fun f => Value.zeroOf f.sig, none⟩
      else e.objectAt o := getD_push _ _ _ _
  rw [at_]
  split
  · exact .inr ⟨lt, fills_zeros _ _, fun _ held => by cases held⟩
  next other => exact .inl ⟨by omega, rfl⟩

theorem Sound.newArray (element : TypeSig) (length : Nat) :
    (e.newArray ⟨element, Array.replicate length (.zeroOf element)⟩).2.Sound := by
  have evolves := e.evolves_newArray ⟨element, Array.replicate length (.zeroOf element)⟩
  refine sound.evolve evolves ⟨fun _ lt => .inl ⟨lt, rfl⟩, fun _ => .inl rfl,
    fun a held => ?_, fun _ => .inl rfl⟩
  have held : a < e.arrays.size + 1 := by simpa [Engine.newArray] using held
  have at_ : (e.newArray ⟨element, Array.replicate length (.zeroOf element)⟩).2.arrayAt a =
      if a = e.arrays.size then ⟨element, Array.replicate length (.zeroOf element)⟩
      else e.arrayAt a := getD_push _ _ _ _
  rw [at_]
  split
  · refine .inr fun v mem => ?_
    obtain rfl := Array.eq_of_mem_replicate mem
    exact Value.fits_zeroOf _ element
  next other => exact .inl ⟨by omega, rfl⟩

theorem Sound.setElement (a : ArrayRef) {place : Nat} {value : Value}
    (fits : value.Fits e (e.arrayAt a).element) :
    (e.updateArray a fun cell => cell.set place value).Sound := by
  have evolves := e.evolves_updateArray a (f := fun cell => cell.set place value) fun _ => rfl
  refine sound.evolve evolves ⟨fun _ lt => .inl ⟨lt, rfl⟩, fun _ => .inl rfl,
    fun a' lt => ?_, fun _ => .inl rfl⟩
  have lt : a' < e.arrays.size := by simpa [Engine.updateArray] using lt
  rw [e.arrayAt_updateArray a _ lt]
  split
  next here =>
    subst here
    refine .inr fun v mem => ?_
    rcases Array.mem_or_eq_of_mem_setIfInBounds mem with held | rfl
    · exact (sound.typed.arrays a lt v held).mono evolves
    · exact fits.mono evolves
  next => exact .inl ⟨lt, rfl⟩

end Writes

end Engine

end LiveUpdate
