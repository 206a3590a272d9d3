import LiveUpdate.Engine.Exec

/-!
# Resolution against live versions

A managed type has the members and the supertype that its live version declares; any
other class has those it was defined with.  Members are looked for along the chain of
supertypes that results.  The chain of a class can break off, at a supertype that is not
defined, and it can fail to end, when live versions extend each other.
-/

set_option autoImplicit false

namespace LiveUpdate

/-- How a chain of supertypes ends. -/
inductive ChainEnd
  /-- At a class without a supertype. -/
  | top
  /-- At a class whose live supertype is not defined. -/
  | missing (name : String)
  /-- Not at all. -/
  | endless
deriving DecidableEq, Inhabited

/-- A class and its live supertypes, and how they end. -/
structure LiveChain where
  classes : List ClassRef
  finish : ChainEnd
deriving DecidableEq, Inhabited

namespace Engine

variable (e : Engine) (s : ScopeRef)

/-- The live supertype of a class, or the name of one that is not defined. -/
def liveParent (c : ClassRef) : Except String (Option ClassRef) :=
  match e.managedOf? s c with
  | none => .ok (e.classAt c).parent
  | some t =>
    match (e.typeAt t).live.shape.superName with
    | none => .ok none
    | some name =>
      match e.class? s name with
      | some parent => .ok (some parent)
      | none => .error name

/-- The chain of a class, followed for a number of classes. -/
def liveChainWithin : Nat → ClassRef → LiveChain
  | 0, _ => ⟨[], .endless⟩
  | n + 1, c =>
    match e.liveParent s c with
    | .error name => ⟨[c], .missing name⟩
    | .ok none => ⟨[c], .top⟩
    | .ok (some parent) =>
      let rest := liveChainWithin n parent
      ⟨c :: rest.classes, rest.finish⟩

/-- The chain of a class.  One that is longer than the number of classes repeats itself. -/
def liveChain (c : ClassRef) : LiveChain := e.liveChainWithin s (e.classes.size + 1) c

end Engine

/-- The first answer along a chain; where there is none, the chain must reach its top. -/
def LiveChain.findSome? {α : Type} (chain : LiveChain) (f : ClassRef → Option α) :
    Except (Stop RunError) (Option α) :=
  match chain.classes.findSome? f with
  | some a => .ok (some a)
  | none =>
    match chain.finish with
    | .top => .ok none
    | .missing name => .error (.error (.classNotFound name))
    | .endless => .error .outOfFuel

namespace Engine

variable (e : Engine) (s : ScopeRef)

/-- The method that a class itself declares now. -/
def ownLiveMethod? (key : MemberKey) (c : ClassRef) : Option LiveMethod :=
  let cls := e.classAt c
  let host := (cls.method? key).map fun m => (c, m)
  match e.managedOf? s c with
  | some t => ((e.typeAt t).live.shape.method? key).map fun m =>
    { declaring := cls.name, modifiers := m.modifiers, managed := some t, host }
  | none => (cls.method? key).map fun m =>
    { declaring := cls.name, modifiers := m.declared, managed := none, host }

/-- The method that a class has from an interface. -/
def interfaceMethod? (c : ClassRef) (key : MemberKey) : Option LiveMethod :=
  match e.hostMethod? c key with
  | some (d, m) =>
    if (e.classAt d).isInterface then
      some {
        declaring := (e.classAt d).name
        modifiers := m.declared
        managed := none
        host := some (d, m) }
    else none
  | none => none

/-- The method that a key means for a class: the one declared nearest to it, or one from
an interface.  Constructors and static initializers are not inherited. -/
def resolveMethod (c : ClassRef) (key : MemberKey) :
    Except (Stop RunError) (Option LiveMethod) :=
  if key.isConstructor || key.isStaticInit then .ok (e.ownLiveMethod? s key c)
  else do
    match ← (e.liveChain s c).findSome? (e.ownLiveMethod? s key) with
    | some m => return some m
    | none => return e.interfaceMethod? c key

/-- The field that a class itself declares now. -/
def ownLiveField? (name : String) (c : ClassRef) : Option LiveField :=
  let cls := e.classAt c
  let found := fun (f : FieldDef) (managed : Option TypeRef) (placement : FieldPlacement) =>
    LiveField.mk cls.name name f.sig f.modifiers managed c placement
  match e.managedOf? s c with
  | some t => ((e.typeAt t).live.shape.field? name).map fun f =>
    found f (some t) ((e.typeAt t).fieldPlacement f)
  | none => (cls.unit.field? name).map fun f => found f none .native

/-- The field that a class has from one of its interfaces. -/
def interfaceField? (name : String) (c : ClassRef) : Option LiveField :=
  ((e.classAt c).interfaces.findSome? fun i => e.hostField? i name).map fun h =>
    { declaring := h.slot.declaring, name := h.slot.name, sig := h.slot.sig,
      modifiers := h.slot.modifiers, managed := none, cls := h.cls, placement := .native }

/-- The field that a name means for a class. -/
def resolveField (c : ClassRef) (name : String) : Except (Stop RunError) (Option LiveField) :=
  (e.liveChain s c).findSome? fun d => e.ownLiveField? s name d <|> e.interfaceField? name d

end Engine

/-- What a virtual call finds in a class. -/
inductive Selection
  /-- The live member of a managed type. -/
  | live (type : TypeRef)
  /-- A method of the host. -/
  | host (cls : ClassRef) (method : Method)
  /-- A method without a body. -/
  | abstract (cls : ClassRef)
deriving DecidableEq, Inhabited

namespace Engine

variable (e : Engine) (s : ScopeRef)

/-- What a virtual call finds in one class: a method that is neither static nor private. -/
def selectIn? (key : MemberKey) (c : ClassRef) : Option Selection :=
  let isCandidate := fun (m : Modifiers) => !m.isStatic && !m.isPrivate
  match e.managedOf? s c with
  | some t =>
    (((e.typeAt t).live.shape.method? key).filter fun m => isCandidate m.modifiers).map fun m =>
      if m.isAbstract then .abstract c else .live t
  | none =>
    (((e.classAt c).method? key).filter fun m => isCandidate m.modifiers).map fun m =>
      if m.isAbstract then .abstract c else .host c m

/-- What a virtual call selects for a receiver of a class. -/
def selectVirtual (c : ClassRef) (key : MemberKey) :
    Except (Stop RunError) (Option Selection) :=
  (e.liveChain s c).findSome? (e.selectIn? s key)

/-- The value of an object's field of the same name and type in the nearest superclass
that declares one and is not managed, read from its slot. -/
def inheritedValue? (o : ObjectRef) (name : String) (sig : TypeSig) : Option Value :=
  let outside := (e.classOf o).superclasses.filter fun c => (e.managedOf? s c).isNone
  outside.findSome? fun c =>
    match (e.classAt c).unit.fields.find? fun f => f.name = name && !f.isStatic with
    | some f => if f.sig = sig then e.slotValue? o (e.classAt c).name name else none
    | none => none

end Engine

end LiveUpdate
