import LiveUpdate.Shape.Basic

/-!
# Differences between two shapes

Fields are matched by name, so a field with another type is a changed field and not one
removed and one added.  Methods are matched by key.  Order counts only among the
constants of an enumeration.
-/

set_option autoImplicit false

namespace LiveUpdate

/-- What changed about a field. -/
structure FieldChange where
  /-- The type or the generic signature. -/
  typeChanged : Bool
  /-- The modifiers. -/
  accessChanged : Bool
  /-- Whether the field belongs to the type itself. -/
  staticFlipped : Bool
  annotationsChanged : Bool
deriving DecidableEq, Inhabited

namespace FieldChange

/-- What changed between two declarations of a field. -/
def between (old new : FieldDef) : FieldChange where
  typeChanged := old.sig ≠ new.sig || old.generic ≠ new.generic
  accessChanged := old.modifiers ≠ new.modifiers
  staticFlipped := old.isStatic ≠ new.isStatic
  annotationsChanged := old.annotations ≠ new.annotations

/-- Whether anything changed. -/
def any (c : FieldChange) : Bool := c.typeChanged || c.accessChanged || c.annotationsChanged

end FieldChange

/-- What changed about a method of the later shape. -/
structure MethodChange where
  /-- The earlier shape has no such method. -/
  added : Bool
  bodyChanged : Bool
  /-- The modifiers. -/
  accessChanged : Bool
  /-- Whether the method has a receiver. -/
  staticFlipped : Bool
  throwsChanged : Bool
  annotationsChanged : Bool
deriving DecidableEq, Inhabited

namespace MethodChange

/-- The change of a method that is new. -/
def ofAdded : MethodChange := ⟨true, false, false, false, false, false⟩

/-- What changed between two shapes of a method. -/
def between (old new : MethodShape) : MethodChange where
  added := false
  bodyChanged := old.codeDigest ≠ new.codeDigest
  accessChanged := old.modifiers ≠ new.modifiers
  staticFlipped := old.isStatic ≠ new.isStatic
  throwsChanged := old.throws ≠ new.throws
  annotationsChanged := old.annotations ≠ new.annotations

/-- Whether anything changed. -/
def any (c : MethodChange) : Bool :=
  c.added || c.bodyChanged || c.accessChanged || c.throwsChanged || c.annotationsChanged

end MethodChange

/-- The difference between two shapes of one type. -/
structure ShapeDiff where
  earlier : TypeShape
  latest : TypeShape
  addedFields : List String
  removedFields : List String
  changedFields : List (String × FieldChange)
  /-- Methods of the latest shape that are new or changed. -/
  methods : List (MemberKey × MethodChange)
  deletedMethods : List MemberKey
  supertypeChanged : Bool
  interfacesChanged : Bool
  modifiersChanged : Bool
  annotationsChanged : Bool
  /-- The names of the enumeration constants, or their order. -/
  enumConstantsChanged : Bool
deriving DecidableEq, Inhabited

namespace ShapeDiff

/-- The last field declared with a name. -/
def lastField? (s : TypeShape) (name : String) : Option FieldDef :=
  s.fields.reverse.find? fun f => f.name = name

/-- The last method declared with a key. -/
def lastMethod? (s : TypeShape) (key : MemberKey) : Option MethodShape :=
  s.methods.reverse.find? fun m => m.key = key

/-- A field of the latest shape that changed, with its change. -/
def fieldChangeOf? (earlier : TypeShape) (f : FieldDef) : Option (String × FieldChange) :=
  match lastField? earlier f.name with
  | none => none
  | some old =>
    let change := FieldChange.between old f
    if change.any then some (f.name, change) else none

/-- A method of the latest shape that is new or changed, with its change. -/
def methodChangeOf? (earlier : TypeShape) (m : MethodShape) : Option (MemberKey × MethodChange) :=
  let change := match lastMethod? earlier m.key with
    | none => MethodChange.ofAdded
    | some old => MethodChange.between old m
  if change.any then some (m.key, change) else none

/-- The difference of a later shape from an earlier one. -/
def between (earlier latest : TypeShape) : ShapeDiff where
  earlier := earlier
  latest := latest
  addedFields :=
    (latest.fields.filter fun f => (lastField? earlier f.name).isNone).map FieldDef.name
  removedFields :=
    (earlier.fields.filter fun f => (lastField? latest f.name).isNone).map FieldDef.name
  changedFields := latest.fields.filterMap (fieldChangeOf? earlier)
  methods := latest.methods.filterMap (methodChangeOf? earlier)
  deletedMethods :=
    (earlier.methods.map MethodShape.key).filter fun k => (lastMethod? latest k).isNone
  supertypeChanged := earlier.superName ≠ latest.superName
  interfacesChanged := earlier.interfaces ≠ latest.interfaces
  modifiersChanged := earlier.modifiers ≠ latest.modifiers
  annotationsChanged := earlier.annotations ≠ latest.annotations
  enumConstantsChanged :=
    earlier.enumConstants.map FieldDef.name ≠ latest.enumConstants.map FieldDef.name

/-- Whether the two shapes are alike in everything that counts. -/
def isEmpty (d : ShapeDiff) : Bool :=
  d.addedFields.isEmpty && d.removedFields.isEmpty && d.changedFields.isEmpty &&
    d.methods.isEmpty && d.deletedMethods.isEmpty && !d.supertypeChanged &&
    !d.interfacesChanged && !d.modifiersChanged && !d.annotationsChanged &&
    !d.enumConstantsChanged

/-- What changed about a method of the latest shape. -/
def methodChange? (d : ShapeDiff) (key : MemberKey) : Option MethodChange :=
  (d.methods.find? fun e => e.1 = key).map Prod.snd

/-- Whether a method of the latest shape is new or changed. -/
def isMethodChanged (d : ShapeDiff) (key : MemberKey) : Bool := (d.methodChange? key).isSome

/-- Whether a method of the earlier shape is gone. -/
def isMethodDeleted (d : ShapeDiff) (key : MemberKey) : Bool := d.deletedMethods.contains key

/-- What changed about a field that both shapes have. -/
def fieldChange? (d : ShapeDiff) (name : String) : Option FieldChange :=
  (d.changedFields.find? fun e => e.1 = name).map Prod.snd

/-- The methods that got or lost their receiver. -/
def staticFlippedMethods (d : ShapeDiff) : List MemberKey :=
  (d.methods.filter fun e => e.2.staticFlipped).map Prod.fst

/-- Whether the static initializer is new, gone or changed. -/
def staticInitChanged (d : ShapeDiff) : Bool :=
  (d.methods.any fun e => e.1.isStaticInit) || d.deletedMethods.any MemberKey.isStaticInit

end ShapeDiff

/-- Where the value of a managed type's field is kept. -/
inductive FieldPlacement
  /-- In the slot of the host class. -/
  | native
  /-- In a field store. -/
  | store
deriving DecidableEq, Inhabited

/-- The place of a field, given its declaration in the first version: it keeps its slot
while its type and its kind are those of the first. -/
def placement (first : Option FieldDef) (live : FieldDef) : FieldPlacement :=
  match first with
  | some f => if f.sig = live.sig ∧ f.isStatic = live.isStatic then .native else .store
  | none => .store

end LiveUpdate
