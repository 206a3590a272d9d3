import LiveUpdate.Dispatch.Table
import LiveUpdate.Reflect.Metadata
import LiveUpdate.Report.Unit
import LiveUpdate.Shape.Diff

/-!
# Reports of shapes and of dispatch

Reports of what a unit declares, of the difference between two versions, of the slots of
a managed type and of what each slot runs, and of the members that reflection shows.
-/

set_option autoImplicit false

namespace LiveUpdate

/-- A digest is reported by its hexadecimal digits. -/
def digestText (digest : Option (List UInt8)) : Option String := digest.map hexBytes

instance : Reportable MethodShape := ⟨fun m => .parts [
  ("name", report m.name),
  ("sig", report m.sig),
  ("mods", report m.modifiers),
  ("annotations", report m.annotations),
  ("throws", report m.throws),
  ("digest", report (digestText m.codeDigest)),
  ("overridable", report m.isOverridable),
  ("abstract", report m.isAbstract),
  ("static", report m.isStatic)]⟩

/-- The keys of methods. -/
def MethodShape.keys (methods : List MethodShape) : List MemberKey := methods.map MethodShape.key

instance : Reportable TypeShape := ⟨fun s => .parts [
  ("name", report s.name),
  ("super", report s.superName),
  ("interfaces", report s.interfaces),
  ("mods", report s.modifiers),
  ("annotations", report s.annotations),
  ("interface", report s.isInterface),
  ("enum", report s.isEnum),
  ("fields", .items (s.fields.map fun f => (report f).withParts [
    ("static", report f.isStatic),
    ("enum_constant", report f.isEnumConstant)])),
  ("methods", report s.methods),
  ("constructors", report (MethodShape.keys s.constructors)),
  ("plain_methods", report (MethodShape.keys s.plainMethods)),
  ("static_initializer", report (s.staticInitializer?.map MethodShape.key)),
  ("enum_constants", report (s.enumConstants.map FieldDef.name))]⟩

/-- The report of the change of a field. -/
def FieldChange.reportOf (name : String) (c : FieldChange) : Report := .parts [
  ("name", report name),
  ("type", report c.typeChanged),
  ("access", report c.accessChanged),
  ("static_flipped", report c.staticFlipped),
  ("annotations", report c.annotationsChanged)]

/-- The report of the change of a method. -/
def MethodChange.reportOf (key : MemberKey) (c : MethodChange) : Report := .parts [
  ("key", report key),
  ("added", report c.added),
  ("body", report c.bodyChanged),
  ("access", report c.accessChanged),
  ("static_flipped", report c.staticFlipped),
  ("throws", report c.throwsChanged),
  ("annotations", report c.annotationsChanged)]

instance : Reportable ShapeDiff := ⟨fun d => .parts [
  ("empty", report d.isEmpty),
  ("added_fields", report d.addedFields),
  ("removed_fields", report d.removedFields),
  ("changed_fields", .items (d.changedFields.map fun (name, c) => c.reportOf name)),
  ("methods", .items (d.methods.map fun (key, c) => c.reportOf key)),
  ("deleted_methods", report d.deletedMethods),
  ("supertype", report d.supertypeChanged),
  ("interfaces", report d.interfacesChanged),
  ("type_modifiers", report d.modifiersChanged),
  ("type_annotations", report d.annotationsChanged),
  ("enum_constants", report d.enumConstantsChanged),
  ("flipped", report d.staticFlippedMethods),
  ("static_init", report d.staticInitChanged)]⟩

instance : Reportable FieldPlacement := ⟨fun
  | .native => .text "Native"
  | .store => .text "Store"⟩

instance : Reportable SlotOrigin := ⟨fun
  | .declared => .text "Original"
  | .catcher => .text "Catcher"
  | .added => .text "Added"⟩

instance : Reportable SlotTable := ⟨fun t =>
  .items (t.slots.zipIdx.map fun (slot, number) =>
    .items [report number, report slot.key, report slot.origin])⟩

instance : Reportable DispatchEntry := ⟨fun
  | .host => .text "Original"
  | .executor m => .parts [("executor", report m.key)]
  | .deleted => .text "Deleted"
  | .abstract => .text "Abstract"⟩

instance : Reportable DispatchTable := ⟨fun t => .parts [
  ("entries", report (t.entries.map Prod.snd)),
  ("redirected", report t.redirected),
  ("empty", report t.entries.isEmpty)]⟩

instance : Reportable FieldInfo := ⟨fun f => (report f.member).withParts [
  ("declaring", report f.declaring),
  ("static", report f.member.isStatic)]⟩

instance : Reportable MethodInfo := ⟨fun m => .parts [
  ("declaring", report m.declaring),
  ("key", report m.member.key),
  ("mods", report m.member.modifiers),
  ("annotations", report m.member.annotations),
  ("throws", report m.member.throws),
  ("static", report m.member.isStatic)]⟩

instance : Reportable TypeMetadata := ⟨fun t => .parts [
  ("name", report t.name),
  ("version", report t.version),
  ("super", report t.superName),
  ("interfaces", report t.interfaces),
  ("mods", report t.modifiers),
  ("annotations", report t.annotations),
  ("fields", report t.fields),
  ("methods", report t.methods),
  ("constructors", report t.constructors),
  ("enum_constants", report (t.enumConstants.map fun f => f.member.name))]⟩

end LiveUpdate
