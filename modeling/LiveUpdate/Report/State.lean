import LiveUpdate.Engine.Value
import LiveUpdate.Report.Shape
import LiveUpdate.Scope.Basic

/-!
# Reports of the engine

Reports of values, classes, versions, managed types and scopes as an engine holds them.
An array is reported with its items, down to three arrays inside each other; further down
only its length is given, so that arrays which contain themselves have reports too.
-/

set_option autoImplicit false

namespace LiveUpdate

/-- A float is reported by its bits; all values that are not a number look the same. -/
def floatText (bits : UInt64) : String := if Binary64.isNaN bits then "nan" else wordText bits

/-- The report of a value, with the items of arrays down to a depth. -/
def Value.reportTo (e : Engine) : Nat → Value → Report
  | _, null => .nothing
  | _, bool b => .flag b
  | _, int n => .parts [("int", .text (String.ofList (FloatFormat.integer n.toInt)))]
  | _, float bits => .parts [("float", .text (floatText bits))]
  | _, str s => .parts [("str", .text s)]
  | _, object o => .parts [("obj", .number o.succ), ("class", .text (e.classOf o).name)]
  | 0, array a =>
    let cell := e.arrayAt a
    .parts [("array", report cell.element), ("len", report cell.items.size)]
  | depth + 1, array a =>
    let cell := e.arrayAt a
    .parts [("array", report cell.element),
      ("items", .items (cell.items.toList.map (reportTo e depth)))]

/-- The report of a value. -/
def Value.report (e : Engine) (value : Value) : Report := value.reportTo e 3

namespace Engine

variable (e : Engine)

/-- The report of a list of values. -/
def reportValues (values : List Value) : Report := .items (values.map (Value.report e))

/-- The report of an object: its class, its slots, and the sizes of its store. -/
def reportObject (o : ObjectRef) : Report :=
  let object := e.objectAt o
  .parts [
    ("class", report (e.nameOf object.cls)),
    ("slots", e.reportValues object.slots),
    ("store", report (object.store.map fun s => [s.size, s.discards]))]

/-- Entries of a table of methods in the order of their texts. -/
def methodsByText (methods : Table MemberKey Method) : Table MemberKey Method :=
  methods.mergeSort fun a b => decide (a.1.text ≤ b.1.text)

/-- The text of a slot. -/
def slotText (slot : FieldSlot) : String :=
  s!"{slot.declaring}.{slot.name}:{slot.sig.text} {slot.modifiers.bits.toNat}"

/-- The report of a method of a class. -/
def reportMethod (key : MemberKey) (m : Method) : Report :=
  .items [report key, report m.modifiers, report m.declared, report m.declaring,
    report m.maxLocals, report m.code.length, report m.argCount, report m.returnsValue]

/-- The report of a class. -/
def reportClass (c : ClassRef) : Report :=
  let cls := e.classAt c
  .parts [
    ("id", report cls.id),
    ("name", report cls.name),
    ("super", report (cls.parent.map e.nameOf)),
    ("interfaces", report (cls.interfaces.map e.nameOf)),
    ("mods", report cls.unit.modifiers),
    ("abstract", report cls.isAbstract),
    ("interface", report cls.isInterface),
    ("initialized", report (decide (cls.init = .done))),
    ("managed", report cls.managed),
    ("stands_for", report cls.standsFor),
    ("instance_fields", report (cls.instanceFields.map slotText)),
    ("static_fields", report (cls.staticFields.map slotText)),
    ("statics", e.reportValues cls.statics),
    ("methods", .items ((methodsByText cls.methods).map fun (key, m) => reportMethod key m)),
    ("vtable", report ((methodsByText cls.vtable).map fun (key, m) => (key, m.declaring))),
    ("constructors", report (MethodShape.sorted (cls.constructors.map fun m => m.key.text))),
    ("superclasses", report (cls.superclasses.map e.nameOf))]

/-- The report of a field found in the classes of the host. -/
def reportHostField (f : HostField) : Report :=
  .items [report (e.nameOf f.cls), report f.index, report f.slot.declaring, report f.slot.sig,
    report f.slot.modifiers, report f.slot.isStatic]

/-- The report of a method found in the classes of the host. -/
def reportHostMethod (c : ClassRef) (m : Method) : Report :=
  .items [report (e.nameOf c), report m.declaring, report m.isAbstract, report m.isStatic,
    report m.isConstructor]

/-- The report of a version of a managed type. -/
def reportVersion (v : LiveVersion) : Report :=
  .parts [
    ("number", report v.number),
    ("stamp", report v.stamp),
    ("digest", report (digestText v.digest)),
    ("original", report v.isFirst),
    ("size", report v.data.length),
    ("delta", report v.delta),
    ("cumulative", report v.cumulative),
    ("contract", report (v.artifacts.map fun a => e.nameOf a.contract)),
    ("executor", report (v.executor?.map e.nameOf)),
    ("dispatch", report v.dispatch),
    ("rerun", report v.rerun)]

/-- The name of a managed type, if there is one. -/
def typeName? (t : Option TypeRef) : Option String := t.map fun t => (e.typeAt t).name

/-- The members of a managed type that may have slots: those of its class, and those of
all its versions. -/
def membersOf (t : TypeRef) : List MemberKey :=
  let type := e.typeAt t
  (type.native.map fun c => (e.classAt c).methods.map Prod.fst).getD [] ++
    type.versions.flatMap fun v => MethodShape.keys v.shape.methods

/-- The report of a managed type, with the managed type above it. -/
def reportType (t : TypeRef) (above : Option TypeRef) : Report :=
  let type := e.typeAt t
  let slot := fun (key : MemberKey) =>
    (type.slots.slotOf? key).map fun number => (key.text, report number)
  .parts [
    ("id", report type.id),
    ("name", report type.name),
    ("versions", report type.versions.length),
    ("reloaded", report type.published.isSome),
    ("dispatcher", report (type.published.map fun v => Report.items
      [report type.name, report v.number, report (v.dispatch.entry? 0)])),
    ("slots", .parts (((e.membersOf t).eraseDups).filterMap slot)),
    ("slot_count", report type.slots.size),
    ("stats", .items [report type.reloads, report type.rejected, report type.lastStamp]),
    ("super_type", report (e.typeName? above)),
    ("statics", report [type.statics.size, type.statics.discards]),
    ("open", report (e.scopeAt type.scope).isOpen),
    ("native", report (type.native.map e.nameOf)),
    ("stamps", report (type.versions.map LiveVersion.stamp)),
    ("original_digest", report (digestText type.first.digest)),
    ("live_super", report type.live.shape.superName)]

/-- The report of a method that a live type has. -/
def reportLiveMethod (m : LiveMethod) : Report :=
  .parts [
    ("declaring", report m.declaring),
    ("mods", report m.modifiers),
    ("managed", report (e.typeName? m.managed)),
    ("host", report (m.host.map fun (c, body) => Report.items
      [report (e.nameOf c), report body.modifiers, report body.code.length])),
    ("static", report m.isStatic),
    ("abstract", report m.isAbstract)]

/-- The report of a field that a live type has. -/
def reportLiveField (f : LiveField) : Report :=
  .parts [
    ("declaring", report f.declaring),
    ("name", report f.name),
    ("sig", report f.sig),
    ("mods", report f.modifiers),
    ("managed", report (e.typeName? f.managed)),
    ("class", report (e.nameOf f.cls)),
    ("placement", report f.placement)]

/-- The numbers and names of the classes of a scope, in the order of the numbers. -/
def classList (s : ScopeRef) : List (Nat × String) :=
  ((e.scopeAt s).classes.map fun (name, c) => ((e.classAt c).id, name)).mergeSort
    fun a b => decide (a.1 ≤ b.1)

end Engine

instance : Reportable FieldPolicy := ⟨fun
  | .discard => .text "DiscardAndDefault"
  | .refuse => .text "Error"⟩

instance : Reportable Options := ⟨fun o => .parts [
  ("include", report o.included),
  ("exclude", report o.excluded),
  ("verify_reloads", report o.verifyReloads),
  ("field_incompatibility", report o.fieldPolicy),
  ("max_call_depth", report o.maxCallDepth),
  ("rewrite_system_types", report o.guardSystemTypes),
  ("system_prefixes", report o.systemPrefixes)]⟩

/-- The report of a scope. -/
def Engine.reportScope (e : Engine) (s : ScopeRef) : Report :=
  let scope := e.scopeAt s
  let types := scope.types.mergeSort fun a b => decide (a.1 ≤ b.1)
  .parts [
    ("epoch", report scope.epoch),
    ("types", report (types.map fun t => (e.typeAt t.2).name)),
    ("names", report (e.namesOf s).names),
    ("classes", report (e.classList s)),
    ("type_count", .items [report types.length, report types.isEmpty]),
    ("debug", report [scope.summary, scope.reflectionSummary]),
    ("options", report scope.options)]

/-- The report of a call of an observer. -/
def Engine.reportCallback (e : Engine) (c : Callback) : Report :=
  let occasion := match c.call with
    | .before => "before"
    | .rerun => "rerun?"
    | .after => "after"
  .items [report c.observer, report occasion, report c.event.typeName,
    report (e.nameOf c.event.native), report c.event.stamp, report c.event.version]

end LiveUpdate
