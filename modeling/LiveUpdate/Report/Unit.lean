import LiveUpdate.Decimal.FloatText
import LiveUpdate.Instruction.Opcode
import LiveUpdate.Report.Basic
import LiveUpdate.Text.Hex
import LiveUpdate.Unit.Basic

/-!
# Reports of units

An instruction is reported as the list of its name and its operands.  An integer operand
is written in decimal, and a float operand as the sixteen hexadecimal digits of its bits,
so that no reader can lose a digit of either.
-/

set_option autoImplicit false

namespace LiveUpdate

/-- A 64-bit word, the most significant digit first. -/
def wordText (bits : UInt64) : String := hexBytes (Encode.word bits).reverse

/-- The operands that name a field. -/
def FieldRef.operands (f : FieldRef) : List Report := [report f.owner, report f.name, report f.sig]

/-- The operands that name a method. -/
def MethodRef.operands (m : MethodRef) : List Report :=
  [report m.owner, report m.name, report m.sig]

namespace Instr

/-- The name under which an instruction is reported.  A truth value is an operand. -/
def reportName : Instr → String
  | constBool _ => "ConstBool"
  | instr => instr.opcode.name

/-- The operands of an instruction. -/
def operands : Instr → List Report
  | constBool b => [report b]
  | constInt n => [.text (String.ofList (FloatFormat.integer n.toInt))]
  | constFloat bits => [.text (wordText bits)]
  | constStr s | new s | instanceOf s | checkCast s => [report s]
  | load slot | store slot => [report slot]
  | jump target | jumpIf _ target => [report target]
  | newArray sig => [report sig]
  | invoke _ m => m.operands
  | access _ f => f.operands
  | entryCheck typeId slot => [report typeId, report slot]
  | invokeCheck typeId | fieldCheck typeId => [report typeId]
  | liveAccess _ typeId f => report typeId :: f.operands
  | liveSpecial typeId m | liveSuper typeId m | liveInit typeId m => report typeId :: m.operands
  | _ => []

instance : Reportable Instr := ⟨fun instr => .items (.text instr.reportName :: instr.operands)⟩

end Instr

instance : Reportable Annotation :=
  ⟨fun a => .parts [("type", report a.typeName), ("elements", report a.elements)]⟩

instance : Reportable FieldDef := ⟨fun f => .parts [
  ("name", report f.name),
  ("sig", report f.sig),
  ("mods", report f.modifiers),
  ("generic", report f.generic),
  ("annotations", report f.annotations)]⟩

instance : Reportable MethodDef := ⟨fun m => .parts [
  ("name", report m.name),
  ("sig", report m.sig),
  ("mods", report m.modifiers),
  ("annotations", report m.annotations),
  ("throws", report m.throws),
  ("max_locals", report m.maxLocals),
  ("code", report m.code)]⟩

instance : Reportable TypeUnit := ⟨fun u => .parts [
  ("name", report u.name),
  ("super", report u.superName),
  ("interfaces", report u.interfaces),
  ("mods", report u.modifiers),
  ("flags", report u.flags),
  ("magic", report (hexBytes (Encode.u32 u.magic))),
  ("version", report u.version),
  ("annotations", report u.annotations),
  ("source", report u.sourceFile),
  ("fields", report u.fields),
  ("methods", report u.methods)]⟩

end LiveUpdate
