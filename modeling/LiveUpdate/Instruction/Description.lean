import LiveUpdate.Decimal.FloatText
import LiveUpdate.Instruction.Opcode
import LiveUpdate.Text.Quoted

/-!
# Descriptions of instructions

Reports of malformed code describe an instruction by its name and its operands:
`Load(1)`, `ConstStr("a")`, and with named parts
`GetStatic(FieldRef \x7b owner: "app.T", name: "s", sig: Int \x7d)`.
-/

set_option autoImplicit false

namespace LiveUpdate

/-- A name with named parts between braces. -/
def describeParts (name : String) (parts : List (String × String)) : String :=
  name ++ " \x7b " ++ ", ".intercalate (parts.map fun p => p.1 ++ ": " ++ p.2) ++ " \x7d"

/-- The description of a type signature. -/
def TypeSig.describe : TypeSig → String
  | int => "Int"
  | float => "Float"
  | bool => "Bool"
  | str => "Str"
  | void => "Void"
  | ref name => "Ref(" ++ Quoted.quote name ++ ")"
  | array element => "Array(" ++ element.describe ++ ")"

/-- The description of a method signature. -/
def MethodSig.describe (sig : MethodSig) : String :=
  describeParts "MethodSig"
    [("params", "[" ++ ", ".intercalate (sig.params.map TypeSig.describe) ++ "]"),
      ("ret", sig.result.describe)]

/-- The description of a field reference. -/
def FieldRef.describe (f : FieldRef) : String :=
  describeParts "FieldRef"
    [("owner", Quoted.quote f.owner), ("name", Quoted.quote f.name), ("sig", f.sig.describe)]

/-- The description of a method reference. -/
def MethodRef.describe (m : MethodRef) : String :=
  describeParts "MethodRef"
    [("owner", Quoted.quote m.owner), ("name", Quoted.quote m.name), ("sig", m.sig.describe)]

namespace Instr

/-- A name with operands between parentheses. -/
def describeOperand (name operand : String) : String := name ++ "(" ++ operand ++ ")"

/-- The description of an instruction. -/
def describe (instr : Instr) : String :=
  let name := instr.opcode.name
  match instr with
  | constBool b => describeOperand "ConstBool" (if b then "true" else "false")
  | constInt n => describeOperand name (String.ofList (FloatFormat.integer n.toInt))
  | constFloat bits => describeOperand name (describedFormat.write bits)
  | constStr s | new s | instanceOf s | checkCast s => describeOperand name (Quoted.quote s)
  | load i | store i => describeOperand name (toString i.toNat)
  | jump t | jumpIf _ t => describeOperand name (toString t.toNat)
  | newArray sig => describeOperand name sig.describe
  | invoke _ m => describeOperand name m.describe
  | access _ f => describeOperand name f.describe
  | entryCheck typeId slot =>
    describeParts name [("type_id", toString typeId.toNat), ("slot", toString slot.toNat)]
  | invokeCheck typeId | fieldCheck typeId =>
    describeParts name [("type_id", toString typeId.toNat)]
  | liveAccess _ typeId f =>
    describeParts name [("type_id", toString typeId.toNat), ("field", f.describe)]
  | liveSpecial typeId m | liveSuper typeId m | liveInit typeId m =>
    describeParts name [("type_id", toString typeId.toNat), ("method", m.describe)]
  | _ => name

end Instr

end LiveUpdate
