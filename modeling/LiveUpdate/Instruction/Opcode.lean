import LiveUpdate.Instruction.Basic

/-!
# Opcodes

Every instruction is written as one opcode byte and its operands.  The bytes are grouped
by what the instructions do; those from `0xe0` on belong to the engine.
-/

set_option autoImplicit false

namespace LiveUpdate

/-- The opcodes. -/
inductive Opcode
  | nop
  | pop
  | dup
  | swap
  | constNull
  | constBool (b : Bool)
  | constInt
  | constFloat
  | constStr
  | load
  | store
  | arith (op : ArithOp)
  | neg
  | concat
  | compare (op : CompareOp)
  | not
  | jump
  | jumpIf (cond : Bool)
  | ret
  | retValue
  | new
  | newArray
  | arrayLoad
  | arrayStore
  | arrayLength
  | instanceOf
  | checkCast
  | invoke (kind : InvokeKind)
  | access (access : FieldAccess)
  | entryCheck
  | invokeCheck
  | fieldCheck
  | liveAccess (access : FieldAccess)
  | liveSpecial
  | liveSuper
  | liveInit
deriving DecidableEq, Inhabited

namespace Opcode

/-- The byte of an opcode. -/
def byte : Opcode → UInt8
  | nop => 0x00
  | pop => 0x01
  | dup => 0x02
  | swap => 0x03
  | constNull => 0x04
  | constBool true => 0x05
  | constBool false => 0x06
  | constInt => 0x07
  | constFloat => 0x08
  | constStr => 0x09
  | load => 0x10
  | store => 0x11
  | arith .add => 0x20
  | arith .sub => 0x21
  | arith .mul => 0x22
  | arith .div => 0x23
  | arith .rem => 0x24
  | neg => 0x25
  | concat => 0x26
  | compare .eq => 0x30
  | compare .ne => 0x31
  | compare .lt => 0x32
  | compare .le => 0x33
  | compare .gt => 0x34
  | compare .ge => 0x35
  | not => 0x36
  | jump => 0x40
  | jumpIf true => 0x41
  | jumpIf false => 0x42
  | ret => 0x43
  | retValue => 0x44
  | new => 0x50
  | newArray => 0x51
  | arrayLoad => 0x52
  | arrayStore => 0x53
  | arrayLength => 0x54
  | instanceOf => 0x55
  | checkCast => 0x56
  | invoke .virtual => 0x60
  | invoke .interface => 0x61
  | invoke .static => 0x62
  | invoke .special => 0x63
  | access .get => 0x70
  | access .put => 0x71
  | access .getStatic => 0x72
  | access .putStatic => 0x73
  | entryCheck => 0xe0
  | invokeCheck => 0xe1
  | fieldCheck => 0xe2
  | liveAccess .get => 0xe3
  | liveAccess .put => 0xe4
  | liveAccess .getStatic => 0xe5
  | liveAccess .putStatic => 0xe6
  | liveSpecial => 0xe7
  | liveSuper => 0xe8
  | liveInit => 0xe9

/-- All opcodes, in the order of their bytes. -/
def all : List Opcode := [
  nop, pop, dup, swap, constNull, constBool true, constBool false, constInt, constFloat, constStr,
  load, store,
  arith .add, arith .sub, arith .mul, arith .div, arith .rem, neg, concat,
  compare .eq, compare .ne, compare .lt, compare .le, compare .gt, compare .ge, not,
  jump, jumpIf true, jumpIf false, ret, retValue,
  new, newArray, arrayLoad, arrayStore, arrayLength, instanceOf, checkCast,
  invoke .virtual, invoke .interface, invoke .static, invoke .special,
  access .get, access .put, access .getStatic, access .putStatic,
  entryCheck, invokeCheck, fieldCheck, liveAccess .get, liveAccess .put, liveAccess .getStatic,
  liveAccess .putStatic, liveSpecial, liveSuper, liveInit]

/-- The opcode with a byte. -/
def ofByte? (b : UInt8) : Option Opcode := all.find? fun op => op.byte = b

/-- The name of an opcode in reports. -/
def name : Opcode → String
  | nop => "Nop"
  | pop => "Pop"
  | dup => "Dup"
  | swap => "Swap"
  | constNull => "ConstNull"
  | constBool true => "ConstTrue"
  | constBool false => "ConstFalse"
  | constInt => "ConstInt"
  | constFloat => "ConstFloat"
  | constStr => "ConstStr"
  | load => "Load"
  | store => "Store"
  | arith .add => "Add"
  | arith .sub => "Sub"
  | arith .mul => "Mul"
  | arith .div => "Div"
  | arith .rem => "Rem"
  | neg => "Neg"
  | concat => "Concat"
  | compare .eq => "Eq"
  | compare .ne => "Ne"
  | compare .lt => "Lt"
  | compare .le => "Le"
  | compare .gt => "Gt"
  | compare .ge => "Ge"
  | not => "Not"
  | jump => "Jump"
  | jumpIf true => "JumpIfTrue"
  | jumpIf false => "JumpIfFalse"
  | ret => "Return"
  | retValue => "ReturnValue"
  | new => "New"
  | newArray => "NewArray"
  | arrayLoad => "ArrayLoad"
  | arrayStore => "ArrayStore"
  | arrayLength => "ArrayLength"
  | instanceOf => "InstanceOf"
  | checkCast => "CheckCast"
  | invoke .virtual => "InvokeVirtual"
  | invoke .interface => "InvokeInterface"
  | invoke .static => "InvokeStatic"
  | invoke .special => "InvokeSpecial"
  | access .get => "GetField"
  | access .put => "PutField"
  | access .getStatic => "GetStatic"
  | access .putStatic => "PutStatic"
  | entryCheck => "MethodEntryCheck"
  | invokeCheck => "InvokeCheck"
  | fieldCheck => "FieldCheck"
  | liveAccess .get => "DynGetField"
  | liveAccess .put => "DynPutField"
  | liveAccess .getStatic => "DynGetStatic"
  | liveAccess .putStatic => "DynPutStatic"
  | liveSpecial => "DynInvokeSpecial"
  | liveSuper => "DynInvokeSuper"
  | liveInit => "DynInitSuper"

end Opcode

/-- The opcode of an instruction. -/
def Instr.opcode : Instr → Opcode
  | nop => .nop
  | pop => .pop
  | dup => .dup
  | swap => .swap
  | constNull => .constNull
  | constBool b => .constBool b
  | constInt _ => .constInt
  | constFloat _ => .constFloat
  | constStr _ => .constStr
  | load _ => .load
  | store _ => .store
  | arith op => .arith op
  | neg => .neg
  | concat => .concat
  | compare op => .compare op
  | not => .not
  | jump _ => .jump
  | jumpIf cond _ => .jumpIf cond
  | ret => .ret
  | retValue => .retValue
  | new _ => .new
  | newArray _ => .newArray
  | arrayLoad => .arrayLoad
  | arrayStore => .arrayStore
  | arrayLength => .arrayLength
  | instanceOf _ => .instanceOf
  | checkCast _ => .checkCast
  | invoke kind _ => .invoke kind
  | access a _ => .access a
  | entryCheck _ _ => .entryCheck
  | invokeCheck _ => .invokeCheck
  | fieldCheck _ => .fieldCheck
  | liveAccess a _ _ => .liveAccess a
  | liveSpecial _ _ => .liveSpecial
  | liveSuper _ _ => .liveSuper
  | liveInit _ _ => .liveInit

end LiveUpdate
