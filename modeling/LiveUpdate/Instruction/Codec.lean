import LiveUpdate.Codec.Decode
import LiveUpdate.Codec.Encode
import LiveUpdate.Instruction.Opcode

/-!
# Instructions in binary

An instruction is its opcode byte and its operands, in the order in which the
constructor names them.  Signatures are written as text.
-/

set_option autoImplicit false

namespace LiveUpdate

/-- A field reference: owner, name and signature. -/
def FieldRef.encode (f : FieldRef) : List UInt8 :=
  Encode.string f.owner ++ Encode.string f.name ++ Encode.string f.sig.text

/-- A field reference: owner, name and signature. -/
def FieldRef.decode : Decoder FieldRef := do
  let owner ← Decode.string
  let name ← Decode.string
  let sig ← Decode.parsed TypeSig.parse
  return { owner, name, sig }

/-- A method reference: owner, name and signature. -/
def MethodRef.encode (m : MethodRef) : List UInt8 :=
  Encode.string m.owner ++ Encode.string m.name ++ Encode.string m.sig.text

/-- A method reference: owner, name and signature. -/
def MethodRef.decode : Decoder MethodRef := do
  let owner ← Decode.string
  let name ← Decode.string
  let sig ← Decode.parsed MethodSig.parse
  return { owner, name, sig }

namespace Instr

/-- The operands of an instruction. -/
def encodeOperands : Instr → List UInt8
  | constInt n => Encode.i64 n
  | constFloat bits => Encode.word bits
  | constStr s | new s | instanceOf s | checkCast s => Encode.string s
  | load i | store i => Encode.u16 i
  | jump t | jumpIf _ t => Encode.u32 t
  | newArray sig => Encode.string sig.text
  | invoke _ m => m.encode
  | access _ f => f.encode
  | entryCheck typeId slot => Encode.u32 typeId ++ Encode.u32 slot
  | invokeCheck typeId | fieldCheck typeId => Encode.u32 typeId
  | liveAccess _ typeId f => Encode.u32 typeId ++ f.encode
  | liveSpecial typeId m | liveSuper typeId m | liveInit typeId m => Encode.u32 typeId ++ m.encode
  | _ => []

/-- An instruction: opcode and operands. -/
def encode (instr : Instr) : List UInt8 :=
  instr.opcode.byte :: instr.encodeOperands

/-- An instruction stream without its length. -/
def encodeAll (code : List Instr) : List UInt8 := code.flatMap encode

/-- Read the operands that belong to an opcode. -/
def decodeOperands : Opcode → Decoder Instr
  | .nop => return nop
  | .pop => return pop
  | .dup => return dup
  | .swap => return swap
  | .constNull => return constNull
  | .constBool b => return constBool b
  | .constInt => return constInt (← Decode.i64)
  | .constFloat => return constFloat (← Decode.word)
  | .constStr => return constStr (← Decode.string)
  | .load => return load (← Decode.u16)
  | .store => return store (← Decode.u16)
  | .arith op => return arith op
  | .neg => return neg
  | .concat => return concat
  | .compare op => return compare op
  | .not => return not
  | .jump => return jump (← Decode.u32)
  | .jumpIf cond => return jumpIf cond (← Decode.u32)
  | .ret => return ret
  | .retValue => return retValue
  | .new => return new (← Decode.string)
  | .newArray => return newArray (← Decode.parsed TypeSig.parse)
  | .arrayLoad => return arrayLoad
  | .arrayStore => return arrayStore
  | .arrayLength => return arrayLength
  | .instanceOf => return instanceOf (← Decode.string)
  | .checkCast => return checkCast (← Decode.string)
  | .invoke kind => return invoke kind (← MethodRef.decode)
  | .access a => return access a (← FieldRef.decode)
  | .entryCheck => do
    let typeId ← Decode.u32
    let slot ← Decode.u32
    return entryCheck typeId slot
  | .invokeCheck => return invokeCheck (← Decode.u32)
  | .fieldCheck => return fieldCheck (← Decode.u32)
  | .liveAccess a => do
    let typeId ← Decode.u32
    let field ← FieldRef.decode
    return liveAccess a typeId field
  | .liveSpecial => do
    let typeId ← Decode.u32
    let method ← MethodRef.decode
    return liveSpecial typeId method
  | .liveSuper => do
    let typeId ← Decode.u32
    let method ← MethodRef.decode
    return liveSuper typeId method
  | .liveInit => do
    let typeId ← Decode.u32
    let method ← MethodRef.decode
    return liveInit typeId method

/-- Read one instruction. -/
def decode : Decoder Instr := do
  let start ← Decode.offset
  let byte ← Decode.u8
  match Opcode.ofByte? byte with
  | some op => decodeOperands op
  | none => Decode.fail (.invalidOpcode byte start)

end Instr

end LiveUpdate
