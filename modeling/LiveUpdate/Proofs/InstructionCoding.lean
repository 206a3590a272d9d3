import LiveUpdate.Instruction.Codec
import LiveUpdate.Proofs.Coding
import LiveUpdate.Proofs.Signatures

/-!
# Instructions that are read back

The reader of instructions takes back every instruction whose strings are short enough for
their lengths to be written and whose signatures are well formed, and gives only such
instructions.  It finds the operands by the opcode, so there is one pair of a reader and a
writer for the operands of each opcode.
-/

set_option autoImplicit false

namespace LiveUpdate

open Codes

/-- A well-formed type signature with a short text. -/
def TypeSig.Encodable (sig : TypeSig) : Prop := sig.WellFormed ∧ ShortString sig.text

/-- A well-formed method signature with a short text. -/
def MethodSig.Encodable (sig : MethodSig) : Prop := sig.WellFormed ∧ ShortString sig.text

theorem TypeSig.codes :
    Codes (Decode.parsed parse) (fun sig => Encode.string sig.text) Any Encodable :=
  parsed (fun _ => parse_text) parse_eq_ok

theorem MethodSig.codes :
    Codes (Decode.parsed parse) (fun sig => Encode.string sig.text) Any Encodable :=
  parsed (fun _ => parse_text) parse_eq_ok

namespace FieldRef

/-- A field reference that can be written and read back. -/
structure Encodable (f : FieldRef) : Prop where
  owner : ShortString f.owner
  name : ShortString f.name
  sig : f.sig.Encodable

theorem codes : Codes decode encode Any Encodable := by
  have record : Codes decode _ Any _ :=
    part FieldRef.owner string fun owner =>
    part FieldRef.name string fun name =>
    part FieldRef.sig TypeSig.codes fun sig =>
    finish fun f => by cases f; simp [Any, and_assoc]
  refine record.congr (fun f => by simp [encode]) (fun _ => .rfl) fun f => ?_
  exact ⟨fun h => ⟨h.owner, h.name, h.sig, trivial⟩, fun ⟨owner, name, sig, _⟩ => ⟨owner, name, sig⟩⟩

end FieldRef

namespace MethodRef

/-- A method reference that can be written and read back. -/
structure Encodable (m : MethodRef) : Prop where
  owner : ShortString m.owner
  name : ShortString m.name
  sig : m.sig.Encodable

theorem codes : Codes decode encode Any Encodable := by
  have record : Codes decode _ Any _ :=
    part MethodRef.owner string fun owner =>
    part MethodRef.name string fun name =>
    part MethodRef.sig MethodSig.codes fun sig =>
    finish fun m => by cases m; simp [Any, and_assoc]
  refine record.congr (fun m => by simp [encode]) (fun _ => .rfl) fun m => ?_
  exact ⟨fun h => ⟨h.owner, h.name, h.sig, trivial⟩, fun ⟨owner, name, sig, _⟩ => ⟨owner, name, sig⟩⟩

end MethodRef

namespace Opcode

theorem mem_all (op : Opcode) : op ∈ all := by
  cases op with
  | constBool b => cases b <;> decide
  | arith op => cases op <;> decide
  | compare op => cases op <;> decide
  | jumpIf cond => cases cond <;> decide
  | invoke kind => cases kind <;> decide
  | access a => cases a <;> decide
  | liveAccess a => cases a <;> decide
  | _ => decide

/-- Two opcodes do not share a byte. -/
theorem byte_injOn_all : ∀ op ∈ all, ofByte? op.byte = some op := by decide

theorem ofByte?_byte (op : Opcode) : ofByte? op.byte = some op := byte_injOn_all op (mem_all op)

end Opcode

namespace Instr

/-- An instruction that can be written and read back: its strings are short and its
signatures are well formed.  Numbers and jump targets are free. -/
def Encodable : Instr → Prop
  | constStr s | new s | instanceOf s | checkCast s => ShortString s
  | newArray sig => sig.Encodable
  | invoke _ m | liveSpecial _ m | liveSuper _ m | liveInit _ m => m.Encodable
  | access _ f | liveAccess _ _ f => f.Encodable
  | _ => True

/-- The operands that belong to an opcode. -/
theorem codes_operands (op : Opcode) :
    Codes (decodeOperands op) encodeOperands (fun i => i.opcode = op) Encodable := by
  cases op
  case constInt =>
    exact i64.map constInt (fun i => by cases i <;> simp [opcode]) (fun _ => rfl) fun _ => .rfl
  case constFloat =>
    exact word.map constFloat (fun i => by cases i <;> simp [opcode]) (fun _ => rfl) fun _ => .rfl
  case constStr =>
    exact string.map constStr (fun i => by cases i <;> simp [opcode]) (fun _ => rfl) fun _ => .rfl
  case new =>
    exact string.map new (fun i => by cases i <;> simp [opcode]) (fun _ => rfl) fun _ => .rfl
  case instanceOf =>
    exact string.map instanceOf (fun i => by cases i <;> simp [opcode]) (fun _ => rfl) fun _ => .rfl
  case checkCast =>
    exact string.map checkCast (fun i => by cases i <;> simp [opcode]) (fun _ => rfl) fun _ => .rfl
  case load =>
    exact u16.map load (fun i => by cases i <;> simp [opcode]) (fun _ => rfl) fun _ => .rfl
  case store =>
    exact u16.map store (fun i => by cases i <;> simp [opcode]) (fun _ => rfl) fun _ => .rfl
  case jump =>
    exact u32.map jump (fun i => by cases i <;> simp [opcode]) (fun _ => rfl) fun _ => .rfl
  case jumpIf cond =>
    exact u32.map (jumpIf cond) (fun i => by cases i <;> simp [opcode, eq_comm]) (fun _ => rfl)
      fun _ => .rfl
  case newArray =>
    exact TypeSig.codes.map newArray (fun i => by cases i <;> simp [opcode]) (fun _ => rfl)
      fun _ => .rfl
  case invoke kind =>
    exact MethodRef.codes.map (invoke kind) (fun i => by cases i <;> simp [opcode, eq_comm])
      (fun _ => rfl) fun _ => .rfl
  case access a =>
    exact FieldRef.codes.map (access a) (fun i => by cases i <;> simp [opcode, eq_comm])
      (fun _ => rfl) fun _ => .rfl
  case entryCheck =>
    exact u32.map₂ entryCheck u32 (fun i => by cases i <;> simp [opcode, Any]) (fun _ _ => rfl)
      fun _ _ => (and_self_iff).symm
  case invokeCheck =>
    exact u32.map invokeCheck (fun i => by cases i <;> simp [opcode]) (fun _ => rfl) fun _ => .rfl
  case fieldCheck =>
    exact u32.map fieldCheck (fun i => by cases i <;> simp [opcode]) (fun _ => rfl) fun _ => .rfl
  case liveAccess a =>
    exact u32.map₂ (liveAccess a) FieldRef.codes
      (fun i => by cases i <;> simp [opcode, Any, eq_comm]) (fun _ _ => rfl)
      fun _ _ => (iff_of_eq (true_and _)).symm
  case liveSpecial =>
    exact u32.map₂ liveSpecial MethodRef.codes (fun i => by cases i <;> simp [opcode, Any])
      (fun _ _ => rfl) fun _ _ => (iff_of_eq (true_and _)).symm
  case liveSuper =>
    exact u32.map₂ liveSuper MethodRef.codes (fun i => by cases i <;> simp [opcode, Any])
      (fun _ _ => rfl) fun _ _ => (iff_of_eq (true_and _)).symm
  case liveInit =>
    exact u32.map₂ liveInit MethodRef.codes (fun i => by cases i <;> simp [opcode, Any])
      (fun _ _ => rfl) fun _ _ => (iff_of_eq (true_and _)).symm
  all_goals exact done (fun i => by cases i <;> simp [opcode]) rfl trivial

/-- Whole instructions. -/
theorem codes : Codes decode encode Any Encodable where
  takes i _ fits offset rest := by
    refine (decoder_bind_of_ok (show Decode.offset _ = .ok offset _ from rfl)).trans ?_
    refine (decoder_bind_of_ok (u8.takes i.opcode.byte trivial trivial offset _)).trans ?_
    simp only [Opcode.ofByte?_byte]
    refine ((codes_operands i.opcode).takes i rfl fits _ rest).trans ?_
    rw [encode, List.length_cons, Nat.add_right_comm, Nat.add_assoc]
    rfl
  gives := by
    intro c c' i read
    obtain ⟨start, c₁, read₁, read⟩ := decoder_bind_eq_ok.1 read
    cases read₁
    obtain ⟨byte, c₂, read₂, read⟩ := decoder_bind_eq_ok.1 read
    obtain ⟨-, -, taken⟩ := u8.gives read₂
    cases found : Opcode.ofByte? byte with
    | none =>
      simp only [found] at read
      cases read
    | some op =>
      simp only [found] at read
      obtain ⟨-, fits, taken'⟩ := (codes_operands op).gives read
      have one : (Encode.u8 byte).length = 1 := rfl
      refine ⟨trivial, fits, ?_⟩
      rw [encode, List.length_cons]
      omega

/-- Bodies that are written alike are the same body. -/
theorem eq_of_encodeAll_eq {code code' : List Instr} (fits : ∀ i ∈ code, i.Encodable)
    (fits' : ∀ i ∈ code', i.Encodable) (same : encodeAll code = encodeAll code') : code = code' :=
  codes.eq_of_flatMap_eq (fun i => List.cons_ne_nil i.opcode.byte _) fits fits' same

end Instr

end LiveUpdate
