import LiveUpdate.Instruction.Basic

/-!
# Relocating code

Code is expanded when each instruction is replaced by a list of instructions and
something is put in front of the whole.  A jump to an instruction becomes a jump to the
first instruction that stands in its place; a jump out of the code becomes a jump to its
end.
-/

set_option autoImplicit false

namespace LiveUpdate

/-- The place of every expansion, the first of them at `start`. -/
def expansionPlaces (start : Nat) : List (List Instr) → List Nat
  | [] => []
  | expansion :: rest => start :: expansionPlaces (start + expansion.length) rest

/-- The instruction with its jump target looked up in a list of new places. -/
def relocateJump (places : List Nat) (finish : Nat) (instr : Instr) : Instr :=
  match instr.jumpTarget? with
  | some target => instr.retarget (UInt32.ofNat (places.getD target.toNat finish))
  | none => instr

/-- The prologue, followed by the expansions of all instructions, with their jumps adapted. -/
def layOut (prologue : List Instr) (expansions : List (List Instr)) : List Instr :=
  let places := expansionPlaces prologue.length expansions
  let body := expansions.flatten
  prologue ++ body.map (relocateJump places (prologue.length + body.length))

/-- Code behind a prologue, with every instruction expanded. -/
def relocate (prologue : List Instr) (expand : Instr → List Instr) (code : List Instr) :
    List Instr :=
  layOut prologue (code.map expand)

end LiveUpdate
