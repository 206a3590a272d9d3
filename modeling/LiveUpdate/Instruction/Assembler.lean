import LiveUpdate.Instruction.Basic

/-!
# Assembling code with labels

Code is assembled instruction by instruction.  A jump may name a label before the label
is marked; when the code is finished, every such jump gets the place of its label.  A
label that was marked twice, or one that is used and never marked, is reported instead.
-/

set_option autoImplicit false

namespace LiveUpdate

/-- Why assembled code cannot be finished. -/
inductive AssemblyError
  | unmarkedLabel (label : Nat)
  | duplicateLabel (label : Nat)
deriving DecidableEq, Inhabited

/-- The report of an assembly error. -/
def AssemblyError.message : AssemblyError → String
  | unmarkedLabel label => s!"Label {label} is used but never marked"
  | duplicateLabel label => s!"Label {label} marked more than once"

/-- Code under assembly. -/
structure Assembler where
  code : List Instr := []
  /-- The number of labels defined. -/
  labels : Nat := 0
  /-- Marked labels with their places, the latest mark first. -/
  marks : List (Nat × UInt32) := []
  /-- Places of jumps that name a label, in the order of the code. -/
  jumps : List (Nat × Nat) := []
  /-- The first label that was marked a second time. -/
  duplicate : Option Nat := none
deriving Inhabited

namespace Assembler

/-- The place of the next instruction. -/
def index (a : Assembler) : UInt32 := UInt32.ofNat a.code.length

/-- Add an instruction. -/
def emit (a : Assembler) (instr : Instr) : Assembler := { a with code := a.code ++ [instr] }

/-- Define a new label. -/
def defineLabel (a : Assembler) : Nat × Assembler := (a.labels, { a with labels := a.labels + 1 })

/-- The place of a marked label. -/
def placeOf? (a : Assembler) (label : Nat) : Option UInt32 := a.marks.lookup label

/-- Mark the next instruction with a label.  A second mark replaces the first. -/
def mark (a : Assembler) (label : Nat) : Assembler :=
  { a with
    marks := (label, a.index) :: a.marks
    duplicate := a.duplicate <|> if (a.placeOf? label).isSome then some label else none }

/-- Add a jump to a label; its target is filled in at the end. -/
def emitJump (a : Assembler) (instr : Instr) (label : Nat) : Assembler :=
  { a.emit instr with jumps := a.jumps ++ [(a.code.length, label)] }

/-- Call the constructor without parameters of the supertype on the receiver. -/
def initSuper (a : Assembler) (superName : String) : Assembler :=
  (a.emit (.load 0)).emit (.invoke .special ⟨superName, constructorName, .void⟩)

/-- Give jumps the places of their labels, in order. -/
def resolve (a : Assembler) : List (Nat × Nat) → List Instr → Except AssemblyError (List Instr)
  | [], code => .ok code
  | (place, label) :: rest, code =>
    match a.placeOf? label with
    | some target => a.resolve rest (code.modify place (·.retarget target))
    | none => .error (.unmarkedLabel label)

/-- The finished code. -/
def finish (a : Assembler) : Except AssemblyError (List Instr) :=
  match a.duplicate with
  | some label => .error (.duplicateLabel label)
  | none => a.resolve a.jumps a.code

end Assembler

end LiveUpdate
