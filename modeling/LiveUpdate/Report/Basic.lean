import LiveUpdate.Modifiers
import LiveUpdate.Signature.Basic

/-!
# Reports

A report is inert data about what the engine holds: texts, numbers, flags, lists, and
named parts in a fixed order.  It carries no behaviour, so that a client can print it in
whatever format it likes.
-/

set_option autoImplicit false

namespace LiveUpdate

/-- Inert data. -/
inductive Report
  /-- The absence of something that may be there. -/
  | nothing
  | flag (value : Bool)
  | number (value : Nat)
  | text (value : String)
  | items (values : List Report)
  | parts (values : List (String × Report))
deriving Inhabited

/-- What has a report. -/
class Reportable (α : Type) where
  /-- The report of a value. -/
  report : α → Report

export Reportable (report)

namespace Report

instance : Reportable Report := ⟨id⟩
instance : Reportable Bool := ⟨.flag⟩
instance : Reportable Nat := ⟨.number⟩
instance : Reportable String := ⟨.text⟩
instance : Reportable UInt16 := ⟨fun n => .number n.toNat⟩
instance : Reportable UInt32 := ⟨fun n => .number n.toNat⟩

/-- A list is reported item by item. -/
instance {α : Type} [Reportable α] : Reportable (List α) := ⟨fun xs => .items (xs.map report)⟩

/-- What is not there is reported as nothing. -/
instance {α : Type} [Reportable α] : Reportable (Option α) :=
  ⟨fun x => (x.map report).getD .nothing⟩

/-- A pair is reported as a list of two items. -/
instance {α β : Type} [Reportable α] [Reportable β] : Reportable (α × β) :=
  ⟨fun x => .items [report x.1, report x.2]⟩

instance : Reportable Modifiers := ⟨fun m => report m.bits⟩
instance : Reportable TypeSig := ⟨fun sig => .text sig.text⟩
instance : Reportable MethodSig := ⟨fun sig => .text sig.text⟩
instance : Reportable MemberKey := ⟨fun key => .text key.text⟩

/-- The parts of a report; a report of another form has none. -/
def partsOf : Report → List (String × Report)
  | parts values => values
  | _ => []

/-- A report with further parts. -/
def withParts (r : Report) (more : List (String × Report)) : Report := .parts (r.partsOf ++ more)

end Report

end LiveUpdate
