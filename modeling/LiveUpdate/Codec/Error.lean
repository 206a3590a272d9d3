import LiveUpdate.Text.Hex

/-!
# Reading errors

What can be wrong with bytes or signature text, and how it is reported.
-/

set_option autoImplicit false

namespace LiveUpdate

/-- Why bytes or a signature could not be read. -/
inductive DecodeError
  /-- The input ended before the value was complete; the offset is where the value began. -/
  | unexpectedEnd (offset : Nat)
  /-- A string was not UTF-8; the offset is that of its length. -/
  | invalidUtf8 (offset : Nat)
  /-- No instruction has this opcode. -/
  | invalidOpcode (byte : UInt8) (offset : Nat)
  /-- A type or method signature could not be read. -/
  | invalidSignature (text : String)
deriving DecidableEq, Inhabited

/-- The report of a reading error. -/
def DecodeError.message : DecodeError → String
  | .unexpectedEnd offset => s!"Unexpected end of input at offset {offset}"
  | .invalidUtf8 offset => s!"Invalid UTF-8 string at offset {offset}"
  | .invalidOpcode byte offset =>
    s!"Invalid opcode 0x{hexNumber byte.toNat} at offset {offset}"
  | .invalidSignature text => s!"Invalid signature '{text}'"

end LiveUpdate
