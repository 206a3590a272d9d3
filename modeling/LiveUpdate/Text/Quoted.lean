import LiveUpdate.Text.Hex
import LiveUpdate.Text.Unprintable

/-!
# Quoted text

Descriptions of instructions show their strings in double quotes.  The quote, the
backslash, tab, line feed, carriage return and the zero character are escaped with a
backslash; every other character that cannot be shown is written by its number.
-/

set_option autoImplicit false

namespace LiveUpdate.Quoted

/-- A character by its number in hexadecimal, between braces. -/
def byNumber (c : Char) : List Char :=
  ['\\', 'u', '\x7b'] ++ Nat.toDigits 16 c.toNat ++ ['\x7d']

/-- One character of a quoted text. -/
def escape (c : Char) : List Char :=
  match c with
  | '\x00' => ['\\', '0']
  | '\t' => ['\\', 't']
  | '\n' => ['\\', 'n']
  | '\r' => ['\\', 'r']
  | '"' => ['\\', '"']
  | '\\' => ['\\', '\\']
  | c =>
    if c.toNat < 0x20 then byNumber c
    else if c.toNat < 0x7f then [c]
    else if Unprintable.holds c then byNumber c
    else [c]

/-- A text in double quotes. -/
def quote (s : String) : String :=
  String.ofList ('"' :: s.toList.flatMap escape ++ ['"'])

end LiveUpdate.Quoted
