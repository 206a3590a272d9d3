/-!
# Blank characters

A character is blank when Unicode gives it the property White_Space.  Texts of
signatures are read with blanks removed at both ends, so the set is fixed here, once:
the five controls from tab to carriage return, the space, next line, the no-break
space, and the thirteen wider spaces and separators of the general punctuation and
ideographic blocks.
-/

set_option autoImplicit false

namespace LiveUpdate

/-- The characters with the Unicode property White_Space. -/
def isBlank (c : Char) : Bool :=
  let n := c.toNat
  (9 ≤ n && n ≤ 13) || n == 0x20 || n == 0x85 || n == 0xa0 || n == 0x1680 ||
    (0x2000 ≤ n && n ≤ 0x200a) || n == 0x2028 || n == 0x2029 || n == 0x202f ||
    n == 0x205f || n == 0x3000

/-- The text without the blanks it starts with. -/
def dropBlanks (cs : List Char) : List Char :=
  cs.dropWhile isBlank

/-- The text without the blanks at its two ends. -/
def trimBlanks (cs : List Char) : List Char :=
  (dropBlanks (dropBlanks cs).reverse).reverse

end LiveUpdate
