import LiveUpdate.Text.Hex

/-!
# Reading configuration text

Configuration is a TOML document.  This module reads documents made of strings, integers,
truth values, arrays and tables; a document with a float or a date is refused like one
that is malformed, since no option takes such a value, and so is an array of tables.
-/

set_option autoImplicit false

namespace LiveUpdate

/-- How a table came to be, which decides who may still add to it. -/
inductive TableOrigin
  /-- Between braces: complete. -/
  | braces
  /-- By a key with points: open to other such keys. -/
  | dottedKey
  /-- Above a table with a header: open to a header of its own. -/
  | implied
  /-- By its own header. -/
  | header
deriving DecidableEq, Inhabited

/-- A value of a document. -/
inductive Toml
  | string (s : String)
  | integer (n : Int)
  | boolean (b : Bool)
  | array (items : List Toml)
  | table (origin : TableOrigin) (entries : List (String × Toml))
deriving Inhabited

namespace Toml

/-- Readers take a value off the front of a text. -/
abbrev Reader (α : Type) := List Char → Option (α × List Char)

/-- Whether a character may stand in a comment or a one-line text: no control character
but the tab. -/
def isPlain (c : Char) : Bool :=
  c = '\t' || (0x20 ≤ c.toNat && c.toNat ≠ 0x7f)

/-- The text without the spaces and tabs in front. -/
def skipSpace (cs : List Char) : List Char :=
  cs.dropWhile fun c => c == ' ' || c == '\t'

/-- The text behind a comment, if it starts with one. -/
def skipComment (cs : List Char) : List Char :=
  match cs with
  | '#' :: rest => rest.dropWhile isPlain
  | _ => cs

/-- The text behind a line end. -/
def lineEnd? : List Char → Option (List Char)
  | '\n' :: rest => some rest
  | '\r' :: '\n' :: rest => some rest
  | _ => none

/-- Skip spaces, comments and line ends. -/
def skipLines : Nat → List Char → List Char
  | 0, cs => cs
  | fuel + 1, cs =>
    let cs := skipComment (skipSpace cs)
    match lineEnd? cs with
    | some rest => skipLines fuel rest
    | none => cs

/-- A character by a given number of hexadecimal digits. -/
def charByNumber : Nat → Nat → Reader Char
  | 0, n, cs =>
    if n < 0xd800 ∨ (0xe000 ≤ n ∧ n < 0x110000) then some (Char.ofNat n, cs) else none
  | _ + 1, _, [] => none
  | count + 1, n, c :: cs =>
    match hexValue? c with
    | some d => charByNumber count (16 * n + d) cs
    | none => none

/-- A character behind a backslash. -/
def escaped : Reader Char
  | 'b' :: cs => some ('\x08', cs)
  | 't' :: cs => some ('\t', cs)
  | 'n' :: cs => some ('\n', cs)
  | 'f' :: cs => some ('\x0c', cs)
  | 'r' :: cs => some ('\r', cs)
  | '"' :: cs => some ('"', cs)
  | '\\' :: cs => some ('\\', cs)
  | 'u' :: cs => charByNumber 4 0 cs
  | 'U' :: cs => charByNumber 8 0 cs
  | _ => none

/-- The rest of a one-line text, up to its closing quote; in double quotes a backslash
escapes.  Characters are collected in reverse. -/
def lineText (quote : Char) : Nat → List Char → Reader String
  | 0, _, _ => none
  | _, _, [] => none
  | fuel + 1, acc, c :: cs =>
    if c = quote then some (String.ofList acc.reverse, cs)
    else if c = '\\' ∧ quote = '"' then
      match escaped cs with
      | some (x, rest) => lineText quote fuel (x :: acc) rest
      | none => none
    else if isPlain c then lineText quote fuel (c :: acc) cs
    else none

/-- The text without the spaces, tabs and line ends in front. -/
def skipBreaks : List Char → List Char
  | ' ' :: cs | '\t' :: cs | '\n' :: cs | '\r' :: '\n' :: cs => skipBreaks cs
  | cs => cs

/-- Behind a backslash at the end of a line: blanks and line ends are skipped. -/
def continued (cs : List Char) : Option (List Char) :=
  (lineEnd? (skipSpace cs)).map skipBreaks

/-- The rest of a text of several lines, up to its three closing quotes.  One or two
quotes right before them belong to the text, and every line end is one line feed. -/
def linesText (quote : Char) : Nat → List Char → Reader String
  | 0, _, _ => none
  | _, _, [] => none
  | fuel + 1, acc, c :: cs =>
    if c = quote then
      match cs with
      | q1 :: q2 :: rest =>
        if q1 = quote ∧ q2 = quote then
          match rest with
          | q3 :: q4 :: rest' =>
            if q3 = quote ∧ q4 = quote then
              some (String.ofList (quote :: quote :: acc).reverse, rest')
            else if q3 = quote then some (String.ofList (quote :: acc).reverse, q4 :: rest')
            else some (String.ofList acc.reverse, rest)
          | [q3] =>
            if q3 = quote then some (String.ofList (quote :: acc).reverse, [])
            else some (String.ofList acc.reverse, rest)
          | [] => some (String.ofList acc.reverse, [])
        else linesText quote fuel (c :: acc) cs
      | _ => none
    else if c = '\\' ∧ quote = '"' then
      match continued cs with
      | some rest => linesText quote fuel acc rest
      | none =>
        match escaped cs with
        | some (x, rest) => linesText quote fuel (x :: acc) rest
        | none => none
    else match lineEnd? (c :: cs) with
      | some rest => linesText quote fuel ('\n' :: acc) rest
      | none => if isPlain c then linesText quote fuel (c :: acc) cs else none

/-- A quoted text of any of the four kinds. -/
def quotedText : Reader String
  | '"' :: '"' :: '"' :: cs => linesText '"' (cs.length + 1) [] ((lineEnd? cs).getD cs)
  | '\'' :: '\'' :: '\'' :: cs => linesText '\'' (cs.length + 1) [] ((lineEnd? cs).getD cs)
  | '"' :: cs => lineText '"' (cs.length + 1) [] cs
  | '\'' :: cs => lineText '\'' (cs.length + 1) [] cs
  | _ => none

/-- Whether a character may stand in a key without quotes. -/
def isBare (c : Char) : Bool :=
  c.isAlphanum || c = '_' || c = '-'

/-- One part of a key: bare, or a one-line text. -/
def keyPart : Reader String
  | '"' :: cs => lineText '"' (cs.length + 1) [] cs
  | '\'' :: cs => lineText '\'' (cs.length + 1) [] cs
  | cs =>
    let bare := cs.takeWhile isBare
    if bare.isEmpty then none else some (String.ofList bare, cs.dropWhile isBare)

/-- A key: parts with points between them, and blanks around each. -/
def key : Nat → Reader (List String)
  | 0, _ => none
  | fuel + 1, cs => do
    let (part, cs) ← keyPart (skipSpace cs)
    match skipSpace cs with
    | '.' :: rest => do
      let (parts, rest) ← key fuel rest
      some (part :: parts, rest)
    | rest => some ([part], rest)

/-- The digits of a number with single underscores between them, and the text behind. -/
def digitRun (isDigit : Char → Bool) : Nat → Reader (List Char)
  | 0, _ => none
  | _, [] => none
  | fuel + 1, c :: cs =>
    if isDigit c then
      match cs with
      | '_' :: rest => (digitRun isDigit fuel rest).map fun (ds, rest) => (c :: ds, rest)
      | d :: rest =>
        if isDigit d then
          (digitRun isDigit fuel (d :: rest)).map fun (ds, rest) => (c :: ds, rest)
        else some ([c], cs)
      | [] => some ([c], [])
    else none

/-- The value of digits in a base. -/
def digitsValue (base : Nat) (ds : List Char) : Nat :=
  ds.foldl (fun n d => base * n + (hexValue? d).getD 0) 0

/-- An integer that a signed 64-bit word can hold. -/
def bounded (n : Int) : Option Int :=
  if Int64.minValue.toInt ≤ n ∧ n ≤ Int64.maxValue.toInt then some n else none

/-- A number in a base other than ten, behind its mark. -/
def markedInteger (base : Nat) (isDigit : Char → Bool) : Reader Toml := fun cs => do
  let (ds, rest) ← digitRun isDigit (cs.length + 1) cs
  let n ← bounded (digitsValue base ds)
  some (integer n, rest)

/-- A decimal number behind its sign; only zero itself starts with a zero. -/
def decimalInteger (negative : Bool) : Reader Toml := fun cs => do
  let (ds, rest) ← digitRun Char.isDigit (cs.length + 1) cs
  match ds with
  | '0' :: _ :: _ => none
  | _ =>
    let n : Int := digitsValue 10 ds
    let n ← bounded (if negative then -n else n)
    some (integer n, rest)

/-- An integer. -/
def integerText : Reader Toml
  | '0' :: 'x' :: cs => markedInteger 16 (fun c => (hexValue? c).isSome) cs
  | '0' :: 'o' :: cs => markedInteger 8 (fun c => '0' ≤ c && c ≤ '7') cs
  | '0' :: 'b' :: cs => markedInteger 2 (fun c => c == '0' || c == '1') cs
  | '+' :: cs => decimalInteger false cs
  | '-' :: cs => decimalInteger true cs
  | cs => decimalInteger false cs

/-- Add a value to a table under a key with points.  The tables in between are made as
needed.  The value itself can be added only to a table made by another key with points;
on the way there may also be tables implied by headers. -/
def insertAt (value : Toml) : List String → List (String × Toml) → Option (List (String × Toml))
  | [], _ => none
  | [name], entries =>
    if entries.any fun e => e.1 = name then none else some (entries ++ [(name, value)])
  | name :: path, entries =>
    match entries.find? fun e => e.1 = name with
    | none => do
      let inner ← insertAt value path []
      some (entries ++ [(name, table .dottedKey inner)])
    | some (_, table origin inner) =>
      if origin = .dottedKey ∨ (origin = .implied ∧ 2 ≤ path.length) then do
        let inner ← insertAt value path inner
        some (entries.map fun e => if e.1 = name then (name, table origin inner) else e)
      else none
    | some _ => none

/-- Add a value below the table that a header opened. -/
def insertBelow (value : Toml) (keyPath : List String) :
    List String → List (String × Toml) → Option (List (String × Toml))
  | [], entries => insertAt value keyPath entries
  | name :: path, entries =>
    match entries.find? fun e => e.1 = name with
    | some (_, table origin inner) => do
      let inner ← insertBelow value keyPath path inner
      some (entries.map fun e => if e.1 = name then (name, table origin inner) else e)
    | _ => none

/-- Open the table of a header.  Tables above it are made as needed, and may be any but
one between braces; the table itself must be new, or implied by the header of a table
below it. -/
def openTable : List String → List (String × Toml) → Option (List (String × Toml))
  | [], _ => none
  | [name], entries =>
    match entries.find? fun e => e.1 = name with
    | none => some (entries ++ [(name, table .header [])])
    | some (_, table .implied inner) =>
      some (entries.map fun e => if e.1 = name then (name, table .header inner) else e)
    | some _ => none
  | name :: path, entries =>
    match entries.find? fun e => e.1 = name with
    | none => do
      let inner ← openTable path []
      some (entries ++ [(name, table .implied inner)])
    | some (_, table origin inner) =>
      if origin ≠ .braces then do
        let inner ← openTable path inner
        some (entries.map fun e => if e.1 = name then (name, table origin inner) else e)
      else none
    | some _ => none

mutual

/-- A value. -/
def value : Nat → Reader Toml
  | 0, _ => none
  | fuel + 1, cs =>
    match cs with
    | '"' :: _ | '\'' :: _ => (quotedText cs).map fun (s, rest) => (string s, rest)
    | 't' :: 'r' :: 'u' :: 'e' :: rest => some (boolean true, rest)
    | 'f' :: 'a' :: 'l' :: 's' :: 'e' :: rest => some (boolean false, rest)
    | '[' :: rest => (items fuel rest).map fun (xs, rest) => (array xs, rest)
    | '\x7b' :: rest =>
      match skipSpace rest with
      | '\x7d' :: rest => some (table .braces [], rest)
      | _ => (pairs fuel [] rest).map fun (es, rest) => (table .braces es, rest)
    | _ => integerText cs

/-- The values of an array up to its closing bracket; the last may be followed by a
comma. -/
def items : Nat → Reader (List Toml)
  | 0, _ => none
  | fuel + 1, cs =>
    match skipLines (cs.length + 1) cs with
    | ']' :: rest => some ([], rest)
    | cs => do
      let (x, cs) ← value fuel cs
      match skipLines (cs.length + 1) cs with
      | ',' :: rest => do
        let (xs, rest) ← items fuel rest
        some (x :: xs, rest)
      | ']' :: rest => some ([x], rest)
      | _ => none

/-- The entries of a table between braces. -/
def pairs : Nat → List (String × Toml) → Reader (List (String × Toml))
  | 0, _, _ => none
  | fuel + 1, entries, cs => do
    let (path, cs) ← key (cs.length + 1) cs
    match cs with
    | '=' :: cs => do
      let (x, cs) ← value fuel (skipSpace cs)
      let entries ← insertAt x path entries
      match skipSpace cs with
      | ',' :: rest => pairs fuel entries rest
      | '\x7d' :: rest => some (entries, rest)
      | _ => none
    | _ => none

end

/-- The lines of a document: entries of the table that the last header opened. -/
def lines : Nat → List String → List (String × Toml) → List Char → Option (List (String × Toml))
  | 0, _, _, _ => none
  | fuel + 1, above, entries, cs =>
    match skipLines (cs.length + 1) cs with
    | [] => some entries
    | '[' :: cs => do
      let (path, cs) ← key (cs.length + 1) cs
      match cs with
      | ']' :: cs => do
        let entries ← openTable path entries
        lineOf fuel path entries cs
      | _ => none
    | cs => do
      let (path, cs) ← key (cs.length + 1) cs
      match cs with
      | '=' :: cs => do
        let (x, cs) ← value (cs.length + 1) (skipSpace cs)
        let entries ← insertBelow x path above entries
        lineOf fuel above entries cs
      | _ => none
where
  /-- Nothing but a comment may stand behind an entry or a header on its line. -/
  lineOf (fuel : Nat) (above : List String) (entries : List (String × Toml))
      (cs : List Char) : Option (List (String × Toml)) :=
    match skipComment (skipSpace cs) with
    | [] => some entries
    | cs =>
      match lineEnd? cs with
      | some rest => lines fuel above entries rest
      | none => none

/-- The entries of a document.  A byte order mark in front is ignored. -/
def parse (s : String) : Option (List (String × Toml)) :=
  let cs := match s.toList with
    | '\ufeff' :: rest => rest
    | cs => cs
  lines (cs.length + 1) [] [] cs

end Toml

end LiveUpdate
