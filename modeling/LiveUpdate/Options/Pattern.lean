/-!
# Name patterns

Patterns choose the types that may be managed.  A question mark stands for one
character, a star for any number of characters, brackets for one character in (or, after
an exclamation mark, not in) a list of characters and ranges.  Two stars are allowed only
between slashes or the ends of the pattern; they stand for whole parts of a path.
-/

set_option autoImplicit false

namespace LiveUpdate

/-- A character of a bracketed list, or a range of characters. -/
inductive CharRange
  | single (c : Char)
  | range (first last : Char)
deriving DecidableEq, Inhabited

/-- Whether a character is in a range. -/
def CharRange.holds (c : Char) : CharRange → Bool
  | single x => c = x
  | range first last => first ≤ c && c ≤ last

/-- A part of a pattern. -/
inductive PatternPart
  | literal (c : Char)
  | anyChar
  | within (ranges : List CharRange)
  | except (ranges : List CharRange)
  /-- A star. -/
  | anyText
  /-- Two stars. -/
  | anyPath
deriving DecidableEq, Inhabited

/-- Why a pattern cannot be used. -/
inductive PatternFault
  /-- More than two stars in a row. -/
  | wildcards
  /-- Two stars that are not a whole part of a path. -/
  | recursiveWildcards
  /-- A bracket that opens no list. -/
  | range
deriving DecidableEq, Inhabited

/-- The report of a pattern fault. -/
def PatternFault.message : PatternFault → String
  | wildcards => "wildcards are either regular `*` or recursive `**`"
  | recursiveWildcards => "recursive wildcards must form a single path component"
  | range => "invalid range pattern"

namespace Pattern

/-- The ranges between two brackets.  A minus between two characters makes a range. -/
def readRanges : List Char → List CharRange
  | first :: '-' :: last :: rest => .range first last :: readRanges rest
  | c :: rest => .single c :: readRanges rest
  | [] => []

/-- The text up to the first closing bracket, and the text behind it. -/
def splitBracket : List Char → Option (List Char × List Char)
  | [] => none
  | ']' :: rest => some ([], rest)
  | c :: rest => (splitBracket rest).map fun (front, back) => (c :: front, back)

/-- The list behind an opening bracket and the text behind the list.  A list has at least
one character, which may be a closing bracket; after an exclamation mark the list is one
of exceptions. -/
def readBracket : List Char → Option (PatternPart × List Char)
  | '!' :: c :: rest =>
    (splitBracket rest).map fun (front, back) => (.except (readRanges (c :: front)), back)
  | '!' :: [] => none
  | c :: rest =>
    (splitBracket rest).map fun (front, back) => (.within (readRanges (c :: front)), back)
  | [] => none

/-- Put one more part in front of the parts read so far (the latest first).  A second
path wildcard right behind another adds nothing, unless the first begins the pattern. -/
def addPath (parts : List PatternPart) : List PatternPart :=
  match parts with
  | .anyPath :: _ :: _ => parts
  | _ => .anyPath :: parts

/-- Read the parts of a pattern, the latest first; `previous` is the character before
the text, and `fuel` bounds the number of parts. -/
def readParts : Nat → Option Char → List Char → List PatternPart →
    Except PatternFault (List PatternPart)
  | 0, _, _, parts => .ok parts
  | _, _, [], parts => .ok parts
  | fuel + 1, previous, c :: rest, parts =>
    if c = '?' then readParts fuel (some c) rest (.anyChar :: parts)
    else if c = '*' then
      match rest with
      | '*' :: '*' :: _ => .error .wildcards
      | '*' :: rest =>
        if previous = none ∨ previous = some '/' then
          match rest with
          | [] => .ok (addPath parts)
          | '/' :: rest => readParts fuel (some '/') rest (addPath parts)
          | _ => .error .recursiveWildcards
        else .error .recursiveWildcards
      | _ => readParts fuel (some c) rest (.anyText :: parts)
    else if c = '[' then
      match readBracket rest with
      | some (part, rest) => readParts fuel (some ']') rest (part :: parts)
      | none => .error .range
    else readParts fuel (some c) rest (.literal c :: parts)

/-- The parts of a pattern. -/
def parse (s : String) : Except PatternFault (List PatternPart) :=
  (readParts (s.toList.length + 1) none s.toList []).map List.reverse

/-- Whether a part stands for one given character; a wildcard for texts does not. -/
def fitsChar (part : PatternPart) (c : Char) : Bool :=
  match part with
  | .literal x => c = x
  | .anyChar => true
  | .within ranges => ranges.any (CharRange.holds c)
  | .except ranges => !ranges.any (CharRange.holds c)
  | .anyText | .anyPath => false

/-- A text and every text that is left when characters are taken off its front. -/
def suffixes : List Char → List (List Char)
  | [] => [[]]
  | c :: rest => (c :: rest) :: suffixes rest

/-- What is left of a text behind each slash, and behind its end. -/
def behindSlashes : List Char → List (List Char)
  | [] => [[]]
  | c :: rest => if c = '/' then rest :: behindSlashes rest else behindSlashes rest

/-- Whether a pattern stands for a whole text. -/
def stands : List PatternPart → List Char → Bool
  | [], cs => cs.isEmpty
  | .anyText :: parts, cs => (suffixes cs).any (stands parts)
  | .anyPath :: parts, cs => (cs :: behindSlashes cs).any (stands parts)
  | _ :: _, [] => false
  | part :: parts, c :: cs => fitsChar part c && stands parts cs

/-! ## Answers for all suffixes at once

To ask `stands` for every suffix anew takes time that grows with the text to the power of
the number of stars.  The answers for all suffixes of a text, the longest first, follow
from those for the pattern without its first part in one pass over the text. -/

/-- Whether any of the answers for a text and its suffixes is yes, at each suffix. -/
def anyFrom : List Bool → List Bool
  | [] => []
  | now :: later =>
    let rest := anyFrom later
    (now || rest.headD false) :: rest

/-- Whether any of the answers behind a slash or the end is yes, at each suffix. -/
def anyBehind : List Char → List Bool → List Bool
  | c :: cs, _ :: later =>
    let rest := anyBehind cs later
    ((c == '/' && later.headD false) || rest.headD false) :: rest
  | _, answers => answers

/-- The answers for one character in front of those for the pattern behind it. -/
def withChar (part : PatternPart) : List Char → List Bool → List Bool
  | c :: cs, _ :: later => (fitsChar part c && later.headD false) :: withChar part cs later
  | _, _ => [false]

/-- Whether a pattern stands for a text and for each of its suffixes. -/
def answers : List PatternPart → List Char → List Bool
  | [], cs => (suffixes cs).map List.isEmpty
  | part :: parts, cs =>
    let rest := answers parts cs
    match part with
    | .anyText => anyFrom rest
    | .anyPath => List.zipWith or rest (anyBehind cs rest)
    | part => withChar part cs rest

/-- Whether a pattern stands for a whole text, found in one pass for each of its parts. -/
def fits (parts : List PatternPart) (cs : List Char) : Bool :=
  (answers parts cs).headD false

theorem head?_suffixes (cs : List Char) : (suffixes cs).head? = some cs := by
  cases cs <;> rfl

variable (f : List Char → Bool)

theorem anyFrom_map_suffixes (cs : List Char) :
    anyFrom ((suffixes cs).map f) = (suffixes cs).map fun s => (suffixes s).any f := by
  induction cs with
  | nil => simp [suffixes, anyFrom]
  | cons c cs ih => simp [suffixes, anyFrom, ih, head?_suffixes]

theorem anyBehind_map_suffixes (cs : List Char) :
    anyBehind cs ((suffixes cs).map f) = (suffixes cs).map fun s => (behindSlashes s).any f := by
  induction cs with
  | nil => simp [suffixes, anyBehind, behindSlashes]
  | cons c cs ih =>
    by_cases h : c = '/' <;>
      simp [suffixes, anyBehind, behindSlashes, ih, h, head?_suffixes]

theorem withChar_map_suffixes (part : PatternPart) (cs : List Char) :
    withChar part cs ((suffixes cs).map f) = (suffixes cs).map fun
      | [] => false
      | c :: rest => fitsChar part c && f rest := by
  induction cs with
  | nil => rfl
  | cons c cs ih => simp [suffixes, withChar, ih, head?_suffixes]

/-- The answers are those that the pattern gives for each suffix. -/
theorem answers_eq (parts : List PatternPart) (cs : List Char) :
    answers parts cs = (suffixes cs).map (stands parts) := by
  induction parts with
  | nil => rfl
  | cons part parts ih =>
    cases part with
    | anyText => simp only [answers, ih, anyFrom_map_suffixes, stands]
    | anyPath =>
      simp only [answers, ih, anyBehind_map_suffixes, stands, List.zipWith_map, List.any_cons]
      rw [List.zipWith_self]
    | _ =>
      simp only [answers, ih, withChar_map_suffixes]
      congr 1
      funext s
      cases s <;> rfl

/-- The fast answer is the answer. -/
theorem fits_eq_stands (parts : List PatternPart) (cs : List Char) :
    fits parts cs = stands parts cs := by
  simp [fits, answers_eq, head?_suffixes]

end Pattern

end LiveUpdate
