import LiveUpdate.Options.Pattern
import LiveUpdate.Options.Toml

/-!
# Engine options

The options say which types may be managed, which type names belong to the system,
whether reloads are checked for safety, what happens to stored field values that no
longer fit, and how deep calls may nest.
-/

set_option autoImplicit false

namespace LiveUpdate

/-- What to do with a stored value that no longer fits the declared type of its field. -/
inductive FieldPolicy
  /-- Drop the value and read the default. -/
  | discard
  /-- Fail the read. -/
  | refuse
deriving DecidableEq, Inhabited

/-- Why options cannot be used. -/
inductive OptionsError
  /-- The text is not a document of options. -/
  | parse
  | pattern (pattern : String) (fault : PatternFault)
  /-- The limit on nested calls is zero. -/
  | depthLimit
deriving DecidableEq, Inhabited

/-- The report of an options error; of text that cannot be read only the fact. -/
def OptionsError.message : OptionsError → String
  | parse => "Failed to parse config"
  | pattern p fault => s!"Invalid name pattern '{p}': {fault.message}"
  | depthLimit => "Invalid config: max-call-depth must be positive"

/-- Whether a text begins with another. -/
def startsWith (s start : String) : Bool := start.toList.isPrefixOf s.toList

/-- The patterns of the options, ready for use. -/
structure TypeFilter where
  included : List (List PatternPart)
  excluded : List (List PatternPart)
  systemPrefixes : List String
deriving Inhabited

/-- Whether a type may be managed: not a system type, included if anything is listed to
be included, and not excluded. -/
def TypeFilter.isEligible (filter : TypeFilter) (name : String) : Bool :=
  let cs := name.toList
  !filter.systemPrefixes.any (startsWith name) &&
    (filter.included.isEmpty || filter.included.any fun p => Pattern.fits p cs) &&
    !filter.excluded.any fun p => Pattern.fits p cs

/-- The options of a scope. -/
structure Options where
  /-- Patterns of the types that may be managed; none means all. -/
  included : List String := []
  /-- Patterns of types that are never managed. -/
  excluded : List String := []
  /-- Refuse reloads whose changes the host cannot honour. -/
  verifyReloads : Bool := true
  fieldPolicy : FieldPolicy := .discard
  /-- Guard call sites of system types too. -/
  guardSystemTypes : Bool := false
  /-- How the names of system types begin. -/
  systemPrefixes : List String := ["core."]
  /-- How deep calls may nest. -/
  maxCallDepth : Nat := 512
deriving DecidableEq, Inhabited

namespace Options

/-- Read patterns, or report the first that cannot be used. -/
def readPatterns (patterns : List String) : Except OptionsError (List (List PatternPart)) :=
  patterns.mapM fun p =>
    match Pattern.parse p with
    | .ok parts => .ok parts
    | .error fault => .error (.pattern p fault)

/-- The patterns of the options, ready for use. -/
def typeFilter (options : Options) : Except OptionsError TypeFilter := do
  let included ← readPatterns options.included
  let excluded ← readPatterns options.excluded
  return ⟨included, excluded, options.systemPrefixes⟩

/-- The filter of usable options: the patterns can be read and calls may nest. -/
def validate (options : Options) : Except OptionsError TypeFilter := do
  let filter ← options.typeFilter
  if options.maxCallDepth = 0 then throw .depthLimit
  return filter

/-- Whether accesses of a type are left without guards. -/
def isSystemType (options : Options) (owner : String) : Bool :=
  !options.guardSystemTypes && options.systemPrefixes.any (startsWith owner)

/-- A list of strings. -/
def strings? : Toml → Option (List String)
  | .array items => items.mapM fun
    | .string s => some s
    | _ => none
  | _ => none

/-- A policy by its name. -/
def policyNamed? : String → Option FieldPolicy
  | "discard-and-default" => some .discard
  | "error" => some .refuse
  | _ => none

/-- A policy by its name, or as a table with the name as its only key and nothing below
it. -/
def policy? : Toml → Option FieldPolicy
  | .string s => policyNamed? s
  | .table _ [(name, .table _ [])] | .table _ [(name, .array [])] => policyNamed? name
  | _ => none

/-- Take one entry of a document into the options. -/
def setEntry (options : Options) : String × Toml → Option Options
  | ("include", v) => (strings? v).map fun xs => { options with included := xs }
  | ("exclude", v) => (strings? v).map fun xs => { options with excluded := xs }
  | ("verify-reloads", .boolean b) => some { options with verifyReloads := b }
  | ("field-incompatibility", v) => (policy? v).map fun p => { options with fieldPolicy := p }
  | ("rewrite-system-types", .boolean b) => some { options with guardSystemTypes := b }
  | ("system-prefixes", v) => (strings? v).map fun xs => { options with systemPrefixes := xs }
  | ("max-call-depth", .integer n) =>
    if 0 ≤ n then some { options with maxCallDepth := n.toNat } else none
  | _ => none

/-- The options in a document: the defaults, changed by its entries, and usable. -/
def parse (text : String) : Except OptionsError Options :=
  match (Toml.parse text).bind fun entries => entries.foldlM setEntry {} with
  | none => .error .parse
  | some options => do
    let _ ← options.validate
    return options

end Options

end LiveUpdate
