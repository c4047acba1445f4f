import Buildpath.Report.Diagnostic
import Buildpath.Text.Blank
import Buildpath.Text.Number

/-!
# Log filters

A filter is a list of directives, each with a level and the diagnostics it speaks about: those of a
target (every target that begins with the given text), and those with given details. The most
specific directive that speaks about a diagnostic decides; one that none speaks about is not shown.
`Filter.parse` reads directives separated by commas and passes over those it cannot understand.

Models the filters of the library `tracing-subscriber`.
-/

namespace Buildpath

/-- How much a filter lets through: nothing, or all up to a level. -/
abbrev Ceiling := Option Level

namespace Ceiling

def admits (level : Level) : Ceiling → Bool
  | none => false
  | some top => level.verbosity ≤ top.verbosity

def ofNumber? : Nat → Option Ceiling
  | 0 => some none
  | 1 => some (some .error)
  | 2 => some (some .warn)
  | 3 => some (some .info)
  | 4 => some (some .debug)
  | 5 => some (some .trace)
  | _ => none

/-- The ceiling of a name in any case, or of a number; no text at all stands for errors. -/
def ofText? (cs : List Char) : Option Ceiling :=
  match Text.nat? cs with
  | some n => ofNumber? n
  | none =>
    match String.ofList (cs.map Char.toLower) with
    | "" => some (some .error)
    | "off" => some none
    | "error" => some (some .error)
    | "warn" => some (some .warn)
    | "info" => some (some .info)
    | "debug" => some (some .debug)
    | "trace" => some (some .trace)
    | _ => none

end Ceiling

/-- A part of a filter. -/
structure Directive where
  ceiling : Ceiling
  target : Option (List Char)
  /-- Whether the directive only speaks about what happens inside certain spans. -/
  inSpan : Bool
  /-- The details that a diagnostic must have, and whether a certain value is asked for. -/
  details : List (List Char × Bool)
deriving DecidableEq, Repr

namespace Directive

def ofCeiling (c : Ceiling) : Directive :=
  ⟨c, none, false, []⟩

def ofTarget (target : String) (level : Level) : Directive :=
  ⟨some level, some target.toList, false, []⟩

/-- Whether the directive can speak about a diagnostic outside of all spans. -/
def isStatic (d : Directive) : Bool :=
  !d.inSpan && d.details.all (!·.2)

/-- Whether the directive speaks about diagnostics of the target with these details. -/
def concerns (target : String) (details : List String) (d : Directive) : Bool :=
  (match d.target with
    | none => true
    | some start => (Text.stripStart? start target.toList).isSome) &&
  d.details.all fun (name, _) => details.contains (String.ofList name)

/-- Whether both speak about the same diagnostics. -/
def sameScope (d e : Directive) : Bool :=
  d.target == e.target && d.details.map (·.1) == e.details.map (·.1)

/-- The length of the target's text, one more than that if there is any. -/
def targetRank (d : Directive) : Nat :=
  match d.target with
  | none => 0
  | some t => (String.ofList t).utf8ByteSize + 1

/-- Whether `d` is asked before `e`: the longer target goes first, then the larger number of
details, then the details that come later in alphabetical order. -/
def moreSpecific (d e : Directive) : Bool :=
  if d.targetRank ≠ e.targetRank then e.targetRank < d.targetRank
  else if d.details.length ≠ e.details.length then e.details.length < d.details.length
  else e.details.map (·.1) < d.details.map (·.1)

/-! ### Reading -/

/-- Where the reader of a directive stands. -/
inductive Place where
  | start
  | levelOrTarget (first : Nat)
  | span (first : Nat)
  | detail (first : Nat)
  | afterDetails
  | afterSpan
  | level (first : Nat)
deriving Repr

def canStart (c : Char) : Bool :=
  c == '-' || c == ':' || c == '_' || c.isAlphanum || c.toNat ≥ 0x80

/-- A detail that is asked for, with or without a value. -/
def detailOf? (cs : List Char) : Option (List Char × Bool) :=
  if cs = [] then none else some (cs.takeWhile (· != '='), cs.contains '=')

/-- The characters at the places from `a` up to, and without, `b`. -/
def slice (cs : List Char) (a b : Nat) : List Char :=
  (cs.drop a).take (b - a)

/-- One step of reading: the character `c` at place `i` of `text`. -/
def step? (text : List Char) (i : Nat) (c : Char) (state : Place × Directive) :
    Option (Place × Directive) :=
  let (place, d) := state
  match place with
  | .start =>
    if c = '[' then some (.span (i + 1), d)
    else if canStart c then some (.levelOrTarget i, d)
    else none
  | .levelOrTarget a =>
    if c = '=' then some (.level (i + 1), { d with target := some (slice text a i) })
    else if c = '[' then some (.span (i + 1), { d with target := some (slice text a i) })
    else some (place, d)
  | .span a =>
    if c = ']' then some (.afterSpan, { d with inSpan := true })
    else if c = '\x7b' then
      some (.detail (i + 1), { d with inSpan := d.inSpan || slice text a i != [] })
    else some (place, d)
  | .detail a =>
    if c = '\x7d' then do
      let detail ← detailOf? (slice text a i)
      some (.afterDetails, { d with details := d.details ++ [detail] })
    else if c = ',' then do
      let detail ← detailOf? (slice text a i)
      some (.detail (i + 1), { d with details := d.details ++ [detail] })
    else some (place, d)
  | .afterDetails => if c = ']' then some (.afterSpan, d) else none
  | .afterSpan => if c = '=' then some (.level (i + 1), d) else none
  | .level _ => some (place, d)

def run? (text : List Char) : Nat → List Char → Place × Directive → Option (Place × Directive)
  | _, [], state => some state
  | i, c :: rest, state => (step? text i c state).bind (run? text (i + 1) rest)

/-- The directive once its text has ended. -/
def finish? (text : List Char) : Place × Directive → Option Directive
  | (.levelOrTarget a, d) =>
    match text.drop a with
    | [] => some d
    | rest =>
      match Ceiling.ofText? rest with
      | some ceiling => some { d with ceiling }
      | none => some { d with target := some rest }
  | (.level a, d) =>
    match text.drop a with
    | [] => some d
    | rest => (Ceiling.ofText? rest).map fun ceiling => { d with ceiling }
  | (.afterSpan, d) => some d
  | _ => none

/-- The directive that a text spells. Blanks at its ends are not read, but count as places. -/
def parse? (text : List Char) : Option Directive := do
  finish? text (← run? text 0 (Text.trim text) (.start, ⟨some .trace, none, false, []⟩))

end Directive

/-- The directives in force, each scope once. -/
structure Filter where
  directives : List Directive
deriving Repr

namespace Filter

/-- Adds a directive; it takes the place of one with the same scope. -/
def add (f : Filter) (d : Directive) : Filter :=
  if d.isStatic then ⟨f.directives.filter (!d.sameScope ·) ++ [d]⟩ else f

/-- The filter of the directives; without any, errors are shown. -/
def ofDirectives (l : List Directive) : Filter :=
  if l.isEmpty then ⟨[.ofCeiling (some .error)]⟩ else l.foldl add ⟨[]⟩

def parse (text : List Char) : Filter :=
  ofDirectives (((Text.splitOn ',' text).filter (· != [])).filterMap Directive.parse?)

/-- The directive that decides about diagnostics of a target with these details. -/
def decisive? (f : Filter) (target : String) (details : List String) : Option Directive :=
  (f.directives.filter (·.concerns target details)).foldl
    (fun best d =>
      match best with
      | none => some d
      | some b => if d.moreSpecific b then some d else best)
    none

/-- Whether the filter shows diagnostics of this level, target and details. -/
def shows (f : Filter) (level : Level) (target : String) (details : List String) : Bool :=
  match f.decisive? target details with
  | some d => d.ceiling.admits level
  | none => false

def admits (f : Filter) (d : Diagnostic) : Bool :=
  f.shows d.level d.area.target ("message" :: d.details.map (·.1))

end Filter

end Buildpath
