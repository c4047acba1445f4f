import Buildpath.Json.Record
import Buildpath.Text.Blank
import Buildpath.Text.Number

/-!
# Problems reported by a build

A build reports a problem on a line of its own, `ERROR: file:line:column: message`. A line whose
location is not of that form still is a problem, of the whole location and without a line number.
`Problem.ofOutput` picks the problems out of a build's output.

Models the problem markers of the components `model` and `build_tool/bazel`.
-/

namespace Buildpath

/-- A problem that a build found. -/
structure Problem where
  resource : String
  line : Option Nat
  description : String
deriving DecidableEq, Repr

namespace Problem

def numberBound : Nat := Nat.pow 2 32

/-! ### JSON -/

def fieldNames : List (List String) :=
  [["resource"], ["line"], ["description"]]

def toJson (p : Problem) : Json :=
  .object [("resource", .string p.resource),
    ("line", .optionOf (fun n : Nat => .integer n) p.line),
    ("description", .string p.description)]

/-- The problem that JSON describes; an object may leave the line out. -/
def ofJson? (j : Json) : Option Problem := do
  let fields ← Json.Fields.ofJson? fieldNames j
  let resource ← fields.required Json.toText? 0
  let line ← fields.omittable (Json.toNatBelow? numberBound) 1
  let description ← fields.required Json.toText? 2
  return { resource, line, description }

/-! ### Build output -/

def errorMark : List Char := "ERROR: ".toList

def messageMark : List Char := ": ".toList

/-- The parts of a text before and after its last colon. -/
def splitLastColon? (cs : List Char) : Option (List Char × List Char) :=
  let after := cs.reverse.takeWhile (· != ':')
  match cs.reverse.drop after.length with
  | _ :: before => some (before.reverse, after.reverse)
  | [] => none

/-- The file and the line of a location `file:line:column`. -/
def placeOf? (location : List Char) : Option (List Char × Nat) := do
  let (rest, column) ← splitLastColon? location
  let (file, line) ← splitLastColon? rest
  let _ ← Text.natBelow? numberBound column
  let line ← Text.natBelow? numberBound line
  return (file, line)

def atLocation (location message : List Char) : Problem :=
  match placeOf? location with
  | some (file, line) =>
    { resource := String.ofList file, line := some line, description := String.ofList message }
  | none =>
    { resource := String.ofList location, line := none, description := String.ofList message }

def ofLine? (line : List Char) : Option Problem := do
  let rest ← Text.stripStart? errorMark (Text.trim line)
  let (location, message) ← Text.cutAt? messageMark rest
  return atLocation location message

/-- The problems that a build's output reports, in the order of its lines. -/
def ofOutput (output : List Char) : List Problem :=
  (Text.lines output).filterMap ofLine?

end Problem

end Buildpath
