import Buildpath.Check
import Buildpath.Classpath.Json
import Buildpath.Json.Printer
import Buildpath.Yaml.Printer

/-!
# Rendering results

Classpaths and check reports as documents: JSON, YAML, or text for people. The text for people
shows a classpath as a tree with one line per entry and the number of entries below it.

Models the component `cli/output`.
-/

namespace Buildpath

/-- The kinds of documents. -/
inductive Format where
  | json
  | yaml
  | human
deriving DecidableEq, Repr

namespace Format

def ofName? : String → Option Format
  | "json" => some .json
  | "yaml" => some .yaml
  | "human" => some .human
  | _ => none

end Format

/-! ### Classpaths -/

namespace Entry

def caption : Entry → String
  | .module path => "module  " ++ path
  | .library archive none => "library " ++ archive.toString
  | .library archive (some sources) =>
    "library " ++ archive.toString ++ " (sources: " ++ sources.toString ++ ")"

def connector (isLast : Bool) : String :=
  if isLast then "\u2514\u2500 " else "\u251c\u2500 "

def treeLines : List Entry → List String
  | [] => []
  | e :: rest => (connector rest.isEmpty ++ e.caption) :: treeLines rest

theorem length_treeLines (l : List Entry) : (treeLines l).length = l.length := by
  induction l with
  | nil => rfl
  | cons e rest ih => simp [treeLines, ih]

end Entry

namespace Classpath

def rule : String :=
  String.ofList (List.replicate 30 '\u2501')

def documentOf (module : String) (c : Classpath) : Json :=
  match c.toJson with
  | .object members => .object (("module", .string module) :: members)
  | j => j

/-- The lines, each with a line feed at its end. -/
def unlines (lines : List String) : String :=
  String.join (lines.map (· ++ "\n"))

def humanText (module : String) (c : Classpath) : String :=
  let title := ["Classpath of " ++ module, rule, ""]
  if c.entries.isEmpty then unlines (title ++ ["(no entries)"])
  else
    let footer := toString c.size ++ " entries, resolved at " ++ c.resolvedAt.secondsText
    unlines (title ++ Entry.treeLines c.entries ++ ["", footer])

def render (format : Format) (module : String) (c : Classpath) : String :=
  match format with
  | .json => (c.documentOf module).pretty
  | .yaml => (c.documentOf module).yaml
  | .human => c.humanText module

end Classpath

/-! ### Check reports -/

namespace CheckReport

def problemLine (p : Problem) : String :=
  match p.line with
  | some line => "  - " ++ p.resource ++ ":" ++ toString line ++ ": " ++ p.description
  | none => "  - " ++ p.resource ++ ": " ++ p.description

def humanText (r : CheckReport) : String :=
  if r.valid then "\u2713 " ++ r.module ++ " builds cleanly\n"
  else
    Classpath.unlines
      (["\u2717 " ++ r.module ++ " is not valid"] ++ (r.error.toList.map ("  " ++ ·)) ++
        r.problems.map problemLine)

def render (format : Format) (r : CheckReport) : String :=
  match format with
  | .json => r.toJson.pretty
  | .yaml => r.toJson.yaml
  | .human => r.humanText

end CheckReport

end Buildpath
