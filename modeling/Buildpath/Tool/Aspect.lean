import Buildpath.Dependency
import Buildpath.Json.Reader
import Buildpath.Path.Basic

/-!
# Aspect documents

The aspect writes a JSON document for each target it visits, and the build's output names the files
it wrote, one on a line. `aspectFiles` picks the files out of an output, each once, in the order in
which they are first named; `Dependency.ofAspect` reads a document.

Models the component `build_tool/aspect`.
-/

namespace Buildpath

/-- Why a text is no aspect document. -/
inductive AspectError where
  | invalid
  | noLabel
deriving DecidableEq, Repr

namespace AspectError

def message : AspectError → String
  | .invalid => "Invalid aspect JSON document"
  | .noLabel => "Aspect JSON document has no label"

end AspectError

/-- The dependency that an aspect document describes; its label may not be blank. -/
def Dependency.ofAspect (document : List Char) : Except AspectError Dependency :=
  match (Json.parse? document).bind Dependency.ofJson? with
  | none => .error .invalid
  | some d => if Text.isBlankText d.label.toList then .error .noLabel else .ok d

/-- How the names of aspect files end. -/
def aspectSuffix : List Char := ".cpresolve.json".toList

def aspectOutputGroup : String := "cpresolve-info"

def aspectFileOfLine? (root : Path) (line : List Char) : Option Path :=
  let name := Text.trim line
  if Text.endsWith aspectSuffix name then some (root.join ⟨name⟩) else none

/-- The paths without those that repeat an earlier one in some spelling. -/
def distinctPaths (paths : List Path) : List Path :=
  paths.foldl (fun kept p => if kept.any (·.components == p.components) then kept else kept ++ [p]) []

def aspectFiles (root : Path) (output : List Char) : List Path :=
  distinctPaths ((Text.lines output).filterMap (aspectFileOfLine? root))

end Buildpath
