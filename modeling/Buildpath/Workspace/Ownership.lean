import Buildpath.Glob.Match
import Buildpath.Path.Parts
import Buildpath.Report.Traced
import Buildpath.Workspace.Module

/-!
# Who owns a source file

A module owns a file when the file lies under one of its source roots, no exclusion pattern of that
root matches what is left of the path below the root, and, if the root has inclusion patterns, one
of them does. A pattern that is none matches nothing and is reported. The owner of a list of source
paths is found source by source, and for each source module by module: the first hit decides.

Models the component `classpath/ownership`.
-/

namespace Buildpath

namespace SourceRoot

/-- The pattern in full: a trailing slash selects everything below the folder. -/
def expandPattern (pattern : String) : List Char :=
  if pattern.toList.getLast? = some '/' then pattern.toList ++ ['*', '*'] else pattern.toList

/-- Whether the pattern matches the path below the root; a faulty pattern is reported. -/
def matchesPattern (relative : Path) (pattern : String) : Traced Bool :=
  match Glob.parse (expandPattern pattern) with
  | .ok tokens => pure (Glob.isMatch tokens relative.chars)
  | .error e => do
    Traced.log .warn .ownership "Ignoring invalid source glob"
      [("pattern", .text pattern), ("error", .text e.message)]
    return false

def admits (r : SourceRoot) (relative : Path) : Traced Bool := do
  if ← Traced.any (matchesPattern relative) r.excluded then return false
  if r.included.isEmpty then return true
  Traced.any (matchesPattern relative) r.included

def owns (r : SourceRoot) (file : Path) : Traced Bool :=
  match r.path.below? file with
  | none => pure false
  | some relative => r.admits relative

end SourceRoot

namespace Module

def owns (m : Module) (file : Path) : Traced Bool :=
  Traced.any (·.owns file) m.sourceRoots

end Module

/-! ### Source paths as a build tool writes them -/

/-- The file that a source path means, seen from `root`: quotation marks do not count, blanks
around the path and one leading `./` are dropped, and nothing may not be left. -/
def sourceFile? (root : Path) (source : String) : Option Path :=
  let bare := Text.trim (source.toList.filter (· != '"'))
  let bare := (Text.stripStart? ['.', '/'] bare).getD bare
  if bare = [] then none else some (root.join ⟨bare⟩)

/-- The first module that owns the file. -/
def ownerOfFile (modules : List Module) (file : Path) : Traced (Option Module) :=
  Traced.find? (·.owns file) modules

/-- The owner of the first source that has one. -/
def ownerOfSources (root : Path) (sources : List String) (modules : List Module) :
    Traced (Option Module) :=
  Traced.firstSome (ownerOfFile modules) (sources.filterMap (sourceFile? root))

end Buildpath
