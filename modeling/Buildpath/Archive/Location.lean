import Buildpath.Files.Basic
import Buildpath.Path.Json
import Buildpath.Report.Traced

/-!
# Locating archives

A reference to an archive is relative to one of two output roots: references whose first segment is
the marker of third-party outputs lie below the output base, all others below the execution root.
A link is followed to its end. An archive that is not there keeps its path and is reported together
with what the nearest existing directory holds; only a reference that cannot be a path is an error.

Models the component `classpath/locator`.
-/

namespace Buildpath

/-- The directories below which archives lie. -/
structure OutputRoots where
  outputBase : Path
  execRoot : Path
deriving DecidableEq, Repr

namespace OutputRoots

def fieldNames : List (List String) :=
  [["output_base"], ["exec_root"]]

def toJson (r : OutputRoots) : Json :=
  .object [("output_base", r.outputBase.toJson), ("exec_root", r.execRoot.toJson)]

def ofJson? (j : Json) : Option OutputRoots := do
  let fields ← Json.Fields.ofJson? fieldNames j
  let outputBase ← fields.required Path.ofJson? 0
  let execRoot ← fields.required Path.ofJson? 1
  return { outputBase, execRoot }

end OutputRoots

/-- Why a reference cannot be a path. -/
inductive ReferenceFault where
  | blank
  | holdsNul
deriving DecidableEq, Repr

/-- A reference that cannot be a path. -/
structure ReferenceError where
  declared : String
  fault : ReferenceFault
deriving DecidableEq, Repr

namespace ReferenceError

def reason (e : ReferenceError) : String :=
  match e.fault with
  | .blank => "empty reference"
  | .holdsNul => "contains a NUL byte"

def message (e : ReferenceError) : String :=
  "Malformed archive reference " ++ Text.quotedString e.declared ++ ": " ++ e.reason

end ReferenceError

/-- Where an archive is, or should be. -/
structure Located where
  path : Path
  present : Bool
deriving DecidableEq, Repr

/-- What archives are looked for with. -/
structure ArchiveFinder where
  files : FileSystem
  roots : OutputRoots
  /-- The first segment of references to third-party outputs. -/
  marker : String

namespace ArchiveFinder

/-- The most children of a directory that a report names. -/
def maxListed : Nat := 50

/-- The names of the children, cut short after the first fifty. -/
def listedNames (children : List Listed) : List String :=
  (children.take maxListed).map Listed.displayName ++
    (if children.length > maxListed then ["..."] else [])

def surroundings (f : ArchiveFinder) (p : Path) : String :=
  match (p.ancestors.drop 1).find? f.files.isDirectory with
  | none => "<no existing parent directory>"
  | some dir =>
    match f.files.list dir with
    | .ok children =>
      dir.toString ++ ": [" ++ String.intercalate ", " (listedNames children) ++ "]"
    | .error e => dir.toString ++ ": <unreadable: " ++ e.message ++ ">"

/-- Reports that nothing is at the path. -/
def reportMissing (f : ArchiveFinder) (p : Path) (reason : String) : Traced Unit :=
  Traced.log .error .archives
    "Problem adding archive to classpath because it does not exist on the filesystem"
    [("path", .text p.toString), ("reason", .text reason), ("listing", .text (f.surroundings p))]

def rootFor (f : ArchiveFinder) (reference : Path) : Path :=
  if reference.components.head? = some (.name f.marker.toList) then f.roots.outputBase
  else f.roots.execRoot

/-- The path that a reference means, if it can be one. -/
def pathOf (f : ArchiveFinder) (declared : String) : Except ReferenceError Path :=
  let reference := Text.trim declared.toList
  if reference = [] then .error ⟨declared, .blank⟩
  else if reference.contains '\x00' then .error ⟨declared, .holdsNul⟩
  else .ok ((f.rootFor ⟨reference⟩).join ⟨reference⟩)

def probe (f : ArchiveFinder) (p : Path) : Traced Located :=
  if f.files.isLink p then
    match f.files.resolve p with
    | .ok target => pure ⟨target, true⟩
    | .error _ => do
      f.reportMissing p "symlink target does not exist"
      return ⟨p, false⟩
  else if f.files.isThere p then pure ⟨p, true⟩
  else do
    f.reportMissing p "file does not exist"
    return ⟨p, false⟩

def locate (f : ArchiveFinder) (declared : String) : Traced (Except ReferenceError Located) :=
  match f.pathOf declared with
  | .error e => pure (.error e)
  | .ok p => do return .ok (← f.probe p)

end ArchiveFinder

end Buildpath
