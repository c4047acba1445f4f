import Buildpath.Files.Disk
import Buildpath.Json.Reader
import Buildpath.Path.Parts
import Buildpath.Workspace.Index
import Buildpath.Yaml.Document

/-!
# Workspace manifests

A manifest is a file that declares the modules of a workspace, written in JSON or in YAML. Paths
in it may be relative: the workspace root to the manifest's directory, a module's location to the
workspace root, and a source root to its module's location. `Manifest.toWorkspace` resolves them;
no two modules may have the same name.

Models the component `workspace/manifest`.
-/

namespace Buildpath

/-- The modules that a file declares, with their paths as written. -/
structure Manifest where
  root : Option Path
  modules : List Module
deriving DecidableEq, Repr

/-- Why a manifest gives no workspace. -/
inductive ManifestError where
  | unreadable (path : Path) (cause : SystemError)
  | malformed (path : Path)
  | duplicateModule (name : String)
deriving DecidableEq, Repr

namespace ManifestError

def message : ManifestError → String
  | .unreadable path cause =>
    "Failed to read workspace manifest " ++ path.toString ++ ": " ++ cause.message
  | .malformed path =>
    "Failed to parse workspace manifest " ++ path.toString ++ ": this is not a manifest"
  | .duplicateModule name => "Module " ++ name ++ " is declared more than once"

end ManifestError

namespace Manifest

/-! ### JSON -/

def moduleFieldNames : List (List String) :=
  [["name"], ["location"], ["targets"], ["source_roots"]]

def moduleToJson (m : Module) : Json :=
  .object [("name", .string m.name), ("location", m.location.toJson),
    ("targets", .listOf .string m.targets), ("source_roots", .listOf SourceRoot.toJson m.sourceRoots)]

def moduleOfJson? (j : Json) : Option Module := do
  let fields ← Json.Fields.ofJson? moduleFieldNames j
  let name ← fields.required Json.toText? 0
  let location ← fields.required Path.ofJson? 1
  let targets ← fields.withDefault [] (Json.toList? Json.toText?) 2
  let sourceRoots ← fields.withDefault [] (Json.toList? SourceRoot.ofJson?) 3
  return { name, location, sourceRoots, targets }

def fieldNames : List (List String) :=
  [["workspace_root"], ["modules"]]

def toJson (m : Manifest) : Json :=
  .object [("workspace_root", .optionOf Path.toJson m.root),
    ("modules", .listOf moduleToJson m.modules)]

/-- The manifest that JSON describes; both fields may be left out. -/
def ofJson? (j : Json) : Option Manifest := do
  let fields ← Json.Fields.ofJson? fieldNames j
  let root ← fields.withDefault none (Json.toOption? Path.ofJson?) 0
  let modules ← fields.withDefault [] (Json.toList? moduleOfJson?) 1
  return { root, modules }

/-! ### YAML -/

open Yaml (Document LinkedNode)
open Yaml.Document (Reader)

def pathOfYaml (d : Document) (n : LinkedNode) : Reader Path :=
  return .ofString (← d.text n)

def sourceRootOfYaml (d : Document) (n : LinkedNode) : Reader SourceRoot := do
  let fields ← d.fields ["path", "include", "exclude"] n
  let path ← Document.required pathOfYaml d fields 0
  let included ← Document.withDefault [] (Document.list Document.text) d fields 1
  let excluded ← Document.withDefault [] (Document.list Document.text) d fields 2
  return { path, included, excluded }

def moduleOfYaml (d : Document) (n : LinkedNode) : Reader Module := do
  let fields ← d.fields ["name", "location", "targets", "source_roots"] n
  let name ← Document.required Document.text d fields 0
  let location ← Document.required pathOfYaml d fields 1
  let targets ← Document.withDefault [] (Document.list Document.text) d fields 2
  let sourceRoots ← Document.withDefault [] (Document.list sourceRootOfYaml) d fields 3
  return { name, location, sourceRoots, targets }

def ofYaml (d : Document) (n : LinkedNode) : Reader Manifest := do
  let fields ← d.fields ["workspace_root", "modules"] n
  let root ← Document.withDefault none (Document.optional pathOfYaml) d fields 0
  let modules ← Document.withDefault [] (Document.list moduleOfYaml) d fields 1
  return { root, modules }

/-! ### Files -/

/-- Whether the name of a file says that it holds JSON, in upper or lower case. -/
def isJsonName (path : Path) : Bool :=
  path.extension?.any fun ending => ending.map Char.toLower == "json".toList

def ofText? (isJson : Bool) (text : List Char) : Option Manifest :=
  if isJson then (Json.parse? text).bind ofJson?
  else (Document.ofText? text).bind (·.read? ofYaml)

def load (disk : Disk) (path : Path) : Except ManifestError Manifest :=
  match disk.read path with
  | .error e => .error (.unreadable path e)
  | .ok text =>
    match ofText? (isJsonName path) text.toList with
    | none => .error (.malformed path)
    | some m => .ok m

end Manifest

/-! ### Resolving paths -/

/-- The path seen from `base`, without single dots; an absolute path stays as written. -/
def Path.under (base path : Path) : Path :=
  if path.isAbsolute then path
  else .ofComponents ((base.join path).components.filter (· ≠ .current))

def SourceRoot.under (base : Path) (r : SourceRoot) : SourceRoot :=
  { r with path := base.under r.path }

def Module.under (base : Path) (m : Module) : Module :=
  let location := base.under m.location
  { m with location, sourceRoots := m.sourceRoots.map (·.under location) }

namespace Manifest

/-- The workspace root, for a manifest in the directory `base`. -/
def rootUnder (base : Path) (m : Manifest) : Path :=
  match m.root with
  | none => base
  | some root => base.under root

/-- The first name that occurred before. -/
def firstDuplicate? (seen : List String) : List String → Option String
  | [] => none
  | name :: rest => if seen.contains name then some name else firstDuplicate? (name :: seen) rest

/-- The workspace of the declared modules, for a manifest in the directory `base`. -/
def toWorkspace (base : Path) (m : Manifest) : Except ManifestError Workspace :=
  match firstDuplicate? [] (m.modules.map (·.name)) with
  | some name => .error (.duplicateModule name)
  | none => .ok (.ofModules (m.modules.map (·.under (m.rootUnder base))))

end Manifest

end Buildpath
