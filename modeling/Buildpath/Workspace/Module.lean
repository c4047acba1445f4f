import Buildpath.Path.Json

/-!
# Modules of a workspace

A module has a name, a directory, the source roots in which its files lie and the build targets it
was imported from. A source root may restrict its files by patterns relative to the root.

Models the module source sets of the component `model`.
-/

namespace Buildpath

/-- A directory with the patterns of the files that count. -/
structure SourceRoot where
  path : Path
  included : List String
  excluded : List String
deriving DecidableEq, Repr

/-- A module of the workspace. -/
structure Module where
  name : String
  location : Path
  sourceRoots : List SourceRoot
  targets : List String
deriving DecidableEq, Repr

namespace SourceRoot

def fieldNames : List (List String) :=
  [["path"], ["include"], ["exclude"]]

def toJson (r : SourceRoot) : Json :=
  .object [("path", r.path.toJson), ("include", .listOf .string r.included),
    ("exclude", .listOf .string r.excluded)]

/-- The source root that JSON describes; only the path has to be there. -/
def ofJson? (j : Json) : Option SourceRoot := do
  let fields ← Json.Fields.ofJson? fieldNames j
  let path ← fields.required Path.ofJson? 0
  let included ← fields.withDefault [] (Json.toList? Json.toText?) 1
  let excluded ← fields.withDefault [] (Json.toList? Json.toText?) 2
  return { path, included, excluded }

end SourceRoot

namespace Module

def fullPath (m : Module) : String :=
  "/" ++ m.name

/-- How the names begin of the modules that stand for the workspace itself. -/
def workspaceName : String := "Bazel Workspace"

/-- Whether the name is that of a module that stands for the workspace itself. -/
def isWorkspaceName (name : String) : Bool :=
  (Text.stripStart? workspaceName.toList name.toList).isSome

def fieldNames : List (List String) :=
  [["name"], ["location"], ["source_roots"], ["targets"]]

def toJson (m : Module) : Json :=
  .object [("name", .string m.name), ("location", m.location.toJson),
    ("source_roots", .listOf SourceRoot.toJson m.sourceRoots),
    ("targets", .listOf .string m.targets)]

/-- The module that JSON describes; name and location have to be there. -/
def ofJson? (j : Json) : Option Module := do
  let fields ← Json.Fields.ofJson? fieldNames j
  let name ← fields.required Json.toText? 0
  let location ← fields.required Path.ofJson? 1
  let sourceRoots ← fields.withDefault [] (Json.toList? SourceRoot.ofJson?) 2
  let targets ← fields.withDefault [] (Json.toList? Json.toText?) 3
  return { name, location, sourceRoots, targets }

end Module

end Buildpath
