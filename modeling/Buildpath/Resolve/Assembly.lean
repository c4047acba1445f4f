import Buildpath.Classpath.Basic
import Buildpath.Tool.Basic
import Buildpath.Workspace.Index
import Buildpath.Workspace.Ownership

/-!
# Assembling a classpath

A classpath is assembled from the dependencies of a module's targets, one after the other in the
order of their labels. A dependency whose sources belong to the module itself adds nothing; one
whose sources belong to another module adds a reference to it; any other adds its archives. An
archive that cannot be found makes the metadata stale, and stale metadata is flushed at the end, so
that the next pass asks for it anew.

Models the component `classpath/assembler`.
-/

namespace Buildpath

/-- What an assembly works with. -/
structure Assembler (σ : Type) where
  tool : BuildTool σ
  /-- The files as they are in a state of the tool. -/
  files : σ → FileSystem
  /-- The first segment of references to third-party outputs. -/
  marker : String

/-- What an assembly reads and changes: the state of the tool, and the workspace. -/
structure Scene (σ : Type) where
  tool : σ
  workspace : Workspace

/-- A query under way: the workspace it is made in and the request. -/
structure Query where
  root : Path
  request : Request
deriving DecidableEq, Repr

/-- How far an assembly has come. -/
structure Progression (σ : Type) where
  scene : Scene σ
  classpath : Classpath
  /-- The output roots, once they have been asked for. -/
  roots : Option OutputRoots
  /-- Whether an archive could not be found. -/
  stale : Bool

namespace Assembler

variable {σ : Type}

def operation : String := "assemble_classpath"

/-! ### Archives -/

/-- The path of the archive with the sources, whether it is there or not. -/
def locateSources (finder : ArchiveFinder) : Option String → Traced (Option Path)
  | none => pure none
  | some declared => do
    match ← finder.locate declared with
    | .ok located => return some located.path
    | .error e =>
      Traced.log .debug .assembly "Ignoring malformed sources archive reference"
        [("error", .text e.message)]
      return none

/-- The archive of a pair and the path of its sources; nothing if the archive is not declared or
its reference cannot be a path. -/
def locatePair (finder : ArchiveFinder) (pair : ArchivePair) :
    Traced (Option (Located × Option Path)) :=
  match pair.primary with
  | none => pure none
  | some declared => do
    match ← finder.locate declared with
    | .error e =>
      Traced.log .warn .assembly "Skipping malformed archive reference"
        [("error", .text e.message)]
      return none
    | .ok primary => return some (primary, ← locateSources finder pair.sources)

def addPair (finder : ArchiveFinder) (module label : String) (pair : ArchivePair)
    (p : Progression σ) : Traced (Progression σ) := do
  match ← locatePair finder pair with
  | some (primary, sources) =>
    if !primary.present then
      Traced.emit (.archiveMissing module primary.path.toString)
    return { p with
      stale := p.stale || !primary.present
      classpath := p.classpath.pushLibrary primary.path sources }
  | none =>
    Traced.log .warn .assembly "Archive reference could not be resolved to a path"
      [("module", .text module), ("label", .text label)]
    return { p with stale := true }

/-- Adds the archives of the pairs in turn. -/
def addPairs (finder : ArchiveFinder) (module label : String) :
    List ArchivePair → Progression σ → Traced (Progression σ)
  | [], p => pure p
  | pair :: rest, p => do addPairs finder module label rest (← addPair finder module label pair p)

/-- The output roots; the tool is asked once. -/
def requireRoots (a : Assembler σ) (p : Progression σ) :
    Traced (Except Failure OutputRoots × Progression σ) :=
  match p.roots with
  | some roots => pure (.ok roots, p)
  | none => do
    let (answer, tool) ← a.tool.outputRoots p.scene.tool
    let p := { p with scene := { p.scene with tool } }
    match answer with
    | .ok roots => return (.ok roots, { p with roots := some roots })
    | .error f => return (.error f, p)

/-- Adds the archives of a dependency that no module owns. -/
def addArchives (a : Assembler σ) (module : String) (d : Dependency) (p : Progression σ) :
    Traced (Option Failure × Progression σ) := do
  if d.archives.isEmpty then return (none, p)
  match ← a.requireRoots p with
  | (.error f, p) => return (some f, p)
  | (.ok roots, p) =>
    return (none, ← addPairs ⟨a.files p.scene.tool, roots, a.marker⟩ module d.label d.archives p)

/-! ### Dependencies -/

def addReference (module : String) (owner : Module) (p : Progression σ) :
    Traced (Progression σ) := do
  if !p.classpath.containsModule owner.fullPath then
    Traced.log .debug .assembly "Added module to classpath"
      [("module", .text module), ("reference", .text owner.fullPath)]
  let (_, workspace) ← p.scene.workspace.ensureReference module owner.name
  return { p with
    classpath := p.classpath.pushModule owner.fullPath
    scene := { p.scene with workspace } }

/-- Adds what a dependency contributes; fails when the output roots are needed and unknown. -/
def addUnit (a : Assembler σ) (root : Path) (modules : List Module) (module : String)
    (d : Dependency) (p : Progression σ) : Traced (Option Failure × Progression σ) := do
  match ← ownerOfSources root d.sources modules with
  | some owner =>
    if owner.name = module then
      Traced.log .debug .assembly "Dependency is the module itself, nothing to do"
        [("module", .text module), ("label", .text d.label)]
      return (none, p)
    else return (none, ← addReference module owner p)
  | none => a.addArchives module d p

/-- Adds what the dependencies contribute, up to the first failure. -/
def addUnits (a : Assembler σ) (root : Path) (modules : List Module) (module : String) :
    List Dependency → Progression σ → Traced (Option Failure × Progression σ)
  | [], p => pure (none, p)
  | d :: rest, p => do
    match ← a.addUnit root modules module d p with
    | (some f, p) => return (some f, p)
    | (none, p) => a.addUnits root modules module rest p

/-! ### The whole assembly -/

def start (a : Assembler σ) (module : String) (s : Scene σ) :
    Traced (Except Failure Query × Scene σ) :=
  match a.tool.workspaceRoot s.tool with
  | none => pure (.error (.toolUnavailable "Bazel workspace root is not set"), s)
  | some root => do
    let request : Request := ⟨module, s.workspace.targetsOf module, operation⟩
    let tool ← a.tool.startQuery request s.tool
    return (.ok ⟨root, request⟩, { s with tool })

def flushIfStale (a : Assembler σ) (q : Query) (p : Progression σ) : Traced (Scene σ) := do
  if p.stale then
    Traced.log .info .assembly "Flushing dependency metadata so the next pass can recompute it"
      [("module", .text q.request.module)]
    return { p.scene with tool := ← a.tool.flush q.request.targets p.scene.tool }
  else return p.scene

def finish (a : Assembler σ) (q : Query) (now : Timestamp) (s : Scene σ) :
    Traced (Except Failure Classpath × Scene σ) := do
  let (answer, tool) ← a.tool.finishQuery q.request s.tool
  let s := { s with tool }
  match answer with
  | .error f => return (.error f, s)
  | .ok metadata =>
    let begun : Progression σ := ⟨s, .empty now, none, false⟩
    match ← a.addUnits q.root s.workspace.modules q.request.module metadata.units begun with
    | (some f, p) => return (.error f, p.scene)
    | (none, p) => return (.ok p.classpath, ← a.flushIfStale q p)

def tryAssemble (a : Assembler σ) (module : String) (now : Timestamp) (s : Scene σ) :
    Traced (Except Failure Classpath × Scene σ) := do
  match ← a.start module s with
  | (.error f, s) => return (.error f, s)
  | (.ok q, s) => a.finish q now s

/-- Reports why there is no classpath. -/
def reportFailure (module : String) : Failure → Traced Unit
  | .toolUnavailable cause =>
    Traced.log .error .assembly ("Bazel not found: " ++ cause) [("module", .text module)]
  | f =>
    Traced.log .error .assembly "Unable to compute classpath container entries"
      [("module", .text module), ("error", .text f.message)]

/-- Assembles the classpath of a module; a failure is reported and leaves it empty. -/
def assemble (a : Assembler σ) (module : String) (now : Timestamp) (s : Scene σ) :
    Traced (Classpath × Scene σ) := do
  match ← a.tryAssemble module now s with
  | (.ok c, s) => return (c, s)
  | (.error f, s) =>
    reportFailure module f
    return (.empty now, s)

end Assembler

end Buildpath
