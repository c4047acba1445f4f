import Buildpath.CommandLine.Invocation
import Buildpath.CommandLine.Usage
import Buildpath.Logging.Setup
import Buildpath.Resolve.Resolver
import Buildpath.Resolve.Validity
import Buildpath.Tool.Bazel
import Buildpath.Workspace.Manifest

/-!
# The program

A run of the program, from its arguments to its exit code. An invocation is prepared before
anything is run: the manifest has to declare a workspace with the module, and the settings have to
be valid. After that only the file for the output can make `resolve` fail; a build tool that gives
no answer leaves the classpath empty. Bazel is found on the machine, by path or by name, and may
change its disk whenever it runs; archives are looked for and the output is written on the disk as
Bazel has left it. Left out of the world are processes other than Bazel, permissions, and a standard
output that cannot be written to.

Models the component `main`.
-/

namespace Buildpath

/-- Where the program runs. -/
structure Host where
  machine : Machine
  environment : Environment
  moment : Moment

/-- Why an invocation cannot be carried out. -/
inductive SetupError where
  | manifest (e : ManifestError)
  | unknownModule (name : String) (manifest : Path)
  | settings (f : Settings.Fault)
  | tool (f : Failure)
deriving DecidableEq, Repr

namespace SetupError

def message : SetupError → String
  | .manifest e => e.message
  | .unknownModule name path => "Module " ++ name ++ " is not declared in " ++ path.toString
  | .settings f => "Configuration error: " ++ f.report
  | .tool f => f.message

end SetupError

/-- An invocation that can be carried out. -/
structure Prepared where
  settings : Settings
  root : Path
  workspace : Workspace
deriving DecidableEq, Repr

/-- What a run leaves behind. -/
structure Execution where
  exitCode : Nat
  stdout : String
  log : List Diagnostic
  disk : Disk
  /-- The arguments with which Bazel was started, in order. -/
  history : List (List String)

namespace Program

def version : String := "0.3.0"

def replyTo : CommandLine.UsageError → String
  | .versionRequested => "cpresolve " ++ version ++ "\n"
  | .helpRequested => CommandLine.helpText
  | _ => ""

/-! ### Preparing -/

/-- The directory that relative paths in a manifest start from. -/
def baseDirectory (disk : Disk) (manifest : Path) : Path :=
  match manifest.parent?.filter (·.chars ≠ []) with
  | none => Disk.pathOfPlace disk.cwd
  | some directory =>
    match disk.resolve directory with
    | .ok resolved => resolved
    | .error _ => directory

/-- The settings of an invocation, for a workspace at `root` unless the environment names one. -/
def settingsFor (env : Environment) (root : Path) (i : Invocation) : Settings :=
  let s := Settings.ofEnvironment env
  { s with
    workspaceRoot := some (s.workspaceRoot.getD root)
    toolPath := i.bazel.getD s.toolPath }

/-- Reads the manifest and checks that the invocation can be carried out. -/
def prepare (host : Host) (i : Invocation) : Except SetupError Prepared := do
  let disk := host.machine.disk
  let manifest ← (Manifest.load disk i.workspace).mapError .manifest
  let base := baseDirectory disk i.workspace
  let workspace ← (manifest.toWorkspace base).mapError .manifest
  if !workspace.hasModule i.module then throw (.unknownModule i.module i.workspace)
  let settings := settingsFor host.environment (manifest.rootUnder base) i
  settings.validate.mapError .settings
  let root ← settings.requireRoot.mapError .tool
  return { settings, root, workspace }

/-! ### Carrying out -/

def bazelOf (host : Host) (p : Prepared) : Bazel Machine :=
  { program := p.settings.toolPath
    root := p.root
    aspect := p.settings.aspect
    files := fun m => m.disk.fileSystem
    launch := Machine.launch (host.environment.lookup "PATH") }

def resolverOf (host : Host) (p : Prepared) : Resolver (BazelMemory Machine) :=
  ⟨(bazelOf host p).tool, fun s => s.world.disk.fileSystem, p.settings.externalMarker⟩

def sceneOf (host : Host) (p : Prepared) : Scene (BazelMemory Machine) :=
  ⟨.new host.machine, p.workspace⟩

/-- What comes of a task before the log is filtered. -/
structure Result where
  exitCode : Nat
  stdout : String
  disk : Disk
  history : List (List String)

namespace Result

/-- Nothing was run and nothing written. -/
def refused (host : Host) (exitCode : Nat) : Result :=
  ⟨exitCode, "", host.machine.disk, []⟩

end Result

/-- Puts a document where it is asked for, on the disk as Bazel has left it. -/
def deliver (output : Option Path) (document : String) (s : BazelMemory Machine) :
    Traced Result :=
  match output with
  | none => pure ⟨0, document ++ "\n", s.world.disk, s.history⟩
  | some path =>
    match s.world.disk.write path (.file document) with
    | .ok disk => do
      Traced.log .info .program ("Classpath written to " ++ path.toString) []
      return ⟨0, "", disk, s.history⟩
    | .error e => do
      Traced.log .error .program
        ("Failed to write output to " ++ path.toString ++ ": " ++ e.message) []
      return ⟨1, "", s.world.disk, s.history⟩

def resolve (host : Host) (i : Invocation) (output : Option Path) (p : Prepared) :
    Traced Result := do
  let session : Session (BazelMemory Machine) := ⟨sceneOf host p, .empty p.settings.cacheTimeout⟩
  let (c, session) ← Resolver.resolve (resolverOf host p) i.module host.moment session
  deliver output (c.render i.format i.module) session.scene.tool

def check (host : Host) (i : Invocation) (p : Prepared) : Traced Result := do
  let (report, scene) ← (resolverOf host p).check i.module (sceneOf host p)
  return ⟨if report.valid then 0 else 1, report.render i.format ++ "\n", scene.tool.world.disk,
    scene.tool.history⟩

/-- The first words on a task. -/
def announcement : Task → String
  | .resolve _ => "Resolving classpath"
  | .check => "Checking module"

def perform (host : Host) (i : Invocation) : Traced Result := do
  Traced.log .debug .program ("cpresolve v" ++ version ++ " starting") []
  Traced.log .debug .program ("Arguments: " ++ i.text) []
  Traced.log .info .program (announcement i.task) [("module", .text i.module)]
  match prepare host i with
  | .error e =>
    Traced.log .error .program e.message []
    return .refused host 1
  | .ok p =>
    Traced.log .debug .program p.settings.text []
    match i.task with
    | .resolve output => resolve host i output p
    | .check => check host i p

/-! ### Running -/

def levelOf (env : Environment) (i : Invocation) : Level :=
  match i.logLevel with
  | some name => LogSetup.parseLevel name
  | none =>
    if i.verbose then .debug
    else if i.quiet then .error
    else LogSetup.parseLevel ((env.lookup "CPRESOLVE_LOG_LEVEL").getD "info")

def shown (filter : Filter) (notices : List Notice) : List Diagnostic :=
  (notices.map Notice.logLine).filter filter.admits

def run (host : Host) (arguments : List String) : Execution :=
  match Invocation.ofArguments arguments with
  | .error e => ⟨e.exitCode, replyTo e, [], host.machine.disk, []⟩
  | .ok i =>
    let result := perform host i
    let filter := (LogSetup.ofLevel (levelOf host.environment i)).filter host.environment
    let r := result.value
    ⟨r.exitCode, r.stdout, shown filter result.notices, r.disk, r.history⟩

end Program

end Buildpath
