import Buildpath.Files.Basic
import Buildpath.Tool.Aspect
import Buildpath.Tool.Basic
import Buildpath.Tool.Command

/-!
# Bazel

The build tool that runs Bazel. Metadata of a target comes from building the target with an
aspect and reading the documents that the aspect writes. What was found is remembered: metadata
for each target until it is flushed, the output roots once both are known, and whether Bazel can
be run from the first time that was asked. Failures to answer are not remembered. Bazel runs in a
world, which holds the files and which every run may change; the state of the tool is what is
remembered together with the world as it is.

Models the component `build_tool/bazel`.
-/

namespace Buildpath

/-- How Bazel is run, and where, in worlds of type `ω`. -/
structure Bazel (ω : Type := Unit) where
  program : Path
  root : Path
  aspect : String
  files : ω → FileSystem
  launch : LauncherIn ω

/-- What is known from earlier runs, and the world as they have left it. -/
structure BazelMemory (ω : Type := Unit) where
  metadata : List (String × Metadata)
  roots : Option OutputRoots
  available : Option Bool
  /-- The arguments with which the program was started, in order. -/
  history : List (List String)
  world : ω
deriving DecidableEq, Repr

namespace BazelMemory

variable {ω : Type}

/-- Nothing is known. -/
def new (world : ω) : BazelMemory ω := ⟨[], none, none, [], world⟩

/-- Nothing is known, and the world is not told about. -/
def empty : BazelMemory := new ()

/-- The metadata of a target, if it is known. -/
def metadataOf? (s : BazelMemory ω) (target : String) : Option Metadata :=
  s.metadata.lookup target

def learn (s : BazelMemory ω) (target : String) (m : Metadata) : BazelMemory ω :=
  { s with metadata := (target, m) :: s.metadata.filter (·.1 != target) }

def forget (s : BazelMemory ω) (targets : List String) : BazelMemory ω :=
  { s with metadata := s.metadata.filter fun (target, _) => !targets.contains target }

end BazelMemory

/-- The last line that is not blank. -/
def lastLine (text : List Char) : String :=
  match ((Text.lines text).map Text.trim).reverse.find? (· ≠ []) with
  | some line => String.ofList line
  | none => "no output"

namespace Bazel

variable {ω : Type}

/-! ### Running -/

def start (b : Bazel ω) (arguments : List String) (directory : Option Path) (s : BazelMemory ω) :
    Except SystemError Outcome × BazelMemory ω :=
  match b.launch ⟨b.program, arguments, directory⟩ s.world with
  | (.error e, world) => (.error e, { s with world })
  | (.ok o, world) => (.ok o, { s with history := s.history ++ [arguments], world })

def run (b : Bazel ω) (arguments : List String) (s : BazelMemory ω) :
    Traced (Except Failure Outcome × BazelMemory ω) := do
  Traced.log .debug .tool "Running bazel"
    [("bazel", .text b.program.toString), ("args", .text (Text.quotedList arguments))]
  let (result, s) := b.start arguments (some b.root) s
  return (result.mapError SystemError.toFailure, s)

/-! ### Output roots -/

def infoOf (key : String) (o : Outcome) : Except Failure Path :=
  if !o.succeeded then
    .error (.queryFailed ("bazel info " ++ key ++ " failed: " ++ lastLine o.messageText))
  else
    match Text.trim o.outputText with
    | [] => .error (.queryFailed ("bazel info " ++ key ++ " returned nothing"))
    | value => .ok ⟨value⟩

def info (b : Bazel ω) (key : String) (s : BazelMemory ω) :
    Traced (Except Failure Path × BazelMemory ω) := do
  let (result, s) ← b.run ["info", key] s
  return (result.bind (infoOf key), s)

/-- The output roots, asked for until both are known. -/
def outputRoots (b : Bazel ω) (s : BazelMemory ω) :
    Traced (Except Failure OutputRoots × BazelMemory ω) := do
  match s.roots with
  | some roots => return (.ok roots, s)
  | none =>
    let (outputBase, s) ← b.info "output_base" s
    match outputBase with
    | .error f => return (.error f, s)
    | .ok outputBase =>
      let (execRoot, s) ← b.info "execution_root" s
      match execRoot with
      | .error f => return (.error f, s)
      | .ok execRoot =>
        let roots : OutputRoots := ⟨outputBase, execRoot⟩
        return (.ok roots, { s with roots := some roots })

/-! ### Metadata -/

def aspectArguments (b : Bazel ω) (target : String) : List String :=
  ["build", "--aspects=" ++ b.aspect, "--output_groups=" ++ aspectOutputGroup, target]

/-- The dependency that an aspect file describes, or why there is none. -/
def readAspectFile (b : Bazel ω) (world : ω) (file : Path) : Except String Dependency :=
  match (b.files world).readText file with
  | .error e => .error e.message
  | .ok text => (Dependency.ofAspect text.toList).mapError AspectError.message

/-- Adds what the aspect files describe; those that cannot be read are passed over. -/
def readAspectFiles (b : Bazel ω) (world : ω) : List Path → Metadata → Traced Metadata
  | [], found => pure found
  | file :: rest, found =>
    match b.readAspectFile world file with
    | .ok d => b.readAspectFiles world rest (found.insert d)
    | .error e => do
      Traced.log .warn .tool "Skipping unreadable aspect file"
        [("file", .text file.toString), ("error", .text e)]
      b.readAspectFiles world rest found

def build (b : Bazel ω) (target : String) (s : BazelMemory ω) :
    Traced (Except Failure Metadata × BazelMemory ω) := do
  let (result, s) ← b.run (b.aspectArguments target) s
  match result with
  | .error f => return (.error f, s)
  | .ok o =>
    if !o.succeeded then
      let cause := "aspect build of " ++ target ++ " failed: " ++ lastLine o.messageText
      return (.error (.queryFailed cause), s)
    else
      let log := o.outputText ++ '\n' :: o.messageText
      return (.ok (← b.readAspectFiles s.world (aspectFiles b.root log) .empty), s)

/-- The metadata of one target, from a build unless it is known. -/
def metadataOf (b : Bazel ω) (target : String) (s : BazelMemory ω) :
    Traced (Except Failure Metadata × BazelMemory ω) := do
  match s.metadataOf? target with
  | some m => return (.ok m, s)
  | none =>
    let (result, s) ← b.build target s
    match result with
    | .error f => return (.error f, s)
    | .ok m => return (.ok m, s.learn target m)

/-- Adds the metadata of the targets, up to the first that fails. -/
def metadataOfAll (b : Bazel ω) : List String → Metadata → BazelMemory ω →
    Traced (Except Failure Metadata × BazelMemory ω)
  | [], found, s => pure (.ok found, s)
  | target :: rest, found, s => do
    let (result, s) ← b.metadataOf target s
    match result with
    | .error f => return (.error f, s)
    | .ok m => b.metadataOfAll rest (found.union m) s

def answer (b : Bazel ω) (r : Request) (s : BazelMemory ω) :
    Traced (Except Failure Metadata × BazelMemory ω) := do
  let (result, s) ← b.metadataOfAll r.targets .empty s
  match result with
  | .error f => return (.error f, s)
  | .ok m =>
    Traced.emit (.queryComplete r.module m.size)
    return (.ok m, s)

/-! ### Checks -/

/-- What is wrong with the targets after a build. A build that failed without naming a problem is
one problem of all targets. -/
def problemsOf (targets : List String) (o : Outcome) : List Problem :=
  if o.succeeded then []
  else
    match Problem.ofOutput o.messageText with
    | [] => [⟨String.intercalate " " targets, none, lastLine o.messageText⟩]
    | problems => problems

def check (b : Bazel ω) (targets : List String) (s : BazelMemory ω) :
    Traced (Except Failure (List Problem) × BazelMemory ω) := do
  let (result, s) ← b.run (["build", "--keep_going"] ++ targets) s
  return (result.map (problemsOf targets), s)

/-- Whether Bazel can be run; asked only once. -/
def isAvailable (b : Bazel ω) (s : BazelMemory ω) : Traced (Bool × BazelMemory ω) := do
  match s.available with
  | some known => return (known, s)
  | none =>
    let (result, s) := b.start ["--version"] none s
    match result with
    | .ok o => return (o.succeeded, { s with available := some o.succeeded })
    | .error e =>
      Traced.log .warn .tool "Bazel not found"
        [("bazel", .text b.program.toString), ("error", .text e.message)]
      return (false, { s with available := some false })

/-! ### The tool -/

def tool (b : Bazel ω) : BuildTool (BazelMemory ω) where
  workspaceRoot _ := some b.root
  startQuery r s := do
    Traced.emit (.queryStarted r.module r.targets.length r.operation)
    return s
  finishQuery := b.answer
  check := b.check
  outputRoots := b.outputRoots
  flush targets s := do
    Traced.log .debug .tool "Flushed dependency metadata"
      [("targets", .text (Text.quotedList targets))]
    return s.forget targets
  isAvailable := b.isAvailable

end Bazel

end Buildpath
