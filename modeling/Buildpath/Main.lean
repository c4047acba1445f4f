import Buildpath.Logging.Line
import Buildpath.Program

/-!
# The command

Runs the program on the files and the environment of this machine. Only what a run looks at is
read: the manifest, the current directory and the variables that count. No program can be started
from here, so the build tool is never available.

Models the entry of the component `main`.
-/

namespace Buildpath.Main

def variableNames : List String :=
  ["CPRESOLVE_CACHE_TIMEOUT_MS", "CPRESOLVE_BAZEL_PATH", "CPRESOLVE_WORKSPACE_ROOT",
    "CPRESOLVE_ASPECT", "CPRESOLVE_LOG_LEVEL", "CPRESOLVE_LOG_JSON", "RUST_LOG", "PATH"]

/-- The variable that holds the time of the run, in seconds. -/
def timeVariable : String := "SOURCE_DATE_EPOCH"

def readEnvironment : IO Environment := do
  let read (name : String) : IO (Option (String × String)) := do
    return (← IO.getEnv name).map (name, ·)
  return (← variableNames.mapM read).filterMap id

/-- What a file holds, if it can be read. -/
def readInode (path : Path) : IO (Option Inode) := do
  try
    let bytes ← IO.FS.readBinFile path.toString
    match Utf8.decode? bytes.toList with
    | some text => return some (.file (String.ofList text))
    | none => return some .binary
  catch _ => return none

def withParents (disk : Disk) (path : Path) : Disk :=
  match path.parent? with
  | some above => disk.makeDirectories above
  | none => disk

def readDisk (i : Invocation) : IO Disk := do
  let here := Path.ofString (← IO.currentDir).toString
  let disk : Disk := { inodes := [], cwd := here.body.filter Path.isProper }
  let disk := disk.makeDirectories here
  let disk := match i.task with
    | .resolve (some output) => withParents disk output
    | _ => disk
  match ← readInode i.workspace with
  | none => return disk
  | some inode =>
    return ((withParents disk i.workspace).write i.workspace inode).toOption.getD disk

def readHost (arguments : List String) : IO Host := do
  let disk ← match Invocation.ofArguments arguments with
    | .ok i => readDisk i
    | .error _ => pure { inodes := [], cwd := [] }
  let seconds := ((← IO.getEnv timeVariable).bind (·.toInt?)).getD 0
  return {
    machine := ⟨disk, []⟩
    environment := ← readEnvironment
    moment := ⟨← IO.monoNanosNow, ⟨seconds, 0⟩⟩ }

/-- Writes the file that the run has written, if there is one. -/
def writeOutput (arguments : List String) (e : Execution) : IO Unit := do
  match Invocation.ofArguments arguments with
  | .ok { task := .resolve (some output), .. } =>
    match e.exitCode, e.disk.read output with
    | 0, .ok text => IO.FS.writeFile output.toString text
    | _, _ => return ()
  | _ => return ()

end Buildpath.Main

open Buildpath in
/-- Runs the program and ends with its exit code. -/
def main (arguments : List String) : IO UInt32 := do
  let host ← Main.readHost arguments
  let e := Program.run host arguments
  if let .error mistake := Invocation.ofArguments arguments then
    IO.eprint mistake.message
  for d in e.log do
    IO.eprintln (d.line (LogSetup.wantsJson host.environment))
  Main.writeOutput arguments e
  IO.print e.stdout
  return e.exitCode.toUInt32
