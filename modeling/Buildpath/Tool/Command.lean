import Buildpath.Files.Disk
import Buildpath.Text.Utf8

/-!
# Running programs

A machine has a disk and programs on it. Running a command (`Machine.launch`) ends with an error, or
with the status and the output of the program and a disk that it may have changed. A program is found
by its path, seen from the command's directory, or by its bare name in the directories of the search
path. One command runs at a time, and nobody else changes the disk. What a program knows besides its
arguments and the disk is left out, and so are the permissions of files: a file can be run if it is one
of the machine's programs.

Models the processes of the system as the component `build_tool/bazel` starts them.
-/

namespace Buildpath

/-- A program to run and how to run it. -/
structure Command where
  program : Path
  arguments : List String
  /-- The directory to run it in, if not the current one. -/
  directory : Option Path
deriving DecidableEq, Repr

/-- What a program that has run leaves behind. -/
structure Outcome where
  exitCode : Nat
  stdout : List Utf8.Byte
  stderr : List Utf8.Byte
deriving DecidableEq, Repr

namespace Outcome

def succeeded (o : Outcome) : Bool :=
  o.exitCode == 0

def outputText (o : Outcome) : List Char :=
  Utf8.decodeLossy o.stdout

def messageText (o : Outcome) : List Char :=
  Utf8.decodeLossy o.stderr

end Outcome

/-- What comes of commands where running them changes nothing. -/
abbrev Launcher := Command → Except SystemError Outcome

/-- How commands are run in worlds of type `ω`: what comes of a command, and the world it leaves. -/
abbrev LauncherIn (ω : Type) := Command → ω → Except SystemError Outcome × ω

instance {ω : Type} : Coe Launcher (LauncherIn ω) := ⟨fun launch c world => (launch c, world)⟩

/-- What a program answers to its arguments, if it leaves the disk as it is. -/
abbrev Program := List String → Outcome

/-- What becomes of running a file with arguments on a disk, whose current directory is that of the
command: the outcome and the disk as it is left, or why the file cannot be run. -/
abbrev Executable := List String → Disk → Except SystemError (Outcome × Disk)

instance : Coe Program Executable := ⟨fun answer arguments disk => .ok (answer arguments, disk)⟩

/-- A disk and the files that may be run. Such a file need not be there yet. -/
structure Machine where
  disk : Disk
  programs : List (Place × Executable)

namespace Machine

def holdsNul (c : Command) : Bool :=
  c.program.chars.contains '\x00' || c.arguments.any (·.toList.contains '\x00') ||
    c.directory.any (·.chars.contains '\x00')

/-- The disk with the directory of the command as the current one. -/
def diskFor (m : Machine) (c : Command) : Except SystemError Disk :=
  match c.directory with
  | none => .ok m.disk
  | some directory => do
    let place ← m.disk.place? .follow directory
    if m.disk.inode? place = some .directory then .ok { m.disk with cwd := place }
    else .error .notADirectory

/-! ### Finding programs -/

/-- Where programs are searched for unless the environment says it. -/
def defaultSearchPath : String := "/bin:/usr/bin"

/-- The files that a command may mean: the one at the path, or if that is a bare name, those of this
name in the directories of the search path. -/
def candidates (searchPath : Option String) (program : Path) : List Path :=
  if program.chars = [] ∨ '/' ∈ program.chars then [program]
  else
    let directories := Text.splitOn ':' (searchPath.getD defaultSearchPath).toList
    directories.map fun directory =>
      if directory = [] then program else ⟨directory ++ '/' :: program.chars⟩

/-- Whether the search goes on after this error. -/
def isPassedOver (e : SystemError) : Bool :=
  e == .noSuchFile || e == .notADirectory || e == .permissionDenied

/-- Runs the first candidate that can be run. If none can, `told` is the error so far: the last one, or
that a candidate may not be run. -/
def runFirst {α : Type} (run : Path → Except SystemError α) :
    SystemError → List Path → Except SystemError α
  | told, [] => .error told
  | told, p :: rest =>
    match run p with
    | .ok result => .ok result
    | .error e =>
      if isPassedOver e then runFirst run (if told = .permissionDenied then told else e) rest
      else .error e

/-! ### Running programs -/

def runFile (m : Machine) (seen : Disk) (arguments : List String) (p : Path) :
    Except SystemError (Outcome × Disk) := do
  let place ← seen.place? .follow p
  match seen.inode? place, m.programs.lookup place with
  | none, _ => .error .noSuchFile
  | some _, none => .error .permissionDenied
  | some _, some program => program arguments seen

def attempt (m : Machine) (searchPath : Option String) (c : Command) :
    Except SystemError (Outcome × Disk) := do
  if holdsNul c then .error .nulInArgument
  else
    let seen ← m.diskFor c
    runFirst (m.runFile seen c.arguments) .noSuchFile (candidates searchPath c.program)

/-- Runs a command: what comes of it, and the machine afterwards. -/
def launch (searchPath : Option String) : LauncherIn Machine := fun c m =>
  match m.attempt searchPath c with
  | .error e => (.error e, m)
  | .ok (o, disk) => (.ok o, { m with disk := { disk with cwd := m.disk.cwd } })

/-- What comes of a command on a machine that stays as it is. -/
def run (m : Machine) : Launcher := fun c =>
  (launch none c m).1

end Machine

end Buildpath
