import Buildpath.Failure
import Buildpath.Files.Basic

/-!
# Disks

A disk holds inodes at places, a place being the names that lead to it from the root directory. A
path is walked segment by segment: `.` stays, `..` goes up, a link is replaced by the segments of
its target, and whatever is walked through has to be a directory. A slash at the end asks for a
directory, too. The errors are those of the operating system.

Models the component `fs/real`, with the files of the system below it.
-/

namespace Buildpath

/-- What a disk holds at a place. -/
inductive Inode where
  | file (content : String)
  /-- A file that holds bytes which are no text. -/
  | binary
  | directory
  | link (target : List Char)
deriving DecidableEq, Repr

/-- The names that lead from the root directory to a place. -/
abbrev Place := List (List Char)

/-- The files of a machine, and the directory that relative paths start from. -/
structure Disk where
  inodes : List (Place × Inode)
  cwd : Place
deriving Repr

namespace Disk

/-- The longest path, in bytes, with the byte that ends it. -/
def maxPathBytes : Nat := 4096

/-- The longest name, in bytes. -/
def maxNameBytes : Nat := 255

/-- The most links that are followed in walking one path. -/
def maxLinks : Nat := 40

def bytes (cs : List Char) : Nat :=
  (String.ofList cs).utf8ByteSize

/-- What stands at a place; the root directory is always there. -/
def inode? (d : Disk) (place : Place) : Option Inode :=
  if place = [] then some .directory else d.inodes.lookup place

def pathOfPlace (place : Place) : Path :=
  ⟨'/' :: Path.joinSegments place⟩

/-- What is done at the last name of a path. -/
inductive Ending where
  | follow
  /-- A link is left alone. -/
  | keep
  /-- A link is followed, and nothing need be there. -/
  | create
deriving DecidableEq, Repr

/-- Walks the segments from a place. `links` counts the links that may still be followed. `fuel`
bounds the number of steps. -/
def walk (d : Disk) (ending : Ending) :
    Nat → Nat → Place → List (List Char) → Except SystemError Place
  | 0, _, _, _ => .error .tooManyLinks
  | _ + 1, _, here, [] => .ok here
  | fuel + 1, links, here, segment :: rest =>
    if d.inode? here ≠ some .directory then .error .notADirectory
    else if segment = [] ∨ segment = ['.'] then d.walk ending fuel links here rest
    else if segment = ['.', '.'] then d.walk ending fuel links here.dropLast rest
    else if bytes segment > maxNameBytes then .error .nameTooLong
    else if ending = .create ∧ rest ≠ [] ∧ rest.all (· = []) then .error .isADirectory
    else
      let next := here ++ [segment]
      match d.inode? next with
      | none => if ending = .create ∧ rest = [] then .ok next else .error .noSuchFile
      | some (.link target) =>
        if ending = .keep ∧ rest = [] then .ok next
        else
          match links with
          | 0 => .error .tooManyLinks
          | links + 1 =>
            let start := if target.head? = some '/' then [] else here
            d.walk ending fuel links start (Path.segments target ++ rest)
      | some _ => d.walk ending fuel links next rest

/-- The number of steps that no walk exceeds. -/
def walkFuel (d : Disk) (p : Path) : Nat :=
  let longest := d.inodes.foldl
    (fun n (_, inode) => match inode with
      | .link target => max n (target.length + 1)
      | _ => n) 0
  p.chars.length + 2 + (maxLinks + 1) * (longest + 1)

def place? (d : Disk) (ending : Ending) (p : Path) : Except SystemError Place :=
  if p.chars.contains '\x00' then .error .nulInName
  else if p.chars = [] then .error .noSuchFile
  else if bytes p.chars ≥ maxPathBytes then .error .nameTooLong
  else
    let start := if p.isAbsolute then [] else d.cwd
    d.walk ending (d.walkFuel p) maxLinks start (Path.segments p.chars)

def find? (d : Disk) (ending : Ending) (p : Path) : Except SystemError Inode := do
  let place ← d.place? ending p
  match d.inode? place with
  | some inode => .ok inode
  | none => .error .noSuchFile

/-! ### Answers -/

/-- Whether something is there, at the end of all links. -/
def isThere (d : Disk) (p : Path) : Bool :=
  match d.find? .follow p with
  | .ok _ => true
  | .error _ => false

/-- Whether a directory is there, at the end of all links. -/
def isDirectory (d : Disk) (p : Path) : Bool :=
  match d.find? .follow p with
  | .ok .directory => true
  | _ => false

def isLink (d : Disk) (p : Path) : Bool :=
  match d.find? .keep p with
  | .ok (.link _) => true
  | _ => false

def read (d : Disk) (p : Path) : Except SystemError String := do
  match ← d.find? .follow p with
  | .file content => .ok content
  | .binary => .error .notText
  | .directory => .error .isADirectory
  | .link _ => .error .tooManyLinks

def listed (place : Place) (inode : Inode) : Listed :=
  let kind : FileKind :=
    match inode with
    | .link _ => .link
    | .directory => .directory
    | .file _ | .binary => .file
  ⟨String.ofList ((place.getLast?).getD []), kind⟩

def list (d : Disk) (p : Path) : Except FileError (List Listed) :=
  match d.place? .follow p with
  | .error _ => .error (.listFailed p)
  | .ok place =>
    if d.inode? place ≠ some .directory then .error (.listFailed p)
    else
      let children := d.inodes.filter fun (k, _) => k != [] && k.dropLast == place
      .ok (Listed.sort (children.map fun (k, inode) => listed k inode))

/-- The path at the end of all links. -/
def resolve (d : Disk) (p : Path) : Except FileError Path :=
  match d.place? .follow p with
  | .error _ => .error (.resolveFailed p)
  | .ok place => .ok (pathOfPlace place)

def fileSystem (d : Disk) : FileSystem :=
  { isThere := d.isThere
    isDirectory := d.isDirectory
    isLink := d.isLink
    readText := fun p => (d.read p).mapError fun _ => .readFailed p
    list := d.list
    resolve := d.resolve }

/-! ### Writing -/

def put (d : Disk) (place : Place) (inode : Inode) : Disk :=
  { d with inodes := d.inodes.filter (·.1 != place) ++ [(place, inode)] }

/-- The directory that a path leads to, and the name of the child that it means there. -/
def parentPlace? (d : Disk) (p : Path) : Except SystemError (Place × List Char) := do
  match p.fileName? with
  | none => .error .isADirectory
  | some name =>
    let above := (p.parent?).getD ⟨[]⟩
    let above : Path := if above.chars = [] then ⟨['.']⟩ else above
    let place ← d.place? .follow above
    if d.inode? place ≠ some .directory then .error .notADirectory else .ok (place, name)

/-- Writes a file, at the end of all links. -/
def write (d : Disk) (p : Path) (inode : Inode) : Except SystemError Disk := do
  let place ← d.place? .create p
  if d.inode? place = some .directory then .error .isADirectory else .ok (d.put place inode)

def makeDirectories (d : Disk) (p : Path) : Disk :=
  (p.ancestors.reverse).foldl
    (fun d q => if q.chars = [] ∨ d.isThere q then d
      else match d.parentPlace? q with
        | .ok (place, name) => d.put (place ++ [name]) .directory
        | .error _ => d)
    d

/-- Makes a link, unless something is there. -/
def makeLink (d : Disk) (p : Path) (target : List Char) : Disk :=
  match d.parentPlace? p with
  | .ok (place, name) =>
    if (d.inode? (place ++ [name])).isSome then d else d.put (place ++ [name]) (.link target)
  | .error _ => d

end Disk

end Buildpath
