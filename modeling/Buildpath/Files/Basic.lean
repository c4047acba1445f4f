import Buildpath.Path.Parts
import Buildpath.Text.Quoted

/-!
# File systems

What may be asked of a file system (`FileSystem`), whatever holds the files, and why an answer may
be refused (`FileError`).

Models the component `fs/trait`.
-/

namespace Buildpath

/-- What stands at a path, not looking through links. -/
inductive FileKind where
  | file
  | directory
  | link
deriving DecidableEq, Repr

/-- One child of a listed directory. -/
structure Listed where
  name : String
  kind : FileKind
deriving DecidableEq, Repr

namespace Listed

/-- The name, with a slash after a directory's and an at sign after a link's. -/
def displayName (l : Listed) : String :=
  match l.kind with
  | .file => l.name
  | .directory => l.name ++ "/"
  | .link => l.name ++ "@"

/-- The children in the order of their names. -/
def sort (l : List Listed) : List Listed :=
  l.mergeSort fun a b => a.name ≤ b.name

end Listed

/-- Why a file system refuses an answer about a path. -/
inductive FileError where
  | noFile (path : Path)
  | notAFile (path : Path)
  | noDirectory (path : Path)
  | noPath (path : Path)
  | readFailed (path : Path)
  | listFailed (path : Path)
  | resolveFailed (path : Path)
deriving DecidableEq, Repr

namespace FileError

def shown (p : Path) : String :=
  String.ofList (Text.quoted p.chars)

def message : FileError → String
  | .noFile p => "File not found: " ++ shown p
  | .notAFile p => "Not a file: " ++ shown p
  | .noDirectory p => "Directory not found: " ++ shown p
  | .noPath p => "Path not found: " ++ shown p
  | .readFailed p => "Failed to read file " ++ shown p
  | .listFailed p => "Failed to read directory " ++ shown p
  | .resolveFailed p => "Failed to canonicalize path " ++ shown p

end FileError

/-- The questions that may be asked of a file system. -/
structure FileSystem where
  /-- Whether something is there, at the end of all links. -/
  isThere : Path → Bool
  /-- Whether a directory is there, at the end of all links. -/
  isDirectory : Path → Bool
  isLink : Path → Bool
  readText : Path → Except FileError String
  /-- The children of a directory, in the order of their names. -/
  list : Path → Except FileError (List Listed)
  /-- The path at the end of all links. -/
  resolve : Path → Except FileError Path

/-- Files that stay as they are, whatever the state is. -/
instance {σ : Type} : Coe FileSystem (σ → FileSystem) := ⟨fun files _ => files⟩

end Buildpath
