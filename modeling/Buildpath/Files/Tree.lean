import Buildpath.Files.Basic

/-!
# File trees in memory

A tree maps paths, whatever their spelling, to files, directories and links. Relative paths are
meant below the tree's root. Adding an entry adds the directories above it and replaces what stood
at its path. A chain of links is followed for at most fifteen links; a longer one, like one that
ends nowhere or runs in a circle, leads to nothing. An entry may stand at a key that no `Path` has,
because a name in it is no text (`insertAt`); questions are asked about paths only.

Models the component `fs/mock`.
-/

namespace Buildpath

/-- What a tree holds at a path. -/
inductive Node where
  | file (content : String)
  | directory
  | link (target : Path)
deriving DecidableEq, Repr

namespace Node

def kind : Node → FileKind
  | .file _ => .file
  | .directory => .directory
  | .link _ => .link

end Node

/-- A file tree in memory. -/
structure Tree where
  root : Path
  /-- Each path, as components, stands once. -/
  nodes : List (List Component × Node)
deriving Repr

namespace Tree

/-- The tree without entries. -/
def empty (root : Path) : Tree := ⟨root, []⟩

def locate (t : Tree) (p : Path) : Path :=
  t.root.join p

/-- What stands at the path; links are not followed. -/
def node? (t : Tree) (p : Path) : Option Node :=
  t.nodes.lookup p.components

/-! ### Adding -/

def put (key : List Component) (node : Node) :
    List (List Component × Node) → List (List Component × Node)
  | [] => [(key, node)]
  | (k, n) :: rest => if k = key then (k, node) :: rest else (k, n) :: put key node rest

/-- Puts the node at the key, unless something is there. -/
def putNew (key : List Component) (node : Node) (nodes : List (List Component × Node)) :
    List (List Component × Node) :=
  if (nodes.lookup key).isSome then nodes else nodes ++ [(key, node)]

/-- The non-empty beginnings of a list, the shortest first. -/
def beginnings {α : Type} (l : List α) : List (List α) :=
  (List.range l.length).map fun i => l.take (i + 1)

/-- Makes a directory of the key and of each key above it, unless something is there. -/
def addDirectories (nodes : List (List Component × Node)) (key : List Component) :
    List (List Component × Node) :=
  (beginnings key).foldl (fun ns key => putNew key .directory ns) nodes

def insertAt (t : Tree) (key : List Component) (node : Node) : Tree :=
  { t with nodes := put key node (addDirectories t.nodes key.dropLast) }

def insert (t : Tree) (p : Path) (node : Node) : Tree :=
  t.insertAt p.components node

def addFile (t : Tree) (p : Path) (content : String) : Tree :=
  t.insert (t.locate p) (.file content)

def addDirectory (t : Tree) (p : Path) : Tree :=
  t.insert (t.locate p) .directory

/-- Adds a link; nothing has to be at its target. -/
def addLink (t : Tree) (p target : Path) : Tree :=
  t.insert (t.locate p) (.link (t.locate target))

/-! ### Following links -/

/-- The most paths that are looked at in following a chain of links. -/
def maxSteps : Nat := 16

/-- Follows links from a path, looking at no more than `steps` paths. -/
def follow (t : Tree) : Nat → Path → Option (Path × Node)
  | 0, _ => none
  | steps + 1, p =>
    match t.node? p with
    | none => none
    | some (.link target) => t.follow steps target
    | some node => some (p, node)

/-- The path and the node at the end of all links. -/
def final? (t : Tree) (p : Path) : Option (Path × Node) :=
  t.follow maxSteps (t.locate p)

/-! ### Answers -/

/-- Whether something is there, at the end of all links. -/
def isThere (t : Tree) (p : Path) : Bool :=
  (t.final? p).isSome

/-- Whether a directory is there, at the end of all links. -/
def isDirectory (t : Tree) (p : Path) : Bool :=
  match t.final? p with
  | some (_, .directory) => true
  | _ => false

def isLink (t : Tree) (p : Path) : Bool :=
  match t.node? (t.locate p) with
  | some (.link _) => true
  | _ => false

def readText (t : Tree) (p : Path) : Except FileError String :=
  match t.final? p with
  | none => .error (.noFile p)
  | some (_, .file content) => .ok content
  | some _ => .error (.notAFile p)

/-- The name that a key ends with. It is empty when the key ends with no name, as after `..`, and when
the name is no text. -/
def lastName (key : List Component) : String :=
  match key.getLast? with
  | some (.name text) => String.ofList text
  | _ => ""

def isChildOf (parent key : List Component) : Bool :=
  key != [.root] && key != [] && key.dropLast == parent

def list (t : Tree) (p : Path) : Except FileError (List Listed) :=
  let key := (t.locate p).components
  if (t.nodes.lookup key).isNone then .error (.noDirectory (t.locate p))
  else
    .ok (Listed.sort ((t.nodes.filter fun (k, _) => isChildOf key k).map fun (k, node) =>
      ⟨lastName k, node.kind⟩))

/-- The path at the end of all links. -/
def resolve (t : Tree) (p : Path) : Except FileError Path :=
  match t.final? p with
  | none => .error (.noPath p)
  | some (q, _) => .ok q

def fileSystem (t : Tree) : FileSystem :=
  { isThere := t.isThere
    isDirectory := t.isDirectory
    isLink := t.isLink
    readText := t.readText
    list := t.list
    resolve := t.resolve }

end Tree

end Buildpath
