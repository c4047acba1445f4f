import Buildpath.Path.Basic
import Buildpath.Timestamp.Basic

/-!
# Classpaths

A classpath is an ordered list of entries. An entry refers to another module of the workspace by
its full path, or to a library by the path of its archive. `Classpath.pushModule` keeps module
references distinct; libraries are kept as often as they are pushed.

Models the classpaths of the component `model`.
-/

namespace Buildpath

/-- One entry of a classpath. -/
inductive Entry where
  | module (path : String)
  | library (archive : Path) (sources : Option Path)
deriving DecidableEq, Repr

/-- The entries found by one pass, and when it ran. -/
structure Classpath where
  entries : List Entry
  resolvedAt : Timestamp
deriving DecidableEq, Repr, Inhabited

namespace Classpath

/-- The classpath without entries. -/
def empty (now : Timestamp) : Classpath :=
  ⟨[], now⟩

def containsModule (c : Classpath) (path : String) : Bool :=
  c.entries.contains (.module path)

/-- Adds a reference to a module, unless it is there already. -/
def pushModule (c : Classpath) (path : String) : Classpath :=
  if c.containsModule path then c else { c with entries := c.entries ++ [.module path] }

def pushLibrary (c : Classpath) (archive : Path) (sources : Option Path) : Classpath :=
  { c with entries := c.entries ++ [.library archive sources] }

def push (c : Classpath) : Entry → Classpath
  | .module path => c.pushModule path
  | .library archive sources => c.pushLibrary archive sources

/-- The classpath that results from pushing the entries in turn. -/
def ofEntries (now : Timestamp) (entries : List Entry) : Classpath :=
  entries.foldl push (empty now)

def size (c : Classpath) : Nat :=
  c.entries.length

/-- Whether both hold the same entries in the same order. Archives are compared as paths. -/
def sameEntry : Entry → Entry → Bool
  | .module p, .module q => p == q
  | .library a none, .library b none => a.components == b.components
  | .library a (some s), .library b (some t) =>
    a.components == b.components && s.components == t.components
  | _, _ => false

/-- Whether both classpaths hold the same entries, whenever they were found. -/
def sameEntries (c d : Classpath) : Bool :=
  go c.entries d.entries
where
  go : List Entry → List Entry → Bool
    | [], [] => true
    | a :: as, b :: bs => sameEntry a b && go as bs
    | _, _ => false

@[simp] theorem entries_pushLibrary (c : Classpath) (archive : Path) (sources : Option Path) :
    (c.pushLibrary archive sources).entries = c.entries ++ [.library archive sources] := rfl

theorem entries_pushModule (c : Classpath) (path : String) :
    (c.pushModule path).entries =
      if c.containsModule path then c.entries else c.entries ++ [.module path] := by
  unfold pushModule
  split <;> rfl

end Classpath

end Buildpath
