import Buildpath.Tool.Basic

/-!
# A tool with given answers

A build tool that answers from a table and remembers how it was used: how often it was queried and
asked to check, and which targets it was told to forget.

Models the component `build_tool/mock`.
-/

namespace Buildpath

/-- The table of answers and the record of their use. -/
structure Scripted where
  roots : OutputRoots
  workspaceRoot : Option Path
  /-- For each target the dependencies that it has, in the order in which they were given. -/
  units : List (String × Dependency)
  /-- The failure of every query, while there is one. -/
  queryFailure : Option Failure
  problems : List Problem
  available : Bool
  queries : Nat
  checks : Nat
  flushed : List String
deriving Repr

namespace Scripted

/-- A tool without dependencies, in a workspace at its execution root. -/
def ofRoots (roots : OutputRoots) : Scripted :=
  { roots, workspaceRoot := some roots.execRoot, units := [], queryFailure := none, problems := [],
    available := true, queries := 0, checks := 0, flushed := [] }

def addUnit (s : Scripted) (target : String) (d : Dependency) : Scripted :=
  { s with units := s.units ++ [(target, d)] }

def unitsOf (s : Scripted) (target : String) : List Dependency :=
  (s.units.filter (·.1 == target)).map (·.2)

def metadata (s : Scripted) (targets : List String) : Metadata :=
  .ofList (targets.flatMap s.unitsOf)

def tool : BuildTool Scripted where
  workspaceRoot s := s.workspaceRoot
  startQuery r s := do
    Traced.emit (.queryStarted r.module r.targets.length r.operation)
    return { s with queries := s.queries + 1 }
  finishQuery r s :=
    match s.queryFailure with
    | some f => pure (.error f, s)
    | none => pure (.ok (s.metadata r.targets), s)
  check _ s := pure (.ok s.problems, { s with checks := s.checks + 1 })
  outputRoots s := pure (.ok s.roots, s)
  flush targets s := pure { s with flushed := s.flushed ++ targets }
  isAvailable s := pure (s.available, s)

end Scripted

end Buildpath
