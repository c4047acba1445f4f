import Buildpath.Check
import Buildpath.Resolve.Assembly

/-!
# Checking modules

A module is valid when a build of its targets finds no problems. A module that stands for the
workspace has no targets and is valid as soon as the tool can be run; without a workspace root or
without a tool nothing is valid.

Models the component `classpath/validity`.
-/

namespace Buildpath.Assembler

variable {σ : Type}

def reportProblems (module : String) : List Problem → Traced Unit
  | [] => pure ()
  | p :: rest => do
    let line : String :=
      match p.line with
      | none => "None"
      | some n => "Some(" ++ toString n ++ ")"
    Traced.log .debug .validity p.description
      [("module", .text module), ("resource", .text p.resource), ("line", .text line)]
    reportProblems module rest

/-- Builds the targets of a module and reports what is wrong with them. -/
def checkTargets (a : Assembler σ) (module : String) (s : Scene σ) :
    Traced (CheckReport × Scene σ) := do
  let (answer, tool) ← a.tool.check (s.workspace.targetsOf module) s.tool
  let s := { s with tool }
  match answer with
  | .ok problems =>
    reportProblems module problems
    Traced.emit (.checkComplete module problems.length)
    return (.ofProblems module problems, s)
  | .error f =>
    Traced.log .error .validity "Unable to run build check"
      [("module", .text module), ("error", .text f.message)]
    return (.failed module f.message, s)

def check (a : Assembler σ) (module : String) (s : Scene σ) : Traced (CheckReport × Scene σ) := do
  if (a.tool.workspaceRoot s.tool).isNone then
    Traced.log .warn .validity "No Bazel workspace root, treating module as invalid"
      [("module", .text module)]
    return (.failed module "Bazel workspace root is not set", s)
  let (available, tool) ← a.tool.isAvailable s.tool
  let s := { s with tool }
  if !available then
    Traced.log .warn .validity "Bazel is not available, treating module as invalid"
      [("module", .text module)]
    return (.failed module "Bazel is not available", s)
  if Module.isWorkspaceName module then return (.clean module, s)
  a.checkTargets module s

end Buildpath.Assembler
