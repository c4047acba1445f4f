import Buildpath.Problem

/-!
# Reports of build checks

A check says of a module whether it builds: it does (`valid`), it has problems, or the check could
not be made at all.

Models the reports of the component `classpath/validity`.
-/

namespace Buildpath

/-- The outcome of a check. -/
structure CheckReport where
  module : String
  valid : Bool
  problems : List Problem
  /-- Why the check could not be made. -/
  error : Option String
deriving DecidableEq, Repr

namespace CheckReport

def clean (module : String) : CheckReport :=
  ⟨module, true, [], none⟩

/-- The check could not be made. -/
def failed (module error : String) : CheckReport :=
  ⟨module, false, [], some error⟩

def ofProblems (module : String) (problems : List Problem) : CheckReport :=
  ⟨module, problems.isEmpty, problems, none⟩

/-- The report as JSON; a list of problems and an error are left out when there are none. -/
def toJson (r : CheckReport) : Json :=
  .object ([("module", .string r.module), ("valid", .bool r.valid)] ++
    (if r.problems.isEmpty then [] else [("problems", .listOf Problem.toJson r.problems)]) ++
    (match r.error with
      | none => []
      | some e => [("error", .string e)]))

end CheckReport

end Buildpath
