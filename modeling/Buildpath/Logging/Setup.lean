import Buildpath.Logging.Filter
import Buildpath.Settings

/-!
# Setting up the log

How the log looks (`LogSetup`) and what it shows. The variable `RUST_LOG`, when it is set, replaces
the program's own filter: warnings of everyone, and the program itself up to the chosen level.

Models the component `util/logging`.
-/

namespace Buildpath

/-- How the log looks. -/
structure LogSetup where
  level : Level
  json : Bool
  showTarget : Bool
  showLocation : Bool
  showThreads : Bool
deriving DecidableEq, Repr

namespace LogSetup

def ofLevel (level : Level) : LogSetup :=
  ⟨level, false, true, false, false⟩

/-- One JSON object a line, with everything that can be shown. -/
def structured : LogSetup :=
  ⟨.info, true, true, true, true⟩

def levelOf? (name : String) : Option Level :=
  match String.ofList (Text.lowercase name.toList) with
  | "trace" => some .trace
  | "debug" => some .debug
  | "info" => some .info
  | "warn" => some .warn
  | "error" => some .error
  | _ => none

/-- The level of a name; names that are none stand for `info`. -/
def parseLevel (name : String) : Level :=
  (levelOf? name).getD .info

def wantsJson (env : Environment) : Bool :=
  env.lookup "CPRESOLVE_LOG_JSON" == some "true"

def ofEnvironment (env : Environment) : LogSetup :=
  { ofLevel (parseLevel ((env.lookup "CPRESOLVE_LOG_LEVEL").getD "info")) with
    json := wantsJson env }

def filter (s : LogSetup) (env : Environment) : Filter :=
  match env.lookup "RUST_LOG" with
  | some directives => .parse directives.toList
  | none => .ofDirectives [.ofCeiling (some .warn), .ofTarget Area.program.target s.level]

def jsonKeys (s : LogSetup) : List String :=
  ["fields"] ++ (if s.showLocation then ["filename"] else []) ++ ["level"] ++
    (if s.showLocation then ["line_number"] else []) ++
    (if s.showTarget then ["target"] else []) ++
    (if s.showThreads then ["threadId", "threadName"] else []) ++ ["timestamp"]

end LogSetup

end Buildpath
