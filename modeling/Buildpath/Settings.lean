import Buildpath.Failure
import Buildpath.Path.Basic
import Buildpath.Text.Blank
import Buildpath.Text.Lowercase
import Buildpath.Text.Number

/-!
# Settings

What a resolver can be told from outside. Settings come from the environment
(`Settings.ofEnvironment`), where a value that cannot be understood counts as absent, and are
checked before use (`Settings.validate`); of several faults the first in a fixed order is reported.

Models the component `config`.
-/

namespace Buildpath

/-- A span of time, in nanoseconds. -/
structure Duration where
  nanos : Nat
deriving DecidableEq, Repr

namespace Duration

/-- That many milliseconds. -/
def ofMillis (n : Nat) : Duration := ⟨n * 1000000⟩

/-- That many microseconds. -/
def ofMicros (n : Nat) : Duration := ⟨n * 1000⟩

/-- The whole milliseconds in the span. -/
def millis (d : Duration) : Nat := d.nanos / 1000000

/-- The whole microseconds in the span. -/
def micros (d : Duration) : Nat := d.nanos / 1000

end Duration

/-- The variables of the environment and their values. -/
abbrev Environment := List (String × String)

/-- What a resolver can be told from outside. -/
structure Settings where
  cacheTimeout : Duration
  toolPath : Path
  workspaceRoot : Option Path
  aspect : String
  /-- The first segment of references to third-party outputs. -/
  externalMarker : String
  logLevel : String
deriving DecidableEq, Repr

namespace Settings

/-- The cache timeout when none is given, in milliseconds. -/
def defaultTimeoutMillis : Nat := 30000

/-- The longest cache timeout, in milliseconds. -/
def maxTimeoutMillis : Nat := 3600000

/-- The first segment of references to third-party outputs. -/
def defaultMarker : String := "external"

/-- The label of the aspect when none is given. -/
def defaultAspect : String := "@cpresolve_aspect//:aspect.bzl%cpresolve_aspect"

def numberBound : Nat := Nat.pow 2 64

def ofEnvironment (env : Environment) : Settings :=
  let millis := (env.lookup "CPRESOLVE_CACHE_TIMEOUT_MS").bind fun v =>
    Text.natBelow? numberBound v.toList
  let level := (env.lookup "CPRESOLVE_LOG_LEVEL").getD "info"
  { cacheTimeout := .ofMillis (millis.getD defaultTimeoutMillis)
    toolPath := .ofString ((env.lookup "CPRESOLVE_BAZEL_PATH").getD "bazel")
    workspaceRoot := (env.lookup "CPRESOLVE_WORKSPACE_ROOT").map Path.ofString
    aspect := (env.lookup "CPRESOLVE_ASPECT").getD defaultAspect
    externalMarker := defaultMarker
    logLevel := String.ofList (Text.lowercase level.toList) }

/-! ### Checking -/

/-- What may be wrong with settings. -/
inductive Fault where
  | timeoutTooShort
  | timeoutTooLong
  | noToolPath
  | noAspect
  | unknownLevel (name : String)
deriving DecidableEq, Repr

namespace Fault

def message : Fault → String
  | .timeoutTooShort => "Cache timeout must be at least 1 millisecond"
  | .timeoutTooLong => "Cache timeout cannot exceed 1 hour"
  | .noToolPath => "Bazel path cannot be empty"
  | .noAspect => "Aspect label cannot be empty"
  | .unknownLevel name =>
    "Invalid log level: " ++ name ++ ". Valid options: trace, debug, info, warn, error"

def report (f : Fault) : String :=
  "Configuration validation failed: " ++ f.message

end Fault

def levelNames : List String :=
  ["trace", "debug", "info", "warn", "error"]

/-- The first fault of the settings, if they have one. -/
def validate (s : Settings) : Except Fault Unit :=
  if s.cacheTimeout.nanos = 0 then .error .timeoutTooShort
  else if (Duration.ofMillis maxTimeoutMillis).nanos < s.cacheTimeout.nanos then
    .error .timeoutTooLong
  else if s.toolPath.chars = [] then .error .noToolPath
  else if Text.isBlankText s.aspect.toList then .error .noAspect
  else if s.logLevel ∉ levelNames then .error (.unknownLevel s.logLevel)
  else .ok ()

/-- The workspace root, without which the tool cannot be run. -/
def requireRoot (s : Settings) : Except Failure Path :=
  match s.workspaceRoot with
  | some root => .ok root
  | none => .error (.toolUnavailable "Bazel workspace root is not configured")

def text (s : Settings) : String :=
  "Resolver Configuration:\n" ++
  "  Cache Timeout: " ++ toString s.cacheTimeout.millis ++ "ms\n" ++
  "  Bazel: " ++ s.toolPath.toString ++ "\n" ++
  (match s.workspaceRoot with
    | some root => "  Workspace Root: " ++ root.toString ++ "\n"
    | none => "") ++
  "  Aspect: " ++ s.aspect ++ "\n" ++
  "  Log Level: " ++ s.logLevel ++ "\n"

end Settings

end Buildpath
