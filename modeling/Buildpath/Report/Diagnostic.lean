/-!
# Diagnostics

A diagnostic is one line for the log: how severe it is, which part of the program speaks, a
message, and named values. What is shown of it is decided elsewhere; computing a result never
depends on it.

Models the diagnostics of the library `tracing`.
-/

namespace Buildpath

/-- How severe a diagnostic is. -/
inductive Level where
  | error
  | warn
  | info
  | debug
  | trace
deriving DecidableEq, Repr

namespace Level

def name : Level → String
  | .error => "ERROR"
  | .warn => "WARN"
  | .info => "INFO"
  | .debug => "DEBUG"
  | .trace => "TRACE"

def verbosity : Level → Nat
  | .error => 1
  | .warn => 2
  | .info => 3
  | .debug => 4
  | .trace => 5

end Level

/-- The part of the program that a diagnostic comes from. -/
inductive Area where
  | program
  | resolver
  | assembly
  | cache
  | archives
  | ownership
  | validity
  | tool
  | workspace
  | progress
deriving DecidableEq, Repr

namespace Area

def target : Area → String
  | .program => "cpresolve"
  | .resolver => "cpresolve::classpath"
  | .assembly => "cpresolve::classpath::assembler"
  | .cache => "cpresolve::classpath::cache"
  | .archives => "cpresolve::classpath::locator"
  | .ownership => "cpresolve::classpath::ownership"
  | .validity => "cpresolve::classpath::validity"
  | .tool => "cpresolve::build_tool::bazel"
  | .workspace => "cpresolve::workspace"
  | .progress => "cpresolve::progress::logging"

end Area

/-- A value attached to a diagnostic. -/
inductive Detail where
  | text (s : String)
  | flag (b : Bool)
  | count (n : Nat)
deriving DecidableEq, Repr

/-- One line for the log. -/
structure Diagnostic where
  level : Level
  area : Area
  message : String
  details : List (String × Detail)
deriving DecidableEq, Repr

end Buildpath
