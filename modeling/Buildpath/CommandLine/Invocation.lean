import Buildpath.CommandLine.Scan
import Buildpath.Text.Quoted

/-!
# Invocations

What the program is asked to do: resolve the classpath of a module or check the module. Options
for the log may stand before the name of the command or after it; a log level after it counts more.

Models the component `cli/commands`.
-/

namespace Buildpath

/-- What is to be done with the module. -/
inductive Task where
  | resolve (output : Option Path)
  | check
deriving DecidableEq, Repr

/-- What the program is asked to do. -/
structure Invocation where
  task : Task
  module : String
  workspace : Path
  format : Format
  bazel : Option Path
  logLevel : Option String
  verbose : Bool
  quiet : Bool
deriving DecidableEq, Repr

namespace Invocation

open CommandLine

/-! ### Grammar -/

def commonWords : List (String × Key) :=
  [("log-level", .logLevel), ("verbose", .verbose), ("quiet", .quiet), ("help", .help)]

def commonLetters : List (Char × Key) :=
  [('v', .verbose), ('q', .quiet), ('h', .help)]

def commandNames : List String :=
  ["resolve", "check", "help"]

/-- What may stand before the name of the command. -/
def outerGrammar : Grammar :=
  ⟨commonWords ++ [("version", .version)], commonLetters ++ [('V', .version)], false, commandNames⟩

/-- What may follow the command `check`. -/
def checkGrammar : Grammar :=
  ⟨commonWords ++ [("workspace", .workspace), ("format", .format), ("bazel", .bazel)],
    commonLetters ++ [('w', .workspace), ('f', .format)], true, []⟩

/-- What may follow the command `resolve`. -/
def resolveGrammar : Grammar :=
  { checkGrammar with
    words := checkGrammar.words ++ [("output", .output)]
    letters := checkGrammar.letters ++ [('o', .output)] }

/-! ### Reading -/

/-- The manifest that is read unless another is named. -/
def defaultWorkspace : Path := .ofString "workspace.yaml"

def helpOn : List String → UsageError
  | [] => .helpRequested
  | [name] => if commandNames.contains name then .helpRequested else .unknownCommand
  | _ => .unknownCommand

def checkConflicts (l : Reading) : Except UsageError Unit :=
  if l.has .verbose && l.has .quiet then .error .conflict else .ok ()

/-- The level at its end. -/
def finish (l : Reading) : Except UsageError Reading := do
  let l ← l.settle
  checkConflicts l
  return l

def pathAt (l : Reading) (key : Key) : Option Path :=
  (l.given.lookup key).map .ofString

def ofReadings (isResolve : Bool) (outer inner : Reading) (module : String) : Invocation :=
  { task := if isResolve then .resolve (pathAt inner .output) else .check
    module
    workspace := (pathAt inner .workspace).getD defaultWorkspace
    format := ((inner.given.lookup .format).bind Format.ofName?).getD .human
    bazel := pathAt inner .bazel
    logLevel := (inner.given.lookup .logLevel).or (outer.given.lookup .logLevel)
    verbose := outer.has .verbose || inner.has .verbose
    quiet := outer.has .quiet || inner.has .quiet }

/-- What the arguments after the name of a command ask for. The options before it are looked at
last. -/
def ofCommand (isResolve : Bool) (outer : Reading) (arguments : List String) :
    Except UsageError Invocation := do
  let grammar := if isResolve then resolveGrammar else checkGrammar
  let inner ← finish (← scan grammar false arguments .empty).1
  match inner.given.lookup .module with
  | none => .error .missingArgument
  | some module => return ofReadings isResolve (← finish outer) inner module

/-- What the arguments ask for, the name of the program not being one of them. -/
def ofArguments (arguments : List String) : Except UsageError Invocation := do
  let (outer, command) ← scan outerGrammar false arguments .empty
  match command with
  | some ("resolve", rest) => ofCommand true outer rest
  | some ("check", rest) => ofCommand false outer rest
  | some (_, rest) => .error (helpOn rest)
  | none =>
    let outer ← outer.settle
    .error (if outer.given.isEmpty then .nothingGiven else .missingCommand)

/-! ### As text -/

def optionText : Option String → String
  | none => "None"
  | some s => "Some(" ++ Text.quotedString s ++ ")"

def formatText : Format → String
  | .json => "Json"
  | .yaml => "Yaml"
  | .human => "Human"

def flagText (b : Bool) : String :=
  if b then "true" else "false"

def text (i : Invocation) : String :=
  let shared :=
    "module: " ++ Text.quotedString i.module ++
      ", workspace: " ++ Text.quotedString i.workspace.toString ++
      ", format: " ++ formatText i.format ++
      ", bazel: " ++ optionText (i.bazel.map Path.toString)
  let command := match i.task with
    | .resolve output =>
      "Resolve(ResolveArgs \x7b " ++ shared ++ ", output: " ++
        optionText (output.map Path.toString) ++ " \x7d)"
    | .check => "Check(CheckArgs \x7b " ++ shared ++ " \x7d)"
  "CliArgs \x7b command: " ++ command ++ ", log_level: " ++ optionText i.logLevel ++
    ", verbose: " ++ flagText i.verbose ++ ", quiet: " ++ flagText i.quiet ++ " \x7d"

end Invocation

end Buildpath
