import Buildpath.Rendering

/-!
# Reading arguments

The arguments of one level of the command line: those before the command's name, or those after
it. An option is one word with two hyphens, or a letter with one; letters may be joined, and a
value follows its option or is attached to it. After a lone `--` nothing is an option. A value is
only looked at when the next option or the end is reached, which decides which of two errors is
reported.

Models the library `clap` as far as the component `cli/commands` uses it.
-/

namespace Buildpath.CommandLine

/-- Why the arguments do not say what to do. -/
inductive UsageError where
  | missingArgument
  | unknownArgument
  | unknownCommand
  | invalidValue
  | tooManyValues
  | conflict
  | missingCommand
  /-- No arguments at all. -/
  | nothingGiven
  | helpRequested
  | versionRequested
deriving DecidableEq, Repr

namespace UsageError

/-- The exit code of the program; asking for help or the version is no mistake. -/
def exitCode : UsageError → Nat
  | .helpRequested | .versionRequested => 0
  | _ => 2

end UsageError

/-- What an argument sets. -/
inductive Key where
  | logLevel
  | verbose
  | quiet
  | help
  | version
  | module
  | workspace
  | format
  | bazel
  | output
deriving DecidableEq, Repr

namespace Key

def takesValue : Key → Bool
  | .verbose | .quiet | .help | .version => false
  | _ => true

def admits (key : Key) (value : String) : Bool :=
  match key with
  | .workspace | .bazel | .output => value != ""
  | .format => (Format.ofName? value).isSome
  | _ => true

end Key

/-- What may be given on a level. -/
structure Grammar where
  words : List (String × Key)
  letters : List (Char × Key)
  takesModule : Bool
  commands : List String
deriving Repr

/-- What has been given on a level. -/
structure Reading where
  given : List (Key × String)
  /-- What was read last, whose value is still to come or to be looked at. -/
  pending : Option (Key × Option String)
deriving DecidableEq, Repr

namespace Reading

/-- Nothing has been given. -/
def empty : Reading := ⟨[], none⟩

def awaitsValue (l : Reading) : Bool :=
  match l.pending with
  | some (_, none) => true
  | _ => false

def has (l : Reading) (key : Key) : Bool :=
  (l.given.lookup key).isSome

def hasModule (l : Reading) : Bool :=
  l.has .module || l.pending.any (·.1 == .module)

/-- Adds a value; each key is given once. -/
def accept (key : Key) (value : String) (l : Reading) : Except UsageError Reading :=
  if l.has key then .error .conflict
  else if key.admits value then .ok { l with given := l.given ++ [(key, value)] }
  else .error .invalidValue

/-- Looks at what was read last. -/
def settle (l : Reading) : Except UsageError Reading :=
  match l.pending with
  | none => .ok l
  | some (_, none) => .error .invalidValue
  | some (key, some value) => ({ l with pending := none } : Reading).accept key value

/-- Adds an option with its value, or one without. -/
def set (key : Key) (value : String) (l : Reading) : Except UsageError Reading := do
  let l ← l.settle
  match key with
  | .help => .error .helpRequested
  | .version => .error .versionRequested
  | key => l.accept key value

def await (key : Key) (value : Option String) (l : Reading) : Except UsageError Reading := do
  return { ← l.settle with pending := some (key, value) }

/-! ### One argument -/

def word (g : Grammar) (text : List Char) (l : Reading) : Except UsageError Reading :=
  let name := text.takeWhile (· != '=')
  let value? := match text.drop name.length with
    | _ :: value => some (String.ofList value)
    | [] => none
  match g.words.lookup (String.ofList name), value? with
  | none, _ => .error .unknownArgument
  | some key, some value =>
    if key.takesValue then l.set key value else .error .tooManyValues
  | some key, none => if key.takesValue then l.await key none else l.set key ""

/-- Reads joined letters; what follows one that takes a value is that value. -/
def letters (g : Grammar) : List Char → Reading → Except UsageError Reading
  | [], l => .ok l
  | c :: rest, l =>
    match g.letters.lookup c with
    | none => .error .unknownArgument
    | some key =>
      if !key.takesValue then do letters g rest (← l.set key "")
      else
        match rest with
        | [] => l.await key none
        | '=' :: value => l.set key (String.ofList value)
        | value => l.set key (String.ofList value)

/-- Reads an argument that is no option. -/
def name (g : Grammar) (afterOptions : Bool) (argument : String) (l : Reading) :
    Except UsageError Reading :=
  if g.takesModule && !l.hasModule then l.await .module (some argument)
  else if g.commands.isEmpty || (afterOptions && g.commands.contains argument) then
    .error .unknownArgument
  else .error .unknownCommand

/-- Reads an argument before any `--`. -/
def argument (g : Grammar) (text : String) (l : Reading) : Except UsageError Reading :=
  match text.toList, l.pending with
  | '-' :: '-' :: rest, _ => l.word g rest
  | '-' :: c :: rest, _ => l.letters g (c :: rest)
  | _, some (key, none) => .ok { l with pending := some (key, some text) }
  | _, _ => l.name g false text

end Reading

/-! ### All arguments -/

/-- Reads the arguments of a level, up to the name of a command; what follows that name is left. -/
def scan (g : Grammar) : Bool → List String → Reading →
    Except UsageError (Reading × Option (String × List String))
  | _, [], l => .ok (l, none)
  | true, a :: rest, l => do scan g true rest (← l.name g true a)
  | false, a :: rest, l =>
    if !l.awaitsValue && g.commands.contains a then .ok (l, some (a, rest))
    else if a = "--" then scan g true rest l
    else do scan g false rest (← l.argument g a)

end Buildpath.CommandLine
