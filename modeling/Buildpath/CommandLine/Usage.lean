import Buildpath.CommandLine.Scan

/-!
# Usage

What the program says about its own arguments.

Models the texts of the component `cli/commands`, in words of its own.
-/

namespace Buildpath.CommandLine

def helpText : String :=
  "Resolve the compile classpath of workspace modules from Bazel metadata\n\n" ++
  "Usage: cpresolve [OPTIONS] <COMMAND>\n\n" ++
  "Commands:\n" ++
  "  resolve <MODULE>  Resolve the classpath of a module\n" ++
  "  check <MODULE>    Check whether a module builds cleanly\n" ++
  "  help              Print this message\n\n" ++
  "Options:\n" ++
  "  -w, --workspace <FILE>    Workspace manifest (YAML or JSON)\n" ++
  "  -f, --format <FORMAT>     Output format: json, yaml or human\n" ++
  "      --bazel <PATH>        Bazel binary to run\n" ++
  "  -o, --output <FILE>       Write output to file (resolve only)\n" ++
  "      --log-level <LEVEL>   Set logging level\n" ++
  "  -v, --verbose             Enable debug logging\n" ++
  "  -q, --quiet               Show errors only\n" ++
  "  -h, --help                Print help\n" ++
  "  -V, --version             Print version\n"

/-- What is said of a mistake in the arguments; nothing of a request. -/
def UsageError.message : UsageError → String
  | .missingArgument => "error: a required argument is missing\n"
  | .unknownArgument => "error: an argument is not expected\n"
  | .unknownCommand => "error: there is no such command\n"
  | .invalidValue => "error: an option has no valid value\n"
  | .tooManyValues => "error: an option takes no value\n"
  | .conflict => "error: arguments cannot be used together\n"
  | .missingCommand => "error: a command is missing\n"
  | .nothingGiven => helpText
  | .helpRequested | .versionRequested => ""

end Buildpath.CommandLine
