import Buildpath.Json.Printer
import Buildpath.Report.Diagnostic

/-!
# Lines of the log

A diagnostic as one line: words for people, or a JSON object whose `fields` hold the message and
the named values.

Models the lines of the component `util/logging`, in a layout of its own.
-/

namespace Buildpath

namespace Detail

def shown : Detail → String
  | .text s => s
  | .flag b => if b then "true" else "false"
  | .count n => toString n

def toJson : Detail → Json
  | .text s => .string s
  | .flag b => .bool b
  | .count n => .integer n

end Detail

namespace Diagnostic

def toJson (d : Diagnostic) : Json :=
  .object [("level", .string d.level.name),
    ("fields", .object (("message", .string d.message) :: d.details.map fun (k, v) => (k, v.toJson))),
    ("target", .string d.area.target)]

def line (json : Bool) (d : Diagnostic) : String :=
  if json then d.toJson.compact
  else
    let details := d.details.map fun (key, value) => " " ++ key ++ "=" ++ value.shown
    d.level.name ++ " " ++ d.area.target ++ ": " ++ d.message ++ String.join details

end Diagnostic

end Buildpath
