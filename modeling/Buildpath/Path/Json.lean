import Buildpath.Path.Basic
import Buildpath.Json.Record

/-!
# Paths in JSON

A path is written as the string that spells it.

Models the library `serde_json` on paths.
-/

namespace Buildpath.Path

def toJson (p : Path) : Json :=
  .string p.toString

def ofJson? (j : Json) : Option Path :=
  (Json.toText? j).map ofString

@[simp] theorem ofJson?_toJson (p : Path) : ofJson? p.toJson = some p := by
  simp [ofJson?, toJson, Json.toText?]

end Buildpath.Path
