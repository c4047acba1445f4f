import Buildpath.Classpath.Basic
import Buildpath.Path.Json
import Buildpath.Timestamp.Text

/-!
# Classpaths in JSON

An entry is an object whose member `kind` tells modules and libraries apart; as an array it starts
with the kind. An entry is read as a whole before its kind is known, so everything in it has to be
readable and its nesting is limited. Reading a classpath pushes the entries one by one, which drops
repeated module references.

Models the classpaths of the component `model` as the library `serde_json` writes and reads them.
-/

namespace Buildpath

namespace Entry

/-- The number of arrays and objects that may be open at once where values are kept. -/
def nestingLimit : Nat := 127

/-- The entry as JSON; `sources` is left out when there are none. -/
def toJson : Entry → Json
  | .module path => .object [("kind", .string "module"), ("path", .string path)]
  | .library archive none => .object [("kind", .string "library"), ("archive", archive.toJson)]
  | .library archive (some sources) =>
    .object [("kind", .string "library"), ("archive", archive.toJson),
      ("sources", sources.toJson)]

def moduleOf? (content : Json) : Option Entry := do
  let fields ← Json.Fields.ofJson? [["path"]] content
  return .module (← fields.required Json.toText? 0)

def libraryOf? (content : Json) : Option Entry := do
  let fields ← Json.Fields.ofJson? [["archive"], ["sources"]] content
  let archive ← fields.required Path.ofJson? 0
  let sources ← fields.omittable Path.ofJson? 1
  return .library archive sources

def ofKind? (kind : Json) (content : Json) : Option Entry :=
  match kind with
  | .string "module" => moduleOf? content
  | .string "library" => libraryOf? content
  | _ => none

/-- The member `kind`, which must stand once, and the other members. -/
def splitKind? (members : List (String × Json)) : Option (Json × List (String × Json)) :=
  match members.filter (·.1 == "kind") with
  | [(_, kind)] => some (kind, members.filter (·.1 != "kind"))
  | _ => none

/-- The entry that JSON describes, inside `depth` arrays and objects. -/
def ofJson? (depth : Nat) (j : Json) : Option Entry :=
  if j.isReadable && depth + j.height ≤ nestingLimit then
    match j with
    | .object members => do
      let (kind, rest) ← splitKind? members
      ofKind? kind (.object rest)
    | .array (kind :: rest) => ofKind? kind (.array rest)
    | _ => none
  else none

end Entry

namespace Classpath

def toJson (c : Classpath) : Json :=
  .object [("entries", .listOf Entry.toJson c.entries),
    ("resolved_at", .string c.resolvedAt.text)]

def timestampOf? (j : Json) : Option Timestamp := do
  Timestamp.parse? (← Json.toText? j).toList

def ofJson? (j : Json) : Option Classpath := do
  let fields ← Json.Fields.ofJson? [["entries"], ["resolved_at"]] j
  let entries ← fields.required (Json.toList? (Entry.ofJson? 2)) 0
  let resolvedAt ← fields.required timestampOf? 1
  return ofEntries resolvedAt entries

end Classpath

end Buildpath
