import Buildpath.Json.Record

/-!
# Dependencies

What the build tool knows about one dependency of a target: its label, its source files as the tool
names them, and its archives. Archives come in pairs, the archive itself and the one that holds its
sources; those built for the target stand before those that were there already.

Models the dependencies of the component `model`.
-/

namespace Buildpath

/-- References to an archive and to the archive with its sources. -/
structure ArchivePair where
  primary : Option String
  sources : Option String
deriving DecidableEq, Repr

/-- The metadata of one dependency. -/
structure Dependency where
  label : String
  sources : List String
  generated : List ArchivePair
  jars : List ArchivePair
deriving DecidableEq, Repr

namespace ArchivePair

/-- The names of the fields; each may also be written under the shorter name. -/
def fieldNames : List (List String) :=
  [["primary", "jar"], ["sources", "source_jar"]]

/-- The pair as JSON; both members are always written. -/
def toJson (p : ArchivePair) : Json :=
  .object [("primary", .optionOf .string p.primary), ("sources", .optionOf .string p.sources)]

/-- The pair that JSON describes; both members may be left out. -/
def ofJson? (j : Json) : Option ArchivePair := do
  let fields ← Json.Fields.ofJson? fieldNames j
  let primary ← fields.withDefault none (Json.toOption? Json.toText?) 0
  let sources ← fields.withDefault none (Json.toOption? Json.toText?) 1
  return { primary, sources }

end ArchivePair

namespace Dependency

/-- All archives, those built for the target first. -/
def archives (d : Dependency) : List ArchivePair :=
  d.generated ++ d.jars

def fieldNames : List (List String) :=
  [["label"], ["sources"], ["generated_jars"], ["jars"]]

def toJson (d : Dependency) : Json :=
  .object [("label", .string d.label), ("sources", .listOf .string d.sources),
    ("generated_jars", .listOf ArchivePair.toJson d.generated),
    ("jars", .listOf ArchivePair.toJson d.jars)]

/-- The dependency that JSON describes; only the label has to be there. -/
def ofJson? (j : Json) : Option Dependency := do
  let fields ← Json.Fields.ofJson? fieldNames j
  let label ← fields.required Json.toText? 0
  let sources ← fields.withDefault [] (Json.toList? Json.toText?) 1
  let generated ← fields.withDefault [] (Json.toList? ArchivePair.ofJson?) 2
  let jars ← fields.withDefault [] (Json.toList? ArchivePair.ofJson?) 3
  return { label, sources, generated, jars }

end Dependency

end Buildpath
