import Buildpath.Proofs.Codec.Repetitions
import Buildpath.Proofs.Rendering
import Buildpath.Proofs.Yaml.Outline

/-!
# What documents tell

What a text has to be like to be the document of a classpath or of the report of a check, in each of the
formats: read as JSON it gives back the members of the object, the outline of a YAML text shows them, and
a text for people has a heading and a line for each entry, or a mark that tells whether the module is
valid. Whatever is rendered is such a document (`Classpath.isDocument_render`,
`CheckReport.isDocument_render`).
-/

namespace Buildpath

/-! ### Classpaths -/

namespace Entry

/-- The members that follow the kind of an entry. -/
def fields : Entry → List (String × String)
  | .module path => [("path", path)]
  | .library archive none => [("archive", archive.toString)]
  | .library archive (some sources) =>
    [("archive", archive.toString), ("sources", sources.toString)]

theorem toJson_eq (e : Entry) :
    e.toJson = .object (("kind", .string e.tag) :: e.fields.map fun m => (m.1, .string m.2)) := by
  cases e with
  | module path => rfl
  | library archive sources => cases sources <;> rfl

theorem isOneLine_fields (e : Entry) : ∀ m ∈ e.fields, Yaml.IsOneLine (Yaml.keyText m.1) := by
  have hpath : Yaml.IsOneLine (Yaml.keyText "path") := by decide +kernel
  have harchive : Yaml.IsOneLine (Yaml.keyText "archive") := by decide +kernel
  have hsources : Yaml.IsOneLine (Yaml.keyText "sources") := by decide +kernel
  cases e with
  | module path => exact List.forall_mem_singleton.mpr hpath
  | library archive sources =>
    cases sources with
    | none => exact List.forall_mem_singleton.mpr harchive
    | some s => exact List.forall_mem_cons.mpr ⟨harchive, List.forall_mem_singleton.mpr hsources⟩

/-- The outline of the entries shows the kind of each. -/
theorem outline_items (l : List Entry) (rest : List Char) :
    Yaml.outline (Yaml.itemsText 0 (l.map toJson) ++ rest) =
      l.map (fun e => ("- kind: " ++ e.tag).toList) ++ Yaml.outline rest := by
  have hkey : Yaml.keyText "kind" = "kind".toList := by decide +kernel
  have htag : ∀ e : Entry, Yaml.firstLine (Yaml.stringText 4 e.tag) = e.tag.toList := by
    intro e
    cases e <;> (rw [tag]; decide +kernel)
  induction l with
  | nil => rfl
  | cons e l ih =>
    have hone : Yaml.IsOneLine (Yaml.keyText "kind") := by decide +kernel
    have hitem := Yaml.outline_item hone e.tag e.fields e.isOneLine_fields (l.map toJson) rest
    rw [← toJson_eq, hkey, htag, ih] at hitem
    rw [List.map_cons, hitem, List.map_cons, List.cons_append, String.toList_append]
    rfl

end Entry

namespace Classpath

/-- Whether a text is a document of the classpath of a module. -/
def IsDocument (module : String) (c : Classpath) : Format → String → Prop
  | .json, text =>
    Json.parse? text.toList = some (.object [("module", .string module),
      ("entries", .array (c.entries.map Entry.toJson)), ("resolved_at", .string c.resolvedAt.text)])
  | .yaml, text => ∃ name time,
    Yaml.outline text.toList = ("module: ".toList ++ name) ::
      ((if c.entries = [] then ["entries: []".toList]
        else "entries:".toList :: c.entries.map fun e => ("- kind: " ++ e.tag).toList) ++
      ["resolved_at: ".toList ++ time])
  | .human, text =>
    (c.entries = [] → text = heading module ++ "(no entries)\n") ∧
    (c.entries ≠ [] → ∃ lines time, Entry.Draws c.entries (lines.map String.toList) ∧
      text = heading module ++ unlines (lines ++
        ["", toString c.entries.length ++ " entries, resolved at " ++ time]))

/-- The outline of a YAML document: its members, and the items with their kinds. -/
theorem outline_yaml (module : String) (c : Classpath) :
    ∃ name time, Yaml.outline (c.render .yaml module).toList = ("module: ".toList ++ name) ::
      ((if c.entries = [] then ["entries: []".toList]
        else "entries:".toList :: c.entries.map fun e => ("- kind: " ++ e.tag).toList) ++
      ["resolved_at: ".toList ++ time]) := by
  have hmodule : Yaml.keyText "module" ++ [':', ' '] = "module: ".toList := by decide +kernel
  have hentries : Yaml.keyText "entries" = "entries".toList := by decide +kernel
  have htime : Yaml.keyText "resolved_at" ++ [':', ' '] = "resolved_at: ".toList := by
    decide +kernel
  have hkeys : ∀ key ∈ ["module", "entries", "resolved_at"], Yaml.IsPlainKey key := by
    decide +kernel
  let name := Yaml.firstLine (Yaml.stringText 2 module)
  let time := Yaml.firstLine (Yaml.stringText 2 c.resolvedAt.text)
  let last : List (String × Json) := [("resolved_at", .string c.resolvedAt.text)]
  let items : List Json := c.entries.map Entry.toJson
  have hlast : Yaml.outline (Yaml.membersText 0 last) = ["resolved_at: ".toList ++ time] := by
    rw [Yaml.outline_top_member (hkeys "resolved_at" (by decide)), ← htime, List.append_assoc]
    rfl
  have hitems : Yaml.outline (Yaml.membersText 0 (("entries", .array items) :: last)) =
      (if c.entries = [] then ["entries: []".toList]
        else "entries:".toList :: c.entries.map fun e => ("- kind: " ++ e.tag).toList) ++
      ["resolved_at: ".toList ++ time] := by
    have hkey := hkeys "entries" (by decide)
    by_cases hnone : c.entries = []
    · have hvalue : Yaml.valueText false 0 (.array items) = " []".toList ++ ['\n'] := by
        simp only [items, hnone]
        rw [List.map_nil, Yaml.valueText_nil]
        decide +kernel
      have hline : "entries".toList ++ ':' :: " []".toList = "entries: []".toList := by
        decide +kernel
      rw [Yaml.outline_short_member hkey hvalue (by decide), hlast, hentries, hline, if_pos hnone]
      rfl
    · have hne : items ≠ [] := fun hnil => hnone (List.map_eq_nil_iff.mp hnil)
      have hline : "entries".toList ++ [':'] = "entries:".toList := by decide +kernel
      rw [Yaml.outline_sequence hkey hne, Entry.outline_items, hlast, hentries, hline, if_neg hnone]
      rfl
  have htext : (c.render .yaml module).toList =
      Yaml.membersText 0 (("module", .string module) :: ("entries", .array items) :: last) :=
    String.toList_ofList
  refine ⟨name, time, ?_⟩
  rw [htext, Yaml.outline_top_member (hkeys "module" (by decide)), hitems, ← hmodule,
    List.append_assoc]
  rfl

/-- Every rendering is a document. -/
theorem isDocument_render (module : String) (c : Classpath) (format : Format) :
    c.IsDocument module format (c.render format module) := by
  cases format with
  | json =>
    have hplain : Json.isPlain (c.documentOf module) = true := by
      have hmembers := c.isPlain_toJson
      exact hmembers
    exact Json.parse?_pretty hplain
  | yaml => exact outline_yaml module c
  | human =>
    refine ⟨fun hnone => ?_, fun hne => ⟨Entry.treeLines c.entries, c.resolvedAt.secondsText,
      Entry.draws_treeLines c.entries, ?_⟩⟩
    · show c.humanText module = _
      rw [humanText_eq, bodyLines, if_pos (by rw [hnone]; rfl)]
      rfl
    · show c.humanText module = _
      rw [humanText_eq, bodyLines_of_entries hne]
      rfl

end Classpath

/-! ### Reports -/

namespace CheckReport

/-- Whether a text is a document of the report of a check. -/
def IsDocument (r : CheckReport) : Format → String → Prop
  | .json, text => ∃ more,
    r.toJson = .object (("module", .string r.module) :: ("valid", .bool r.valid) :: more) ∧
      Json.parse? text.toList = some r.toJson
  | .yaml, text => ∃ name more, Yaml.outline text.toList = ("module: ".toList ++ name) ::
      ("valid: " ++ if r.valid then "true" else "false").toList :: more
  | .human, text => ∃ more, text = (if r.valid then "\u2713 " else "\u2717 ") ++ r.module ++ more

theorem isPlain_toJson (r : CheckReport) : Json.isPlain r.toJson = true := by
  have hproblems (l : List Problem) : Json.areItemsPlain (l.map Problem.toJson) = true := by
    induction l with
    | nil => rfl
    | cons p rest ih =>
      rw [List.map_cons, Json.areItemsPlain, ih, Bool.and_true]
      obtain ⟨resource, line, description⟩ := p
      cases line with
      | none => rfl
      | some n => simp [Problem.toJson, Json.isPlain, Json.areMembersPlain, Json.optionOf]
  obtain ⟨module, valid, problems, error⟩ := r
  unfold toJson
  cases problems with
  | nil => cases error <;> rfl
  | cons p rest =>
    have hlist := hproblems (p :: rest)
    cases error <;> simp [Json.isPlain, Json.areMembersPlain, Json.listOf] <;> simpa using hlist

/-- The members after the first two. -/
def details (r : CheckReport) : List (String × Json) :=
  (if r.problems.isEmpty then [] else [("problems", .listOf Problem.toJson r.problems)]) ++
    match r.error with
    | none => []
    | some e => [("error", .string e)]

theorem toJson_eq (r : CheckReport) :
    r.toJson = .object (("module", .string r.module) :: ("valid", .bool r.valid) :: r.details) := by
  unfold toJson details
  rw [List.append_assoc]
  rfl

theorem outline_yaml (r : CheckReport) :
    ∃ name more, Yaml.outline (r.render .yaml).toList = ("module: ".toList ++ name) ::
      ("valid: " ++ if r.valid then "true" else "false").toList :: more := by
  have hmodule : Yaml.keyText "module" ++ [':', ' '] = "module: ".toList := by decide +kernel
  have hvalid : Yaml.keyText "valid" ++ [':', ' '] = "valid: ".toList := by decide +kernel
  have hkeys : ∀ key ∈ ["module", "valid"], Yaml.IsPlainKey key := by decide +kernel
  let word : String := if r.valid then "true" else "false"
  have hword : Yaml.valueText false 0 (.bool r.valid) = ' ' :: word.toList ++ ['\n'] ∧
      Yaml.IsOneLine (' ' :: word.toList) := by
    simp only [word]
    rw [Yaml.valueText_bool]
    cases r.valid <;> decide +kernel
  have htext : (r.render .yaml).toList =
      Yaml.membersText 0 (("module", .string r.module) :: ("valid", .bool r.valid) :: r.details) := by
    unfold render Json.yaml
    rw [String.toList_ofList, toJson_eq]
    rfl
  refine ⟨Yaml.firstLine (Yaml.stringText 2 r.module),
    Yaml.outline (Yaml.membersText 0 r.details), ?_⟩
  rw [htext, Yaml.outline_top_member (hkeys "module" (by decide)),
    Yaml.outline_short_member (hkeys "valid" (by decide)) hword.1 hword.2, String.toList_append,
    ← hmodule, ← hvalid, List.append_assoc, List.append_assoc]
  rfl

theorem isDocument_render (r : CheckReport) (format : Format) :
    r.IsDocument format (r.render format) := by
  cases format with
  | json => exact ⟨r.details, r.toJson_eq, Json.parse?_pretty r.isPlain_toJson⟩
  | yaml => exact r.outline_yaml
  | human =>
    show ∃ more, r.humanText = _
    unfold humanText
    cases r.valid with
    | true => exact ⟨" builds cleanly\n", by simp [String.append_assoc]⟩
    | false =>
      let lines := r.error.toList.map ("  " ++ ·) ++ r.problems.map problemLine
      have hfirst : Classpath.unlines ["\u2717 " ++ r.module ++ " is not valid"] =
          "\u2717 " ++ r.module ++ " is not valid\n" := by
        simp [Classpath.unlines, String.join, String.append_assoc]
      refine ⟨" is not valid\n" ++ Classpath.unlines lines, ?_⟩
      simp only [Bool.false_eq_true, if_false]
      rw [List.append_assoc, Classpath.unlines_append, hfirst]
      simp only [lines, String.append_assoc]

end CheckReport

end Buildpath
