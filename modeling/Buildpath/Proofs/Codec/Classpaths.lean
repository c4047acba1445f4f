import Buildpath.Proofs.Assembly.References
import Buildpath.Proofs.Codec.Records
import Buildpath.Proofs.Codec.Timestamps
import Buildpath.Rendering
import Mathlib.Data.Finset.Lattice.Lemmas

/-!
# Classpaths as JSON

A classpath is written as its entries and its time, and read by pushing the entries one by one. What
was built by pushing refers to each module once, so that pushing its entries again drops none of them
(`Classpath.ofEntries_of_nodup`). Whoever keeps an index of the modules beside the entries, as
`IndexedClasspath` does, need not write it: it comes back with the entries.
-/

namespace Buildpath

theorem Entry.mem_iff_mem_paths {l : List Entry} {path : String} :
    Entry.module path ∈ l ↔ path ∈ l.filterMap Entry.modulePath? := by
  rw [List.mem_filterMap]
  constructor
  · intro h
    exact ⟨_, h, rfl⟩
  · rintro ⟨e, he, hpath⟩
    cases e with
    | module p =>
      cases hpath
      exact he
    | library archive sources => cases hpath

namespace Classpath

variable {c : Classpath}

/-! ### Normal classpaths -/

/-- Modules are referred to once, and the time is one that a calendar shows. -/
structure IsNormal (c : Classpath) : Prop where
  nodup : c.modulePaths.Nodup
  proper : c.resolvedAt.IsProper

theorem containsModule_iff_mem {path : String} :
    c.containsModule path = true ↔ path ∈ c.modulePaths := by
  unfold containsModule modulePaths
  rw [List.contains_iff_mem]
  exact Entry.mem_iff_mem_paths

theorem modulePaths_pushModule (path : String) :
    (c.pushModule path).modulePaths =
      if path ∈ c.modulePaths then c.modulePaths else c.modulePaths ++ [path] := by
  by_cases h : path ∈ c.modulePaths
  · rw [if_pos h, modulePaths, entries_pushModule, if_pos (containsModule_iff_mem.mpr h)]
    rfl
  · rw [if_neg h, modulePaths, entries_pushModule, if_neg (mt containsModule_iff_mem.mp h),
      List.filterMap_append]
    rfl

@[simp] theorem modulePaths_pushLibrary (archive : Path) (sources : Option Path) :
    (c.pushLibrary archive sources).modulePaths = c.modulePaths := by
  unfold modulePaths
  rw [entries_pushLibrary, List.filterMap_append]
  exact List.append_nil _

@[simp] theorem resolvedAt_pushModule (path : String) :
    (c.pushModule path).resolvedAt = c.resolvedAt := by
  unfold pushModule
  split <;> rfl

theorem IsNormal.empty {now : Timestamp} (h : now.IsProper) : (empty now).IsNormal :=
  ⟨List.nodup_nil, h⟩

theorem IsNormal.pushModule (h : c.IsNormal) (path : String) : (c.pushModule path).IsNormal := by
  refine ⟨?_, (resolvedAt_pushModule (c := c) path).symm ▸ h.proper⟩
  rw [modulePaths_pushModule]
  split
  · exact h.nodup
  · rename_i hnew
    refine List.nodup_append.mpr ⟨h.nodup, List.nodup_singleton _, fun a ha b hb heq => hnew ?_⟩
    rw [← List.mem_singleton.mp hb, ← heq]
    exact ha

theorem IsNormal.pushLibrary (h : c.IsNormal) (archive : Path) (sources : Option Path) :
    (c.pushLibrary archive sources).IsNormal :=
  ⟨(modulePaths_pushLibrary archive sources).symm ▸ h.nodup, h.proper⟩

theorem IsNormal.push (h : c.IsNormal) (e : Entry) : (c.push e).IsNormal := by
  cases e with
  | module path => exact h.pushModule path
  | library archive sources => exact h.pushLibrary archive sources

theorem isNormal_ofEntries {now : Timestamp} (h : now.IsProper) (entries : List Entry) :
    (ofEntries now entries).IsNormal := by
  induction entries using List.reverseRecOn with
  | nil => exact .empty h
  | append_singleton entries e ih =>
    unfold ofEntries at ih ⊢
    rw [List.foldl_append]
    exact ih.push e

/-- Entries that refer to each module once are all kept. -/
theorem ofEntries_of_nodup (h : c.modulePaths.Nodup) : ofEntries c.resolvedAt c.entries = c := by
  obtain ⟨entries, now⟩ := c
  -- Entries are pushed at the end, so the induction takes them off there.
  induction entries using List.reverseRecOn with
  | nil => rfl
  | append_singleton entries e ih =>
    unfold modulePaths at h ih
    rw [List.filterMap_append] at h
    obtain ⟨hentries, -, hdisjoint⟩ := List.nodup_append.mp h
    have ih := ih hentries
    unfold ofEntries at ih ⊢
    rw [List.foldl_append, ih]
    cases e with
    | library archive sources => rfl
    | module path =>
      have hnew : path ∉ modulePaths ⟨entries, now⟩ := fun hmem =>
        hdisjoint path hmem path List.mem_cons_self rfl
      show pushModule ⟨entries, now⟩ path = _
      unfold pushModule
      rw [if_neg (mt containsModule_iff_mem.mp hnew)]

/-! ### Documents -/

theorem ofJson?_toJson (h : c.IsNormal) : ofJson? c.toJson = some c := by
  have hentries : Json.toList? (Entry.ofJson? 2) (Json.listOf Entry.toJson c.entries) =
      some c.entries :=
    Json.toList?_listOf fun e _ => e.ofJson?_toJson (by decide)
  have htime : timestampOf? (.string c.resolvedAt.text) = some c.resolvedAt := by
    unfold timestampOf?
    rw [Json.toText?_string, Option.bind_eq_bind, Option.bind_some]
    exact Timestamp.parse?_text h.proper
  unfold ofJson? toJson
  rw [Json.Fields.ofJson?_of_inOrder rfl]
  simp [Json.Fields.required, Json.Fields.get?, hentries, htime, ofEntries_of_nodup h.nodup]

/-- Reading a document does not look at the name of the module. -/
theorem ofJson?_documentOf (module : String) (c : Classpath) :
    ofJson? (c.documentOf module) = ofJson? c.toJson := rfl

theorem proper_of_timestampOf? {j : Json} {t : Timestamp} (h : timestampOf? j = some t) :
    t.IsProper := by
  obtain ⟨text, -, htext⟩ := Option.bind_eq_some_iff.mp h
  exact Timestamp.isProper_of_parse? htext

theorem isNormal_of_ofJson? {j : Json} (h : ofJson? j = some c) : c.IsNormal := by
  obtain ⟨fields, -, h⟩ := Option.bind_eq_some_iff.mp h
  obtain ⟨entries, -, h⟩ := Option.bind_eq_some_iff.mp h
  obtain ⟨resolvedAt, htime, h⟩ := Option.bind_eq_some_iff.mp h
  obtain ⟨time, -, htime⟩ := Option.bind_eq_some_iff.mp htime
  cases h
  exact isNormal_ofEntries (proper_of_timestampOf? htime) entries

/-! ### Reachable classpaths -/

/-- Classpaths built by pushing onto an empty or a loaded one. -/
inductive Reachable : Classpath → Prop
  | empty {now : Timestamp} (h : now.IsProper) : Reachable (empty now)
  | pushModule {c : Classpath} (h : Reachable c) (path : String) : Reachable (c.pushModule path)
  | pushLibrary {c : Classpath} (h : Reachable c) (archive : Path) (sources : Option Path) :
    Reachable (c.pushLibrary archive sources)
  | reload {j : Json} {c : Classpath} (h : ofJson? j = some c) : Reachable c

theorem Reachable.isNormal (h : c.Reachable) : c.IsNormal := by
  induction h with
  | empty h => exact .empty h
  | pushModule _ path ih => exact ih.pushModule path
  | pushLibrary _ archive sources ih => exact ih.pushLibrary archive sources
  | reload h => exact isNormal_of_ofJson? h

end Classpath

/-! ### The index of modules -/

/-- A classpath with the set of the modules that it refers to. -/
structure IndexedClasspath where
  entries : List Entry
  index : Finset String
  resolvedAt : Timestamp
deriving DecidableEq

namespace IndexedClasspath

def empty (now : Timestamp) : IndexedClasspath :=
  ⟨[], ∅, now⟩

/-- Adds a reference to a module, unless the index has it. -/
def pushModule (x : IndexedClasspath) (path : String) : IndexedClasspath :=
  if path ∈ x.index then x
  else { x with entries := x.entries ++ [.module path], index := insert path x.index }

def pushLibrary (x : IndexedClasspath) (archive : Path) (sources : Option Path) :
    IndexedClasspath :=
  { x with entries := x.entries ++ [.library archive sources] }

def push (x : IndexedClasspath) : Entry → IndexedClasspath
  | .module path => x.pushModule path
  | .library archive sources => x.pushLibrary archive sources

/-- The classpath without its index. -/
def classpath (x : IndexedClasspath) : Classpath :=
  ⟨x.entries, x.resolvedAt⟩

/-- The index is not written. -/
def toJson (x : IndexedClasspath) : Json :=
  x.classpath.toJson

/-- The classpath that JSON describes, with the index that pushing its entries builds. -/
def ofJson? (j : Json) : Option IndexedClasspath := do
  let fields ← Json.Fields.ofJson? [["entries"], ["resolved_at"]] j
  let entries ← fields.required (Json.toList? (Entry.ofJson? 2)) 0
  let resolvedAt ← fields.required Classpath.timestampOf? 1
  return entries.foldl push (empty resolvedAt)

/-- The index holds the modules among the entries. -/
def IsIndexed (x : IndexedClasspath) : Prop :=
  x.index = x.classpath.modulePaths.toFinset

variable {x y : IndexedClasspath}

theorem IsIndexed.mem_iff (h : x.IsIndexed) {path : String} :
    path ∈ x.index ↔ path ∈ x.classpath.modulePaths := by
  rw [h, List.mem_toFinset]

theorem IsIndexed.ext (hx : x.IsIndexed) (hy : y.IsIndexed) (h : x.classpath = y.classpath) :
    x = y := by
  obtain ⟨entries, index, now⟩ := x
  obtain ⟨entries', index', now'⟩ := y
  obtain ⟨rfl, rfl⟩ := Classpath.mk.inj h
  obtain rfl : index = index' := hx.trans hy.symm
  rfl

theorem IsIndexed.classpath_pushModule (h : x.IsIndexed) (path : String) :
    (x.pushModule path).classpath = x.classpath.pushModule path := by
  unfold pushModule Classpath.pushModule
  by_cases hp : path ∈ x.index
  · rw [if_pos hp, if_pos (Classpath.containsModule_iff_mem.mpr (h.mem_iff.mp hp))]
  · rw [if_neg hp, if_neg (mt (fun hc => h.mem_iff.mpr (Classpath.containsModule_iff_mem.mp hc)) hp)]
    rfl

theorem IsIndexed.pushModule (h : x.IsIndexed) (path : String) : (x.pushModule path).IsIndexed := by
  unfold IsIndexed
  rw [h.classpath_pushModule, Classpath.modulePaths_pushModule]
  unfold IndexedClasspath.pushModule
  by_cases hp : path ∈ x.index
  · rw [if_pos hp, if_pos (h.mem_iff.mp hp)]
    exact h
  · rw [if_neg hp, if_neg (mt h.mem_iff.mpr hp), List.toFinset_append, ← h, Finset.insert_eq,
      Finset.union_comm]
    rfl

theorem IsIndexed.pushLibrary (h : x.IsIndexed) (archive : Path) (sources : Option Path) :
    (x.pushLibrary archive sources).IsIndexed := by
  unfold IsIndexed
  show x.index = (x.classpath.pushLibrary archive sources).modulePaths.toFinset
  rw [Classpath.modulePaths_pushLibrary]
  exact h

/-- Pushing does the same with an index as without one, and keeps the index. -/
theorem IsIndexed.foldl_push (h : x.IsIndexed) (entries : List Entry) :
    (entries.foldl push x).IsIndexed ∧
      (entries.foldl push x).classpath = entries.foldl Classpath.push x.classpath := by
  induction entries generalizing x with
  | nil => exact ⟨h, rfl⟩
  | cons e rest ih =>
    cases e with
    | module path =>
      obtain ⟨hindexed, hsame⟩ := ih (h.pushModule path)
      exact ⟨hindexed, hsame.trans (by rw [h.classpath_pushModule]; rfl)⟩
    | library archive sources => exact ih (h.pushLibrary archive sources)

theorem isIndexed_empty (now : Timestamp) : (empty now).IsIndexed := rfl

/-- Documents are read alike with and without an index. -/
theorem ofJson?_spec (j : Json) :
    (∀ x, ofJson? j = some x → x.IsIndexed) ∧
      (ofJson? j).map classpath = Classpath.ofJson? j := by
  unfold ofJson? Classpath.ofJson?
  cases Json.Fields.ofJson? [["entries"], ["resolved_at"]] j with
  | none => exact ⟨nofun, rfl⟩
  | some fields =>
    simp only [Option.bind_eq_bind, Option.bind_some]
    cases fields.required (Json.toList? (Entry.ofJson? 2)) 0 with
    | none => exact ⟨nofun, rfl⟩
    | some entries =>
      simp only [Option.bind_some]
      cases fields.required Classpath.timestampOf? 1 with
      | none => exact ⟨nofun, rfl⟩
      | some now =>
        obtain ⟨hindexed, hsame⟩ := (isIndexed_empty now).foldl_push entries
        exact ⟨fun x hx => Option.some.inj hx ▸ hindexed, congrArg some hsame⟩

/-- Indexed classpaths built by pushing onto an empty or a loaded one. -/
inductive Reachable : IndexedClasspath → Prop
  | empty {now : Timestamp} (h : now.IsProper) : Reachable (empty now)
  | pushModule {x : IndexedClasspath} (h : Reachable x) (path : String) :
    Reachable (x.pushModule path)
  | pushLibrary {x : IndexedClasspath} (h : Reachable x) (archive : Path) (sources : Option Path) :
    Reachable (x.pushLibrary archive sources)
  | reload {j : Json} {x : IndexedClasspath} (h : ofJson? j = some x) : Reachable x

theorem Reachable.isIndexed (h : x.Reachable) : x.IsIndexed := by
  induction h with
  | empty _ => exact isIndexed_empty _
  | pushModule _ path ih => exact ih.pushModule path
  | pushLibrary _ archive sources ih => exact ih.pushLibrary archive sources
  | reload h => exact (ofJson?_spec _).1 _ h

theorem Reachable.classpath (h : x.Reachable) : x.classpath.Reachable := by
  induction h with
  | empty h => exact .empty h
  | pushModule h path ih =>
    rw [h.isIndexed.classpath_pushModule]
    exact ih.pushModule path
  | pushLibrary _ archive sources ih => exact ih.pushLibrary archive sources
  | @reload j x h =>
    refine .reload (j := j) ?_
    rw [← (ofJson?_spec j).2, h]
    rfl

theorem exists_reachable_indexed {c : Classpath} (h : c.Reachable) :
    ∃ x : IndexedClasspath, x.Reachable ∧ x.classpath = c := by
  induction h with
  | empty h => exact ⟨_, .empty h, rfl⟩
  | pushModule _ path ih =>
    obtain ⟨x, hx, rfl⟩ := ih
    exact ⟨_, hx.pushModule path, hx.isIndexed.classpath_pushModule path⟩
  | pushLibrary _ archive sources ih =>
    obtain ⟨x, hx, rfl⟩ := ih
    exact ⟨_, hx.pushLibrary archive sources, rfl⟩
  | @reload j c h =>
    rw [← (ofJson?_spec j).2] at h
    obtain ⟨x, hx, rfl⟩ := Option.map_eq_some_iff.mp h
    exact ⟨x, .reload hx, rfl⟩

/-- A document of the classpath brings the index back. -/
theorem ofJson?_of_classpath (hx : x.IsIndexed) {j : Json}
    (h : Classpath.ofJson? j = some x.classpath) : ofJson? j = some x := by
  obtain ⟨hindexed, hsame⟩ := ofJson?_spec j
  obtain ⟨y, hy, hclasspath⟩ := Option.map_eq_some_iff.mp (hsame.trans h)
  rw [hy, (hindexed y hy).ext hx hclasspath]

end IndexedClasspath

/-! ### Round trips -/

namespace Classpath

theorem roundTrips : RoundTrips Reachable toJson ofJson? :=
  .of_valid (fun _ h => ofJson?_toJson h.isNormal) fun _ _ h => .reload h

theorem roundTrips_documentOf (module : String) :
    RoundTrips Reachable (documentOf module) ofJson? :=
  .of_valid (fun c h => (ofJson?_documentOf module c).trans (ofJson?_toJson h.isNormal))
    fun _ _ h => .reload h

end Classpath

namespace IndexedClasspath

theorem roundTrips : RoundTrips Reachable toJson ofJson? :=
  .of_valid (fun _ h => ofJson?_of_classpath h.isIndexed (Classpath.roundTrips.1 _ h.classpath))
    fun _ _ h => .reload h

theorem roundTrips_documentOf (module : String) :
    RoundTrips Reachable (fun x => x.classpath.documentOf module) ofJson? :=
  .of_valid (fun _ h =>
      ofJson?_of_classpath h.isIndexed ((Classpath.roundTrips_documentOf module).1 _ h.classpath))
    fun _ _ h => .reload h

end IndexedClasspath

/-- Every record is decoded from what its encoder writes, and whatever is decoded is written and read
again as it is. A classpath that was built by pushing and loading comes back with its index, also
from the document that is shown for it, by any reader of JSON that makes of the document's text the
document. -/
theorem documents_round_trip :
    RoundTrips (fun _ => True) ArchivePair.toJson ArchivePair.ofJson? ∧
    RoundTrips (fun _ => True) Dependency.toJson Dependency.ofJson? ∧
    (∀ depth, depth < Entry.nestingLimit →
      RoundTrips (fun _ => True) Entry.toJson (Entry.ofJson? depth)) ∧
    RoundTrips (fun _ => True) SourceRoot.toJson SourceRoot.ofJson? ∧
    RoundTrips (fun _ => True) Module.toJson Module.ofJson? ∧
    RoundTrips Problem.IsNumbered Problem.toJson Problem.ofJson? ∧
    RoundTrips (fun _ => True) OutputRoots.toJson OutputRoots.ofJson? ∧
    RoundTrips (fun _ => True) Manifest.moduleToJson Manifest.moduleOfJson? ∧
    RoundTrips (fun _ => True) Manifest.toJson Manifest.ofJson? ∧
    RoundTrips Classpath.Reachable Classpath.toJson Classpath.ofJson? ∧
    (∀ name, RoundTrips Classpath.Reachable (Classpath.documentOf name) Classpath.ofJson?) ∧
    RoundTrips IndexedClasspath.Reachable IndexedClasspath.toJson IndexedClasspath.ofJson? ∧
    (∀ name, RoundTrips IndexedClasspath.Reachable (fun x => x.classpath.documentOf name)
      IndexedClasspath.ofJson?) ∧
    (∀ c : Classpath, c.Reachable ↔ ∃ x : IndexedClasspath, x.Reachable ∧ x.classpath = c) ∧
    ∀ (read : String → Option Json) (name : String) (x : IndexedClasspath), x.Reachable →
      read (x.classpath.documentOf name).pretty = some (x.classpath.documentOf name) →
        (read (x.classpath.render .json name)).bind IndexedClasspath.ofJson? = some x := by
  refine ⟨.of_total ArchivePair.ofJson?_toJson, .of_total Dependency.ofJson?_toJson,
    fun depth hdepth => .of_total (Entry.ofJson?_toJson hdepth),
    .of_total SourceRoot.ofJson?_toJson, .of_total Module.ofJson?_toJson,
    .of_valid (fun _ => Problem.ofJson?_toJson) (fun _ _ => Problem.isNumbered_of_ofJson?),
    .of_total OutputRoots.ofJson?_toJson, .of_total Manifest.moduleOfJson?_moduleToJson,
    .of_total Manifest.ofJson?_toJson, Classpath.roundTrips, Classpath.roundTrips_documentOf,
    IndexedClasspath.roundTrips, IndexedClasspath.roundTrips_documentOf, fun c => ?_, ?_⟩
  · constructor
    · exact IndexedClasspath.exists_reachable_indexed
    · rintro ⟨x, hx, rfl⟩
      exact hx.classpath
  · intro read name x hx hread
    show (read (x.classpath.documentOf name).pretty).bind _ = _
    rw [hread]
    exact (IndexedClasspath.roundTrips_documentOf name).decode_encode x hx

/-- A classpath found in a second that was leapt; its module was pushed twice. -/
def leapClasspath : IndexedClasspath :=
  ((IndexedClasspath.empty ⟨1483228799, 1500000000⟩).pushModule "/core").pushModule "/core"

/-- What is shown for `leapClasspath`, line by line. -/
def leapText : String :=
  String.intercalate "\n" ["\x7b", "  \"module\": \"app\",", "  \"entries\": [", "    \x7b",
    "      \"kind\": \"module\",", "      \"path\": \"/core\"", "    \x7d", "  ],",
    "  \"resolved_at\": \"2016-12-31T23:59:60.500Z\"", "\x7d"]

/-- Reads `leapText` and nothing else. -/
def readLeapText (text : String) : Option Json :=
  if text = leapText then
    some (.object [("module", .string "app"),
      ("entries", .array [.object [("kind", .string "module"), ("path", .string "/core")]]),
      ("resolved_at", .string "2016-12-31T23:59:60.500Z")])
  else none

theorem documents_round_trip_of_leap_second :
    leapClasspath.Reachable ∧
    (readLeapText (leapClasspath.classpath.render .json "app")).bind IndexedClasspath.ofJson? =
      some leapClasspath ∧
    (Problem.ofJson? (.array [.string "A.code", .integer 3, .string "lost"])).bind
      (fun p => Problem.ofJson? p.toJson) = some ⟨"A.code", some 3, "lost"⟩ ∧
    0 < Entry.nestingLimit ∧
    Entry.ofJson? 0 (Entry.toJson (.module "/core")) = some (.module "/core") := by
  obtain ⟨-, -, hentry, -, -, hproblem, -, -, -, -, -, -, -, -, htext⟩ := documents_round_trip
  have hproper : Timestamp.IsProper ⟨1483228799, 1500000000⟩ :=
    ⟨by decide +kernel, by decide, by decide⟩
  have hreachable : leapClasspath.Reachable :=
    ((IndexedClasspath.Reachable.empty hproper).pushModule "/core").pushModule "/core"
  have htime : leapClasspath.resolvedAt.text = "2016-12-31T23:59:60.500Z" := by decide +kernel
  have hshown : (leapClasspath.classpath.documentOf "app").pretty = leapText := by decide +kernel
  have hread : readLeapText (leapClasspath.classpath.documentOf "app").pretty =
      some (leapClasspath.classpath.documentOf "app") := by
    unfold readLeapText
    rw [if_pos hshown, ← htime]
    rfl
  refine ⟨hreachable, htext _ "app" _ hreachable hread, ?_, by decide, ?_⟩
  · exact hproblem.decode_again (.array [.string "A.code", .integer 3, .string "lost"]) _ rfl
  · exact (hentry 0 (by decide)).decode_encode _ trivial

end Buildpath
