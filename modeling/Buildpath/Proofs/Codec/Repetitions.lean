import Buildpath.Proofs.Codec.Classpaths
import Buildpath.Proofs.Json.Reading
import Mathlib.Data.Finset.Card

/-!
# Repeated references are dropped

What was pushed is a list of entries; a classpath keeps the libraries of it and of each module the
first reference (`kept`). This is shown of pushing (`Classpath.entries_ofEntries`) and then of every
value with an index, however it came about: by pushing, by reading a document with repeated modules,
by writing the value as text and reading the text, in any order (`Built`). The index follows the
entries all the time, so that it answers for them (`IndexedClasspath.modules_are_listed_once`).
-/

namespace Buildpath

def Entry.isLibrary (e : Entry) : Bool :=
  e.modulePath?.isNone

/-! ### What is kept -/

/-- Whether the entry at the place is a library or the first reference to its module. -/
def isKept (l : List Entry) (place : Entry × ℕ) : Bool :=
  place.1.isLibrary || !(l.take place.2).contains place.1

/-- The libraries and the first reference to each module, in their order. -/
def kept (l : List Entry) : List Entry :=
  (l.zipIdx.filter (isKept l)).map Prod.fst

section Kept

variable {l : List Entry} {e : Entry} {path : String}

theorem kept_sublist (l : List Entry) : (kept l).Sublist l := by
  have hsub : (kept l).Sublist (l.zipIdx.map Prod.fst) := List.filter_sublist.map Prod.fst
  rw [List.zipIdx_map_fst] at hsub
  exact hsub

/-- Whether an entry is kept does not depend on what comes after it. -/
theorem isKept_append {place : Entry × ℕ} (h : place.2 ≤ l.length) (rest : List Entry) :
    isKept (l ++ rest) place = isKept l place := by
  unfold isKept
  rw [List.take_append_of_le_length h]

theorem kept_concat (l : List Entry) (e : Entry) :
    kept (l ++ [e]) = kept l ++ if isKept l (e, l.length) then [e] else [] := by
  have hbefore : l.zipIdx.filter (isKept (l ++ [e])) = l.zipIdx.filter (isKept l) := by
    apply List.filter_congr
    rintro ⟨d, i⟩ hd
    exact isKept_append (List.snd_lt_of_mem_zipIdx hd).le [e]
  have hlast : isKept (l ++ [e]) (e, l.length) = isKept l (e, l.length) :=
    isKept_append (Nat.le_refl _) [e]
  unfold kept
  rw [List.zipIdx_append, List.filter_append, List.map_append, hbefore, List.zipIdx_singleton,
    List.filter_singleton, Nat.zero_add, hlast]
  cases isKept l (e, l.length) <;> rfl

theorem kept_concat_of_known (h : Entry.module path ∈ l) : kept (l ++ [.module path]) = kept l := by
  have hdropped : isKept l (.module path, l.length) = false := by
    unfold isKept
    rw [List.take_length, List.contains_iff_mem.mpr h]
    rfl
  rw [kept_concat, hdropped]
  exact List.append_nil _

theorem kept_concat_of_new (h : Entry.module path ∉ l) :
    kept (l ++ [.module path]) = kept l ++ [.module path] := by
  have hkept : isKept l (.module path, l.length) = true := by
    unfold isKept
    rw [List.take_length, Bool.eq_false_iff.mpr (mt List.contains_iff_mem.mp h)]
    rfl
  rw [kept_concat, hkept]
  rfl

theorem kept_concat_library (l : List Entry) (archive : Path) (sources : Option Path) :
    kept (l ++ [.library archive sources]) = kept l ++ [.library archive sources] :=
  kept_concat l _

/-- Entries come one after the other: a library, a module that was there before or one that was not. -/
theorem entries_induction {motive : List Entry → Prop} (nil : motive [])
    (library : ∀ l archive sources, motive l → motive (l ++ [.library archive sources]))
    (known : ∀ l path, Entry.module path ∈ l → motive l → motive (l ++ [.module path]))
    (new : ∀ l path, Entry.module path ∉ l → motive l → motive (l ++ [.module path]))
    (l : List Entry) : motive l := by
  induction l using List.reverseRecOn with
  | nil => exact nil
  | append_singleton l e ih =>
    cases e with
    | library archive sources => exact library l archive sources ih
    | module path =>
      by_cases hpath : Entry.module path ∈ l
      · exact known l path hpath ih
      · exact new l path hpath ih

theorem mem_kept : e ∈ kept l ↔ e ∈ l := by
  induction l using entries_induction with
  | nil => exact Iff.rfl
  | library l archive sources ih => rw [kept_concat_library, List.mem_append, List.mem_append, ih]
  | known l path hpath ih =>
    rw [kept_concat_of_known hpath, ih, List.mem_append, List.mem_singleton]
    constructor
    · exact Or.inl
    · rintro (he | rfl)
      · exact he
      · exact hpath
  | new l path hpath ih => rw [kept_concat_of_new hpath, List.mem_append, List.mem_append, ih]

theorem filter_kept (l : List Entry) :
    (kept l).filter Entry.isLibrary = l.filter Entry.isLibrary := by
  induction l using entries_induction with
  | nil => rfl
  | library l archive sources ih =>
    rw [kept_concat_library, List.filter_append, List.filter_append, ih]
  | known l path hpath ih =>
    have hnothing : [Entry.module path].filter Entry.isLibrary = [] := rfl
    rw [kept_concat_of_known hpath, List.filter_append, ih, hnothing, List.append_nil]
  | new l path hpath ih =>
    rw [kept_concat_of_new hpath, List.filter_append, List.filter_append, ih]

/-- The full paths of the modules that the entries refer to. -/
def pathsIn (l : List Entry) : Finset String :=
  (l.filterMap Entry.modulePath?).toFinset

theorem mem_pathsIn : path ∈ pathsIn l ↔ Entry.module path ∈ l := by
  unfold pathsIn
  rw [List.mem_toFinset, Entry.mem_iff_mem_paths]

theorem pathsIn_concat_library (l : List Entry) (archive : Path) (sources : Option Path) :
    pathsIn (l ++ [.library archive sources]) = pathsIn l := by
  unfold pathsIn
  rw [List.filterMap_append]
  exact congrArg List.toFinset (List.append_nil _)

theorem pathsIn_concat_module (l : List Entry) (path : String) :
    pathsIn (l ++ [.module path]) = insert path (pathsIn l) := by
  unfold pathsIn
  rw [List.filterMap_append, List.toFinset_append, Finset.insert_eq, Finset.union_comm]
  rfl

theorem length_kept (l : List Entry) :
    (kept l).length = (l.filter Entry.isLibrary).length + (pathsIn l).card := by
  induction l using entries_induction with
  | nil => rfl
  | library l archive sources ih =>
    have hlibrary : [Entry.library archive sources].filter Entry.isLibrary =
      [.library archive sources] := rfl
    rw [kept_concat_library, pathsIn_concat_library, List.filter_append, List.length_append,
      List.length_append, ih, hlibrary, List.length_singleton]
    omega
  | known l path hpath ih =>
    have hnothing : [Entry.module path].filter Entry.isLibrary = [] := rfl
    have hmem : path ∈ pathsIn l := mem_pathsIn.mpr hpath
    rw [kept_concat_of_known hpath, pathsIn_concat_module, Finset.insert_eq_of_mem hmem,
      List.filter_append, hnothing, List.append_nil, ih]
  | new l path hpath ih =>
    have hnothing : [Entry.module path].filter Entry.isLibrary = [] := rfl
    have hnew : path ∉ pathsIn l := mt mem_pathsIn.mp hpath
    rw [kept_concat_of_new hpath, pathsIn_concat_module, Finset.card_insert_of_notMem hnew,
      List.filter_append, hnothing, List.append_nil, List.length_append, ih]
    rfl

end Kept

namespace Classpath

theorem containsModule_iff {c : Classpath} {path : String} :
    c.containsModule path = true ↔ Entry.module path ∈ c.entries :=
  List.contains_iff_mem

theorem ofEntries_concat (now : Timestamp) (l : List Entry) (e : Entry) :
    ofEntries now (l ++ [e]) = (ofEntries now l).push e := by
  unfold ofEntries
  rw [List.foldl_append]
  rfl

/-- Pushing keeps the libraries and the first reference to each module. -/
theorem entries_ofEntries (now : Timestamp) (l : List Entry) :
    (ofEntries now l).entries = kept l := by
  induction l using entries_induction with
  | nil => rfl
  | library l archive sources ih =>
    rw [ofEntries_concat, kept_concat_library, ← ih]
    rfl
  | known l path hpath ih =>
    have hmem : (ofEntries now l).containsModule path = true := by
      rw [containsModule_iff, ih, mem_kept]
      exact hpath
    rw [ofEntries_concat, push, entries_pushModule, if_pos hmem, kept_concat_of_known hpath, ih]
  | new l path hpath ih =>
    have hnew : ¬ (ofEntries now l).containsModule path = true := by
      rw [containsModule_iff, ih, mem_kept]
      exact hpath
    rw [ofEntries_concat, push, entries_pushModule, if_neg hnew, kept_concat_of_new hpath, ih]

theorem resolvedAt_ofEntries (now : Timestamp) (l : List Entry) :
    (ofEntries now l).resolvedAt = now := by
  induction l using List.reverseRecOn with
  | nil => rfl
  | append_singleton l e ih =>
    rw [ofEntries_concat]
    cases e with
    | library archive sources => exact ih
    | module path => exact (resolvedAt_pushModule path).trans ih

/-- What a document holds: the entries that it lists, with their repetitions, and the time. -/
structure Stored where
  entries : List Entry
  resolvedAt : Timestamp

def stored? (j : Json) : Option Stored := do
  let fields ← Json.Fields.ofJson? [["entries"], ["resolved_at"]] j
  let entries ← fields.required (Json.toList? (Entry.ofJson? 2)) 0
  let resolvedAt ← fields.required timestampOf? 1
  return ⟨entries, resolvedAt⟩

/-! ### Texts -/

theorem isPlain_toJson (c : Classpath) : Json.isPlain c.toJson = true := by
  have hentries (l : List Entry) : Json.areItemsPlain (l.map Entry.toJson) = true := by
    induction l with
    | nil => rfl
    | cons e rest ih =>
      rw [List.map_cons, Json.areItemsPlain, ih, Bool.and_true]
      cases e with
      | module path => rfl
      | library archive sources => cases sources <;> rfl
  unfold toJson Json.listOf
  rw [Json.isPlain, Json.areMembersPlain, Json.isPlain, hentries]
  rfl

end Classpath

namespace IndexedClasspath

variable {l : List Entry} {x y : IndexedClasspath} {path : String}

/-- The value as one line of text. -/
def text (x : IndexedClasspath) : String :=
  x.toJson.compact

def ofText? (text : String) : Option IndexedClasspath :=
  (Json.parse? text.toList).bind ofJson?

theorem Reachable.ofText?_text (h : x.Reachable) : ofText? x.text = some x := by
  have hread : Json.parse? x.text.toList = some x.toJson :=
    Json.parse?_compact x.classpath.isPlain_toJson
  unfold ofText?
  rw [hread]
  exact roundTrips.decode_encode x h

theorem Reachable.of_ofText? {text : String} (h : ofText? text = some x) : x.Reachable := by
  obtain ⟨j, -, hj⟩ := Option.bind_eq_some_iff.mp h
  exact .reload hj

/-- Reading a document pushes the entries that it lists. -/
theorem ofJson?_eq_stored (j : Json) :
    ofJson? j = (Classpath.stored? j).map fun s => s.entries.foldl push (empty s.resolvedAt) := by
  unfold ofJson? Classpath.stored?
  cases Json.Fields.ofJson? [["entries"], ["resolved_at"]] j with
  | none => rfl
  | some fields =>
    simp only [Option.bind_eq_bind, Option.bind_some]
    cases fields.required (Json.toList? (Entry.ofJson? 2)) 0 with
    | none => rfl
    | some entries =>
      simp only [Option.bind_some]
      cases fields.required Classpath.timestampOf? 1 with
      | none => rfl
      | some now => rfl

/-! ### The index -/

/-- Whether the index has the module. -/
def containsModule (x : IndexedClasspath) (path : String) : Bool :=
  decide (path ∈ x.index)

def size (x : IndexedClasspath) : ℕ :=
  x.entries.length

/-- Puts the module into the index and adds a reference if it was not there; answers whether it was
added. -/
def insertModule (x : IndexedClasspath) (path : String) : Bool × IndexedClasspath :=
  if path ∈ x.index then (false, { x with index := insert path x.index })
  else (true, { x with index := insert path x.index, entries := x.entries ++ [.module path] })

theorem insertModule_eq (x : IndexedClasspath) (path : String) :
    x.insertModule path = (!x.containsModule path, x.pushModule path) := by
  unfold insertModule pushModule containsModule
  by_cases h : path ∈ x.index
  · rw [if_pos h, if_pos h, decide_eq_true h, Finset.insert_eq_of_mem h]
    rfl
  · rw [if_neg h, if_neg h, decide_eq_false h]
    rfl

theorem IsIndexed.containsModule_eq (h : x.IsIndexed) (path : String) :
    x.containsModule path = x.classpath.containsModule path := by
  unfold containsModule
  rw [Bool.eq_iff_iff, decide_eq_true_iff, h.mem_iff, Classpath.containsModule_iff_mem]

theorem IsIndexed.containsModule_iff (h : x.IsIndexed) :
    x.containsModule path = true ↔ Entry.module path ∈ x.entries := by
  rw [h.containsModule_eq]
  exact Classpath.containsModule_iff

theorem IsIndexed.pushModule_of_mem (h : x.IsIndexed) (hpath : Entry.module path ∈ x.entries) :
    x.pushModule path = x :=
  if_pos (of_decide_eq_true (h.containsModule_iff.mpr hpath))

theorem IsIndexed.pushModule_of_not_mem (h : x.IsIndexed) (hpath : Entry.module path ∉ x.entries) :
    x.pushModule path =
      { x with entries := x.entries ++ [.module path], index := insert path x.index } :=
  if_neg fun hmem => hpath (h.containsModule_iff.mp (decide_eq_true hmem))

/-! ### What was pushed -/

/-- The value after the entries were pushed. A document pushes the entries that it lists; a value
that is written and read again has the history of the one that was written, as a copy has. -/
inductive Built : List Entry → IndexedClasspath → Prop
  | empty {now : Timestamp} (h : now.IsProper) : Built [] (empty now)
  | decoded {j : Json} {s : Classpath.Stored} {x : IndexedClasspath}
    (hs : Classpath.stored? j = some s) (hx : ofJson? j = some x) : Built s.entries x
  | pushModule {l : List Entry} {x : IndexedClasspath} (h : Built l x) (path : String) :
    Built (l ++ [.module path]) (x.insertModule path).2
  | pushLibrary {l : List Entry} {x : IndexedClasspath} (h : Built l x) (archive : Path)
    (sources : Option Path) :
    Built (l ++ [.library archive sources]) (x.pushLibrary archive sources)
  | reloaded {l : List Entry} {x y : IndexedClasspath} (h : Built l x)
    (hy : ofText? x.text = some y) : Built l y

theorem Built.reachable (h : Built l x) : x.Reachable := by
  induction h with
  | empty h => exact .empty h
  | decoded _ hx => exact .reload hx
  | pushModule _ path ih =>
    rw [insertModule_eq]
    exact ih.pushModule path
  | pushLibrary _ archive sources ih => exact ih.pushLibrary archive sources
  | reloaded _ hy _ => exact .of_ofText? hy

/-- However the value came about, it is what pushing the entries one after the other gives. -/
theorem Built.classpath_eq (h : Built l x) :
    x.classpath = Classpath.ofEntries x.resolvedAt l := by
  induction h with
  | empty h => rfl
  | @decoded j s x hs hx =>
    rw [ofJson?_eq_stored, hs] at hx
    obtain rfl := Option.some.inj hx
    have hsame := ((isIndexed_empty s.resolvedAt).foldl_push s.entries).2
    have htime := (congrArg Classpath.resolvedAt hsame).trans
      (Classpath.resolvedAt_ofEntries s.resolvedAt s.entries)
    exact hsame.trans (congrArg (Classpath.ofEntries · s.entries) htime.symm)
  | @pushModule l x hx path ih =>
    have hsame := hx.reachable.isIndexed.classpath_pushModule path
    have htime : (x.pushModule path).resolvedAt = x.resolvedAt :=
      (congrArg Classpath.resolvedAt hsame).trans (Classpath.resolvedAt_pushModule path)
    rw [insertModule_eq, htime, hsame, ih, Classpath.ofEntries_concat]
    rfl
  | @pushLibrary l x hx archive sources ih =>
    rw [Classpath.ofEntries_concat]
    exact congrArg (·.pushLibrary archive sources) ih
  | reloaded hx hy ih =>
    rw [hx.reachable.ofText?_text] at hy
    cases hy
    exact ih

theorem Built.entries_eq (h : Built l x) : x.entries = kept l := by
  have hentries := congrArg Classpath.entries h.classpath_eq
  rw [Classpath.entries_ofEntries] at hentries
  exact hentries

/-- Whatever text is read gives such a value. -/
theorem exists_built_of_ofText? {text : String} (h : ofText? text = some x) :
    ∃ j s, Json.parse? text.toList = some j ∧ Classpath.stored? j = some s ∧ Built s.entries x := by
  obtain ⟨j, hj, hx⟩ := Option.bind_eq_some_iff.mp h
  have hread := hx
  rw [ofJson?_eq_stored] at hread
  obtain ⟨s, hs, -⟩ := Option.map_eq_some_iff.mp hread
  exact ⟨j, s, hj, hs, .decoded hs hx⟩

/-- A value that was built by pushing, loading and copying, in any order and from any document,
refers to each module once, and answers for its entries whether it has a module. Pushing a module
answers yes if and only if there is no reference to it; then it adds one at the end, and otherwise it
changes nothing. Of all entries that were pushed the libraries are kept, as often as they were pushed,
and of each module the first reference, in the order in which they were pushed, and the size counts
what is kept. The value is read back from its text as it is, and it behaves as the classpath without
an index. -/
theorem modules_are_listed_once (h : Built l x) :
    x.classpath.modulePaths.Nodup ∧
    (∀ path, x.containsModule path = true ↔ Entry.module path ∈ x.entries) ∧
    (∀ path, (x.insertModule path).1 = true ↔ Entry.module path ∉ x.entries) ∧
    (∀ path, Entry.module path ∉ x.entries → (x.insertModule path).2 =
      { x with entries := x.entries ++ [.module path], index := insert path x.index }) ∧
    (∀ path, Entry.module path ∈ x.entries → (x.insertModule path).2 = x) ∧
    x.entries = kept l ∧ x.entries.Sublist l ∧ (∀ e, e ∈ x.entries ↔ e ∈ l) ∧
    x.entries.filter Entry.isLibrary = l.filter Entry.isLibrary ∧
    x.size = (kept l).length ∧
    x.size = (l.filter Entry.isLibrary).length + (pathsIn l).card ∧
    ofText? x.text = some x ∧
    x.classpath = Classpath.ofEntries x.resolvedAt l ∧
    (∀ path, x.containsModule path = x.classpath.containsModule path ∧
      (x.insertModule path).2.classpath = x.classpath.pushModule path) ∧
    ∀ text y, ofText? text = some y → ∃ j s, Json.parse? text.toList = some j ∧
      Classpath.stored? j = some s ∧ Built s.entries y := by
  have hindexed := h.reachable.isIndexed
  have hentries := h.entries_eq
  have hsize : x.size = (kept l).length := congrArg List.length hentries
  refine ⟨h.reachable.classpath.isNormal.nodup, fun path => hindexed.containsModule_iff,
    fun path => ?_, fun path hpath => ?_, fun path hpath => ?_, hentries, ?_, fun e => ?_, ?_,
    hsize, hsize.trans (length_kept l), h.reachable.ofText?_text, h.classpath_eq,
    fun path => ⟨hindexed.containsModule_eq path, ?_⟩, fun text y => exists_built_of_ofText?⟩
  · rw [insertModule_eq, ← hindexed.containsModule_iff, Bool.not_eq_true']
    exact Bool.eq_false_iff
  · rw [insertModule_eq]
    exact hindexed.pushModule_of_not_mem hpath
  · rw [insertModule_eq]
    exact hindexed.pushModule_of_mem hpath
  · rw [hentries]
    exact kept_sublist l
  · rw [hentries]
    exact mem_kept
  · rw [hentries]
    exact filter_kept l
  · rw [insertModule_eq]
    exact hindexed.classpath_pushModule path

/-- A document that refers to a module twice, before and after a library. -/
def repeatedText : String :=
  "\x7b\"entries\":[" ++
    "\x7b\"kind\":\"module\",\"path\":\"/core\"\x7d," ++
    "\x7b\"kind\":\"library\",\"archive\":\"/a.jar\"\x7d," ++
    "\x7b\"kind\":\"module\",\"path\":\"/core\"\x7d]," ++
    "\"resolved_at\":\"2016-12-31T23:59:60.500Z\"\x7d"

/-- The value that is read from it, and a library that it has already. -/
def repeatedClasspath : IndexedClasspath :=
  (IndexedClasspath.mk [.module "/core", .library (.ofString "/a.jar") none] {"/core"}
    ⟨1483228799, 1500000000⟩).pushLibrary (.ofString "/a.jar") none

def repeatedEntries : List Entry :=
  [.module "/core", .library (.ofString "/a.jar") none, .module "/core",
    .library (.ofString "/a.jar") none]

theorem modules_are_listed_once_of_repeated_text :
    Built repeatedEntries repeatedClasspath ∧
    repeatedClasspath.entries = kept repeatedEntries ∧
    repeatedClasspath.size = 3 ∧
    (repeatedClasspath.insertModule "/core").2 = repeatedClasspath ∧
    (repeatedClasspath.insertModule "/util").1 = true ∧
    ofText? repeatedClasspath.text = some repeatedClasspath := by
  have hread : ofText? repeatedText = some ⟨[.module "/core", .library (.ofString "/a.jar") none],
      {"/core"}, ⟨1483228799, 1500000000⟩⟩ := by
    decide +kernel
  have hlisted : (Json.parse? repeatedText.toList).bind
      (fun j => (Classpath.stored? j).map (·.entries)) = some (repeatedEntries.take 3) := by
    decide +kernel
  obtain ⟨j, s, hj, hs, hloaded⟩ := exists_built_of_ofText? hread
  rw [hj, Option.bind_some, hs] at hlisted
  obtain hentries : s.entries = repeatedEntries.take 3 := Option.some.inj hlisted
  rw [hentries] at hloaded
  have hbuilt : Built repeatedEntries repeatedClasspath :=
    hloaded.pushLibrary (.ofString "/a.jar") none
  obtain ⟨-, -, hinserted, -, hknown, hkept, -, -, -, -, hsize, htext, -, -, -⟩ :=
    modules_are_listed_once hbuilt
  refine ⟨hbuilt, hkept, hsize.trans ?_, hknown "/core" ?_, (hinserted "/util").mpr ?_, htext⟩ <;>
    decide +kernel

end IndexedClasspath

end Buildpath
