import Buildpath.Proofs.Ownership.Patterns
import Buildpath.Proofs.Text.Cutting

/-!
# The search for an owner

The owner of a list of sources is found in two levels. The sources are tried in their order, and for
each of them the modules in theirs; the first module that owns the source ends the search. So the
search over a list that is put together from two is the search over the first, and over the second
only if that finds nothing: in the sources for all modules at once, in the modules for one source at a
time (`first_source_then_first_module`). Sources that name no file and modules that exclude all of the
files leave no trace.
-/

namespace Buildpath

/-! ### Sources -/

/-- Nothing but blanks and quotation marks, apart from one `./`. -/
def IsBlankSource (source : String) : Prop :=
  ∃ before after, (∀ c ∈ before, Text.isBlank c = true) ∧ (∀ c ∈ after, Text.isBlank c = true) ∧
    (source.toList.filter (· != '"') = before ++ after ∨
      source.toList.filter (· != '"') = before ++ ['.', '/'] ++ after)

/-- A source names no file only if it is blank. -/
theorem sourceFile?_eq_none_iff (root : Path) (source : String) :
    sourceFile? root source = none ↔ IsBlankSource source := by
  have hnothing := @Text.trim_eq_iff (source.toList.filter (· != '"')) [] rfl rfl
  have hhere := @Text.trim_eq_iff (source.toList.filter (· != '"')) ['.', '/'] (by decide)
    (by decide)
  have hbare : sourceFile? root source = none ↔
      Text.trim (source.toList.filter (· != '"')) = [] ∨
        Text.trim (source.toList.filter (· != '"')) = ['.', '/'] := by
    unfold sourceFile?
    generalize Text.trim (source.toList.filter (· != '"')) = bare
    cases hs : Text.stripStart? ['.', '/'] bare with
    | none =>
      have hne : bare ≠ ['.', '/'] := by
        rintro rfl
        cases hs
      simp [hs, hne]
    | some rest =>
      have hwhole := Text.stripStart?_eq_some_iff.mp hs
      simp only [hs, Option.getD_some]
      rw [hwhole]
      simp
  rw [hbare, hnothing, hhere]
  simp only [List.append_nil, IsBlankSource]
  constructor
  · rintro (⟨before, after, hb, ha, h⟩ | ⟨before, after, hb, ha, h⟩)
    · exact ⟨before, after, hb, ha, Or.inl h⟩
    · exact ⟨before, after, hb, ha, Or.inr h⟩
  · rintro ⟨before, after, hb, ha, h | h⟩
    · exact Or.inl ⟨before, after, hb, ha, h⟩
    · exact Or.inr ⟨before, after, hb, ha, h⟩

/-- The source names a file, and the module owns it. -/
def Module.OwnsSource (root : Path) (m : Module) (source : String) : Prop :=
  ∃ file, sourceFile? root source = some file ∧ (m.owns file).value = true

instance (root : Path) (m : Module) (source : String) : Decidable (m.OwnsSource root source) :=
  match h : sourceFile? root source with
  | none => isFalse fun ⟨file, hfile, _⟩ => by
      rw [h] at hfile
      cases hfile
  | some file => decidable_of_iff ((m.owns file).value = true) <| by
      simp [Module.OwnsSource, h]

/-! ### The search -/

variable {root : Path} {sources : List String} {modules : List Module}

theorem owner_singleton (root : Path) (source : String) (modules : List Module) :
    (ownerOfSources root [source] modules).value =
      (sourceFile? root source).bind fun file => modules.find? fun m => (m.owns file).value := by
  unfold ownerOfSources ownerOfFile
  rw [Traced.firstSome_value]
  cases hs : sourceFile? root source with
  | none => simp [hs]
  | some file => simp [hs, Traced.find?_value]

theorem owner_eq_findSome? (root : Path) (sources : List String) (modules : List Module) :
    (ownerOfSources root sources modules).value =
      sources.findSome? fun source => (ownerOfSources root [source] modules).value := by
  induction sources with
  | nil => rfl
  | cons source rest ih =>
    rw [List.findSome?_cons, ← ih, owner_singleton]
    unfold ownerOfSources ownerOfFile
    rw [Traced.firstSome_value]
    cases hs : sourceFile? root source with
    | none => simp [hs, Traced.firstSome_value]
    | some file => simp [hs, Traced.firstSome_value, Traced.find?_value, List.findSome?_cons]

theorem owner_append (s t : List String) :
    (ownerOfSources root (s ++ t) modules).value =
      (ownerOfSources root s modules).value.or (ownerOfSources root t modules).value := by
  rw [owner_eq_findSome?, owner_eq_findSome? root s, owner_eq_findSome? root t,
    List.findSome?_append]

theorem owner_singleton_append (source : String) (M N : List Module) :
    (ownerOfSources root [source] (M ++ N)).value =
      (ownerOfSources root [source] M).value.or (ownerOfSources root [source] N).value := by
  simp only [owner_singleton]
  cases sourceFile? root source with
  | none => rfl
  | some file => exact List.find?_append

theorem owner_singleton_eq_some_iff {source : String} {m : Module} :
    (ownerOfSources root [source] modules).value = some m ↔ m.OwnsSource root source ∧
      ∃ before after, modules = before ++ m :: after ∧ ∀ n ∈ before, ¬ n.OwnsSource root source := by
  rw [owner_singleton]
  cases hs : sourceFile? root source with
  | none => simp [Module.OwnsSource, hs]
  | some file => simp [Module.OwnsSource, hs, List.find?_eq_some_iff_append]

theorem owner_singleton_eq_none_iff {source : String} :
    (ownerOfSources root [source] modules).value = none ↔
      ∀ m ∈ modules, ¬ m.OwnsSource root source := by
  rw [owner_singleton]
  cases hs : sourceFile? root source with
  | none => simp [Module.OwnsSource, hs]
  | some file => simp [Module.OwnsSource, hs]

theorem owner_eq_none_iff :
    (ownerOfSources root sources modules).value = none ↔
      ∀ source ∈ sources, ∀ m ∈ modules, ¬ m.OwnsSource root source := by
  rw [owner_eq_findSome?, List.findSome?_eq_none_iff]
  simp only [owner_singleton_eq_none_iff]

theorem owner_eq_some_iff {m : Module} :
    (ownerOfSources root sources modules).value = some m ↔
      ∃ earlier source later before after,
        sources = earlier ++ source :: later ∧ modules = before ++ m :: after ∧
        m.OwnsSource root source ∧
        (∀ s ∈ earlier, ∀ n ∈ modules, ¬ n.OwnsSource root s) ∧
        ∀ n ∈ before, ¬ n.OwnsSource root source := by
  rw [owner_eq_findSome?, List.findSome?_eq_some_iff]
  simp only [owner_singleton_eq_some_iff, owner_singleton_eq_none_iff]
  constructor
  · rintro ⟨earlier, source, later, hs, ⟨howns, before, after, hm, hbefore⟩, hearlier⟩
    exact ⟨earlier, source, later, before, after, hs, hm, howns, hearlier, hbefore⟩
  · rintro ⟨earlier, source, later, before, after, hs, hm, howns, hearlier, hbefore⟩
    exact ⟨earlier, source, later, hs, ⟨howns, before, after, hm, hbefore⟩, hearlier⟩

/-- A module that owns none of the sources can be left out. -/
theorem owner_without_module {m : Module} (before after : List Module)
    (h : ∀ source ∈ sources, ¬ m.OwnsSource root source) :
    (ownerOfSources root sources (before ++ m :: after)).value =
      (ownerOfSources root sources (before ++ after)).value := by
  induction sources with
  | nil => rfl
  | cons source rest ih =>
    obtain ⟨hfirst, hrest⟩ := List.forall_mem_cons.mp h
    have hnone : (ownerOfSources root [source] [m]).value = none :=
      owner_singleton_eq_none_iff.mpr fun n hn => List.mem_singleton.mp hn ▸ hfirst
    have hone : (ownerOfSources root [source] (before ++ m :: after)).value =
        (ownerOfSources root [source] (before ++ after)).value := by
      rw [List.append_cons, owner_singleton_append, owner_singleton_append, hnone, Option.or_none,
        ← owner_singleton_append]
    rw [← List.singleton_append, owner_append, owner_append, hone, ih hrest]

/-- Every source root that the file lies under has an exclusion pattern that covers it. -/
def Module.Excludes (m : Module) (file : Path) : Prop :=
  ∀ r ∈ m.sourceRoots, (r.path.below? file).isSome → r.Excludes file

theorem Module.owns_value_of_excludes {m : Module} {file : Path} (h : m.Excludes file) :
    (m.owns file).value = false := by
  rw [Bool.eq_false_iff, Ne, Module.owns_value_iff]
  rintro ⟨r, hr, howns⟩
  obtain ⟨relative, hbelow, -⟩ := SourceRoot.owns_value_iff.mp howns
  rw [SourceRoot.owns_value_of_excludes (h r hr (by rw [hbelow]; rfl))] at howns
  cases howns

/-- The owner is found source by source, and for each source module by module, and nothing else
counts. Where either list is cut in two, the first part decides if it decides at all. An owner that is
found owns a source; none of the modules owns an earlier one, and no earlier module owns this one. No
owner is found only if no module owns any source. A module that excludes the files hides none of them
from the modules after it, and a blank source makes no difference wherever it stands. -/
theorem first_source_then_first_module (root : Path) (sources : List String)
    (modules : List Module) :
    let owner (sources : List String) (modules : List Module) : Option Module :=
      (ownerOfSources root sources modules).value
    (∀ s t, owner (s ++ t) modules = (owner s modules).or (owner t modules)) ∧
    (∀ source M N, owner [source] (M ++ N) = (owner [source] M).or (owner [source] N)) ∧
    (∀ m, owner sources modules = some m ↔ ∃ earlier source later before after,
      sources = earlier ++ source :: later ∧ modules = before ++ m :: after ∧
      m.OwnsSource root source ∧ (∀ s ∈ earlier, ∀ n ∈ modules, ¬ n.OwnsSource root s) ∧
      ∀ n ∈ before, ¬ n.OwnsSource root source) ∧
    (owner sources modules = none ↔
      ∀ source ∈ sources, ∀ m ∈ modules, ¬ m.OwnsSource root source) ∧
    (∀ (m : Module) (before after : List Module),
      (∀ source ∈ sources, ∀ file, sourceFile? root source = some file → m.Excludes file) →
      owner sources (before ++ m :: after) = owner sources (before ++ after)) ∧
    (∀ source, sourceFile? root source = none ↔ IsBlankSource source) ∧
    (∀ source s t, IsBlankSource source →
      owner (s ++ source :: t) modules = owner (s ++ t) modules) := by
  intro owner
  refine ⟨owner_append, owner_singleton_append, fun m => owner_eq_some_iff, owner_eq_none_iff,
    fun m before after h => ?_, sourceFile?_eq_none_iff root, fun source s t h => ?_⟩
  · refine owner_without_module before after fun source hs => ?_
    rintro ⟨file, hfile, howns⟩
    rw [Module.owns_value_of_excludes (h source hs file hfile)] at howns
    cases howns
  · have hnone : (ownerOfSources root [source] modules).value = none := by
      rw [owner_singleton, (sourceFile?_eq_none_iff root source).mpr h, Option.bind_none]
    change (ownerOfSources root (s ++ source :: t) modules).value = _
    rw [List.append_cons, owner_append, owner_append, hnone, Option.or_none, ← owner_append]

/-- A file in the part of a folder that one module leaves to another, after a blank source. -/
theorem first_source_then_first_module_of_excluded :
    let around : Module :=
      ⟨"b", .ofString "/ws/shared", [⟨.ofString "/ws/shared", [], ["a/**"]⟩], []⟩
    let inner : Module :=
      ⟨"a", .ofString "/ws/shared/a", [⟨.ofString "/ws/shared/a", ["**/*.code"], []⟩], []⟩
    let source := "shared/a/x/Core.code"
    sourceFile? (.ofString "/ws") source = some (.ofString "/ws/shared/a/x/Core.code") ∧
      around.Excludes (.ofString "/ws/shared/a/x/Core.code") ∧
      IsBlankSource "\" ./\"" ∧
      (ownerOfSources (.ofString "/ws") ["\" ./\"", source] [around, inner]).value = some inner := by
  intro around inner source
  have hfile : sourceFile? (.ofString "/ws") source =
      some (.ofString "/ws/shared/a/x/Core.code") := by decide +kernel
  have hexcludes : around.Excludes (.ofString "/ws/shared/a/x/Core.code") := by
    intro r hr _
    rw [List.mem_singleton.mp hr]
    exact ⟨.ofString "a/x/Core.code", by decide +kernel, "a/**", List.mem_cons_self,
      by decide +kernel⟩
  have hblank : IsBlankSource "\" ./\"" :=
    ⟨[' '], [], fun c hc => by rw [List.mem_singleton.mp hc]; rfl,
      fun c hc => absurd hc List.not_mem_nil, Or.inr (by decide +kernel)⟩
  have hinner : (ownerOfSources (.ofString "/ws") [source] [inner]).value = some inner := by
    decide +kernel
  obtain ⟨-, -, -, -, hhidden, -⟩ :=
    first_source_then_first_module (.ofString "/ws") [source] [around, inner]
  obtain ⟨-, -, -, -, -, -, hignored⟩ :=
    first_source_then_first_module (.ofString "/ws") [source] [around, inner]
  refine ⟨hfile, hexcludes, hblank, ?_⟩
  refine (hignored _ [] [source] hblank).trans ?_
  refine (hhidden around [] [inner] fun s hs file hsame => ?_).trans hinner
  rw [List.mem_singleton.mp hs, hfile] at hsame
  cases hsame
  exact hexcludes

end Buildpath
