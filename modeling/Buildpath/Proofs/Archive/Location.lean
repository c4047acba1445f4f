import Buildpath.Proofs.Assembly.Placement
import Buildpath.Proofs.Files.Links
import Buildpath.Proofs.Text.Cutting

/-!
# Where a reference leads

A reference to an archive that can be a path is located, whatever the files are: below the root that
its first segment selects, and at the end of the links if the path is a link that has an end. The
archive is present exactly if something is there, and one diagnostic is written exactly if it is not
(`location_follows_links`).
-/

namespace Buildpath

/-! ### References -/

namespace ArchiveFinder

/-- A reference that is not blank can be a path unless it holds a NUL. -/
theorem wellFormed_iff (declared : String) :
    WellFormed declared ↔ Text.trim declared.toList ≠ [] ∧ '\x00' ∉ declared.toList := by
  rw [WellFormed, Text.mem_trim_iff rfl]

variable (f : ArchiveFinder)

/-- The notices about a path: none, or one diagnostic if nothing is there. -/
theorem notices_probe (p : Path) : ∃ d : Diagnostic, d.level = .error ∧
    (f.probe p).notices = if f.isAbsent p then [.diagnostic d] else [] := by
  have hreport : ∀ reason, ∃ d : Diagnostic, d.level = .error ∧
      (f.reportMissing p reason).notices = [.diagnostic d] := fun reason => ⟨_, rfl, rfl⟩
  unfold probe isAbsent
  cases hl : f.files.isLink p with
  | true =>
    obtain ⟨d, hlevel, hd⟩ := hreport "symlink target does not exist"
    cases hr : f.files.resolve p with
    | ok target => exact ⟨d, hlevel, rfl⟩
    | error e => exact ⟨d, hlevel, by simp [Except.toOption, hd]⟩
  | false =>
    obtain ⟨d, hlevel, hd⟩ := hreport "file does not exist"
    cases ht : f.files.isThere p with
    | true => exact ⟨d, hlevel, rfl⟩
    | false => exact ⟨d, hlevel, by simp [hd]⟩

theorem locate_of_wellFormed {declared : String} (h : WellFormed declared) :
    f.locate declared = Except.ok <$> f.probe (f.spelled declared) := by
  rw [locate, pathOf_of_wellFormed f h]
  rfl

theorem locate_of_not_wellFormed {declared : String} (h : ¬ WellFormed declared) :
    ∃ e : ReferenceError, e.declared = declared ∧
      (e.fault = .blank ↔ Text.trim declared.toList = []) ∧
      f.locate declared = pure (.error e) := by
  obtain ⟨e, hdeclared, hfault, hpath⟩ := pathOf_of_not_wellFormed f h
  refine ⟨e, hdeclared, hfault, ?_⟩
  rw [locate, hpath]

end ArchiveFinder

/-! ### Files in a tree -/

namespace Tree

variable (t : Tree) (roots : OutputRoots) (marker : String) {p q : Path}

/-- What looks for archives in the tree. -/
def finder : ArchiveFinder :=
  ⟨t.fileSystem, roots, marker⟩

theorem isAbsent_finder (p : Path) : (t.finder roots marker).isAbsent p = !t.isThere p := by
  show (if t.isLink p then (t.resolve p).toOption.isNone else !t.isThere p) = _
  split
  · rw [Bool.eq_iff_iff]
    simp only [Option.isNone_iff_eq_none, Bool.not_eq_true', Bool.eq_false_iff, ne_eq, isThere_iff,
      ← resolve_eq_ok_iff]
    cases t.resolve p <;> simp [Except.toOption]
  · rfl

variable {t}

theorem linkEnd_finder_of_endsAt (hp : t.isLink p = true) (hq : t.EndsAt p q) :
    (t.finder roots marker).linkEnd p = q := by
  have hlink : (t.finder roots marker).files.isLink p = true := hp
  have hresolve : (t.finder roots marker).files.resolve p = .ok q := resolve_eq_ok_iff.mpr hq
  rw [ArchiveFinder.linkEnd, hlink, hresolve]

theorem linkEnd_finder_of_no_end (h : t.isLink p = true → ¬ ∃ q, t.EndsAt p q) :
    (t.finder roots marker).linkEnd p = p := by
  unfold ArchiveFinder.linkEnd
  cases hl : (t.finder roots marker).files.isLink p with
  | false => rfl
  | true =>
    cases hr : (t.finder roots marker).files.resolve p with
    | error e => rfl
    | ok target => exact absurd ⟨target, resolve_eq_ok_iff.mp hr⟩ (h hl)

/-- What is found is not a link, and it is there. -/
theorem isThere_linkEnd (h : t.Anchored) (hp : t.isThere p = true) :
    t.isThere ((t.finder roots marker).linkEnd p) = true ∧
      t.isLink ((t.finder roots marker).linkEnd p) = false := by
  obtain ⟨q, hq⟩ := isThere_iff.mp hp
  cases hl : t.isLink p with
  | true =>
    obtain ⟨hend, hlink⟩ := h.endsAt_end hq
    rw [linkEnd_finder_of_endsAt roots marker hl hq]
    exact ⟨isThere_iff.mpr ⟨q, hend⟩, hlink⟩
  | false =>
    rw [linkEnd_finder_of_no_end roots marker fun hlink => absurd (hlink.symm.trans hl) (by decide)]
    exact ⟨hp, hl⟩

/-- In every tree that has grown below an absolute root a reference is located unless it is blank or
holds a NUL; then it is refused, and nothing is written to the log. The path stands below the output
base if the reference begins with a name that is the marker, below the execution root otherwise (`.`
and `..` are no names); an absolute reference is a path of its own. The archive is present exactly if
something is at this path.
It has the path at the end of the links if the path is a link with an end, and this path as it is
otherwise. An archive that is present is there under the path it has, and no link. One diagnostic,
an error, is written exactly if it is not present. -/
theorem location_follows_links {root : Path} (hroot : root.isAbsolute = true) (ht : t.Grown root)
    (declared : String) :
    let found := (t.finder roots marker).locate declared
    let reference : Path := ⟨Text.trim declared.toList⟩
    let base : Path := if reference.components.head? = some (.name marker.toList)
      then roots.outputBase else roots.execRoot
    let p : Path := if reference.isAbsolute then reference else base.join reference
    (Text.trim declared.toList = [] ∨ '\x00' ∈ declared.toList →
      ∃ e : ReferenceError, found.value = .error e ∧ found.notices = [] ∧ e.declared = declared ∧
        (e.fault = .blank ↔ Text.trim declared.toList = [])) ∧
    (Text.trim declared.toList ≠ [] ∧ '\x00' ∉ declared.toList →
      ∃ located : Located, found.value = .ok located ∧
        located.present = t.isThere p ∧
        (∀ q, t.isLink p = true → t.EndsAt p q → located.path = q) ∧
        ((t.isLink p = true → ¬ ∃ q, t.EndsAt p q) → located.path = p) ∧
        (located.present = true →
          t.isThere located.path = true ∧ t.isLink located.path = false) ∧
        (located.present = true → found.notices = []) ∧
        (located.present = false →
          ∃ d : Diagnostic, d.level = .error ∧ found.notices = [.diagnostic d])) := by
  intro found reference base p
  have hanchored : t.Anchored := Anchored.of_grown hroot ht
  have hspelled : (t.finder roots marker).spelled declared = p := by
    show base.join reference = p
    by_cases habs : reference.isAbsolute = true
    · rw [Path.join_of_isAbsolute base habs]
      exact (if_pos habs).symm
    · exact (if_neg habs).symm
  refine ⟨fun hbad => ?_, fun hgood => ?_⟩
  · have hnot : ¬ ArchiveFinder.WellFormed declared := by
      rw [ArchiveFinder.wellFormed_iff]
      exact fun h => hbad.elim h.1 h.2
    obtain ⟨e, hdeclared, hfault, hlocate⟩ :=
      (t.finder roots marker).locate_of_not_wellFormed hnot
    have hvalue : found = pure (.error e) := hlocate
    exact ⟨e, by rw [hvalue, Traced.pure_value], by rw [hvalue, Traced.pure_notices], hdeclared,
      hfault⟩
  · have hlocate : found = Except.ok <$> (t.finder roots marker).probe p := by
      rw [← hspelled]
      exact (t.finder roots marker).locate_of_wellFormed
        ((ArchiveFinder.wellFormed_iff declared).mpr hgood)
    obtain ⟨d, hlevel, hnotices⟩ := (t.finder roots marker).notices_probe p
    rw [isAbsent_finder] at hnotices
    refine ⟨⟨(t.finder roots marker).linkEnd p, t.isThere p⟩, ?_, rfl,
      fun q => linkEnd_finder_of_endsAt roots marker, linkEnd_finder_of_no_end roots marker,
      isThere_linkEnd roots marker hanchored, fun (hthere : t.isThere p = true) => ?_,
      fun (hgone : t.isThere p = false) => ⟨d, hlevel, ?_⟩⟩
    · rw [hlocate, Traced.map_value, ArchiveFinder.probe_value, isAbsent_finder, Bool.not_not]
    · rw [hlocate, Traced.map_notices, hnotices, hthere]
      rfl
    · rw [hlocate, Traced.map_notices, hnotices, hgone]
      rfl

/-- An archive behind a link, and a link that leads back to itself. -/
def linkedTree : Tree :=
  (((Tree.empty (.ofString "/mock")).addFile (.ofString "cache/foo.jar") "PK").addLink
    (.ofString "base/external/foo.jar") (.ofString "cache/foo.jar")).addLink
    (.ofString "exec/loop.jar") (.ofString "exec/loop.jar")

theorem location_follows_links_of_linked :
    let finder : ArchiveFinder :=
      linkedTree.finder ⟨.ofString "/mock/base", .ofString "/mock/exec"⟩ "external"
    (Path.ofString "/mock").isAbsolute = true ∧ linkedTree.Grown (.ofString "/mock") ∧
      (finder.locate " external/foo.jar ").value = .ok ⟨.ofString "/mock/cache/foo.jar", true⟩ ∧
      (finder.locate " external/foo.jar ").notices = [] ∧
      (finder.locate "loop.jar").value = .ok ⟨.ofString "/mock/exec/loop.jar", false⟩ ∧
      (∃ d : Diagnostic, d.level = .error ∧ (finder.locate "loop.jar").notices = [.diagnostic d]) ∧
      ∃ e, (finder.locate "a\x00b").value = .error e := by
  intro finder
  have hroot : (Path.ofString "/mock").isAbsolute = true := by decide +kernel
  have hgrown : linkedTree.Grown (.ofString "/mock") :=
    ((Grown.empty.addFile _ _).addLink _ _).addLink _ _
  have hlocated := location_follows_links ⟨.ofString "/mock/base", .ofString "/mock/exec"⟩ "external"
    hroot hgrown
  obtain ⟨-, hlink⟩ := hlocated " external/foo.jar "
  obtain ⟨⟨path, present⟩, hfound, hpresent, hend, -, -, hquiet, -⟩ := hlink (by decide +kernel)
  obtain ⟨-, hloop⟩ := hlocated "loop.jar"
  obtain ⟨⟨kept, absent⟩, hkept, habsent, -, hnoEnd, -, -, hreport⟩ := hloop (by decide +kernel)
  obtain ⟨hrefused, -⟩ := hlocated "a\x00b"
  obtain ⟨e, he, -⟩ := hrefused (Or.inr (by decide +kernel))
  have hthere : present = true := hpresent.trans (by decide +kernel)
  have hpath : path = .ofString "/mock/cache/foo.jar" :=
    hend _ (by decide +kernel) (resolve_eq_ok_iff.mp (by decide +kernel))
  have hgone : absent = false := habsent.trans (by decide +kernel)
  have hplace : kept = .ofString "/mock/exec/loop.jar" := by
    refine (hnoEnd fun _ hsome => ?_).trans (by decide +kernel)
    have hnothing := isThere_iff.mpr hsome
    revert hnothing
    decide +kernel
  refine ⟨hroot, hgrown, ?_, hquiet hthere, ?_, hreport hgone, e, he⟩
  · rw [← hthere, ← hpath]
    exact hfound
  · rw [← hgone, ← hplace]
    exact hkept

end Tree

end Buildpath
