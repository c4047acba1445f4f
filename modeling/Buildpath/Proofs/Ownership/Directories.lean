import Buildpath.Proofs.Ownership.Patterns
import Buildpath.Proofs.Workspace.Loading

/-!
# The directory of a source root

A source root without patterns owns what its path contains, name by name. Loading a manifest keeps
what the path comes to, however the workspace root, the location and the path itself are written, as
long as nothing in them goes up: then the source root owns exactly the files in the directory that it
names. A `..` is not carried out, so a source root with one owns no file that is written without it
(`directory_is_owned_unless_it_goes_up`).
-/

namespace Buildpath

/-- Without patterns only the path of a source root matters. -/
theorem SourceRoot.owns_value_iff_contains {r : SourceRoot} (hincluded : r.included = [])
    (hexcluded : r.excluded = []) {file : Path} :
    (r.owns file).value = true ↔ r.path.Contains file := by
  rw [owns_value_iff, ← Path.isSome_below?_iff, Option.isSome_iff_exists]
  simp [hincluded, hexcluded]

namespace Path

variable {p q file : Path}

/-- A file that never goes up is in the directory as it is written if that does not go up either, and
then the directory is the one that is meant. -/
theorem contains_iff_climbed (hp : p.isAbsolute = true) (hf : file.isAbsolute = true)
    (hplain : file.IsPlain) :
    p.Contains file ↔ ['.', '.'] ∉ p.names ∧ p.climbed.Contains file := by
  constructor
  · intro hc
    have hstays : ['.', '.'] ∉ p.names := fun hup =>
      hplain.stays_below (((contains_iff_names hp hf).mp hc).subset hup)
    refine ⟨hstays, ?_⟩
    have hsame : p.climbed.components = p.components := same_climbed hp hstays
    rwa [Contains, hsame]
  · rintro ⟨hstays, hc⟩
    have hsame : p.climbed.components = p.components := same_climbed hp hstays
    rwa [Contains, hsame] at hc

theorem Same.contains_iff (h : Same p q) : p.Contains file ↔ q.Contains file := by
  have hcomponents : p.components = q.components := h
  rw [Contains, Contains, hcomponents]

end Path

namespace Manifest

/-- The directory of a source root as it is declared: the workspace root, the location of the module
and the path of the source root, each joined to what comes before. -/
def directory (base : Path) (m : Manifest) (d : Module) (r : SourceRoot) : Path :=
  ((m.root.elim base base.join).join d.location).join r.path

/-- Loading keeps what the path of a source root comes to. -/
theorem same_directory {base : Path} (hbase : base.isAbsolute = true) (m : Manifest) (d : Module)
    (r : SourceRoot) :
    Path.Same (((m.rootUnder base).under d.location).under r.path) (m.directory base d r) := by
  have hroot := m.isAbsolute_rootUnder hbase
  have hrootSame : Path.Same (m.rootUnder base) (m.root.elim base base.join) := by
    rw [rootUnder]
    cases m.root with
    | none => exact Path.Same.refl base
    | some written => exact Path.same_under hbase written
  have hlocation : ((m.rootUnder base).under d.location).isAbsolute = true :=
    Path.isAbsolute_under hroot d.location
  have hlocationSame : Path.Same ((m.rootUnder base).under d.location)
      ((m.root.elim base base.join).join d.location) :=
    (Path.same_under hroot d.location).trans (hrootSame.join hroot d.location)
  exact (Path.same_under hlocation r.path).trans (hlocationSame.join hlocation r.path)

/-- In the workspace of a manifest, seen from an absolute base, a source root that is declared without
patterns owns a file in plain form if and only if nothing goes up on the way to its directory and the
file is that directory or lies below it. Its directory is what the workspace root, the location and
the path come to, whether they are written relative or absolute, with single dots or without. -/
theorem directory_is_owned_unless_it_goes_up {m : Manifest} {base : Path} {w : Workspace}
    (hbase : base.isAbsolute = true) (hw : m.toWorkspace base = .ok w) {i j : ℕ} {d : Module}
    {r : SourceRoot} (hd : m.modules[i]? = some d) (hr : d.sourceRoots[j]? = some r)
    (hincluded : r.included = []) (hexcluded : r.excluded = []) :
    ∃ loaded root, w.modules[i]? = some loaded ∧ loaded.name = d.name ∧
      loaded.sourceRoots[j]? = some root ∧
      ∀ file : Path, file.isAbsolute = true → file.IsPlain →
        ((root.owns file).value = true ↔ ['.', '.'] ∉ (m.directory base d r).names ∧
          (m.directory base d r).climbed.Contains file) := by
  let location := (m.rootUnder base).under d.location
  refine ⟨d.under (m.rootUnder base), r.under location, ?_, rfl, ?_, fun file hfile hplain => ?_⟩
  · rw [modules_toWorkspace hw, List.getElem?_map, hd]
    rfl
  · exact (List.getElem?_map ..).trans (congrArg _ hr)
  · have hloaded : (location.under r.path).isAbsolute = true :=
      Path.isAbsolute_under (Path.isAbsolute_under (m.isAbsolute_rootUnder hbase) d.location) r.path
    have hsame : Path.Same (location.under r.path) (m.directory base d r) :=
      same_directory hbase m d r
    have howns : ((r.under location).owns file).value = true ↔
        (location.under r.path).Contains file :=
      SourceRoot.owns_value_iff_contains (r := r.under location) hincluded hexcluded
    rw [howns, hsame.contains_iff]
    exact Path.contains_iff_climbed (hsame.isAbsolute hloaded) hfile hplain

/-- Two modules below `/m/ws`; the sources of one are reached over the directory above it. -/
def sharedManifest : Manifest :=
  ⟨some (.ofString "ws/."),
    [⟨"app", .ofString "./app", [⟨.ofString "src/./main", [], []⟩], ["//app:main"]⟩,
      ⟨"lib", .ofString "lib", [⟨.ofString "../shared/src", [], []⟩], []⟩]⟩

theorem directory_is_owned_unless_it_goes_up_of_shared :
    let base : Path := .ofString "/m"
    ∃ w, sharedManifest.toWorkspace base = .ok w ∧
      (∃ loaded root, w.modules[0]? = some loaded ∧ loaded.name = "app" ∧
        loaded.sourceRoots[0]? = some root ∧
        (root.owns (.ofString "/m/ws/app/src/main/A.code")).value = true ∧
        (root.owns (.ofString "/m/ws/app/src/mainly/A.code")).value = false) ∧
      ∃ loaded root, w.modules[1]? = some loaded ∧ loaded.name = "lib" ∧
        loaded.sourceRoots[0]? = some root ∧
        ∀ file : Path, file.isAbsolute = true → file.IsPlain → (root.owns file).value = false := by
  intro base
  have hbase : base.isAbsolute = true := by decide
  refine ⟨_, toWorkspace_eq_ok_iff.mpr ⟨by decide, rfl⟩, ?_, ?_⟩
  · obtain ⟨loaded, root, hloaded, hname, hroot, howns⟩ :=
      directory_is_owned_unless_it_goes_up (m := sharedManifest) hbase
        (toWorkspace_eq_ok_iff.mpr ⟨by decide, rfl⟩) (i := 0) (j := 0) rfl rfl rfl rfl
    refine ⟨loaded, root, hloaded, hname, hroot, ?_, ?_⟩
    · exact (howns _ (by decide) (by decide +kernel)).mpr (by decide +kernel)
    · rw [Bool.eq_false_iff, ne_eq, howns _ (by decide) (by decide +kernel)]
      decide +kernel
  · obtain ⟨loaded, root, hloaded, hname, hroot, howns⟩ :=
      directory_is_owned_unless_it_goes_up (m := sharedManifest) hbase
        (toWorkspace_eq_ok_iff.mpr ⟨by decide, rfl⟩) (i := 1) (j := 0) rfl rfl rfl rfl
    refine ⟨loaded, root, hloaded, hname, hroot, fun file hfile hplain => ?_⟩
    rw [Bool.eq_false_iff, ne_eq, howns file hfile hplain]
    exact fun h => h.1 (by decide +kernel)

/-- The directory of the second source root is `/m/ws/shared/src`, but a file in it that is written
plainly has no owner. -/
theorem shared_directory_is_not_owned :
    let base : Path := .ofString "/m"
    let file : Path := .ofString "/m/ws/shared/src/A.code"
    base.isAbsolute = true ∧ base.IsPlain ∧ file.isAbsolute = true ∧ file.IsPlain ∧
      (∃ d ∈ sharedManifest.modules, d.sourceRoots = [⟨.ofString "../shared/src", [], []⟩] ∧
        ∀ r ∈ d.sourceRoots, (sharedManifest.directory base d r).climbed.Contains file) ∧
      ∃ w, sharedManifest.toWorkspace base = .ok w ∧
        ∀ loaded ∈ w.modules, (loaded.owns file).value = false := by
  refine ⟨by decide, by decide +kernel, by decide, by decide +kernel, ?_, ?_⟩
  · exact ⟨sharedManifest.modules[1], by decide, rfl, by decide +kernel⟩
  · exact ⟨_, toWorkspace_eq_ok_iff.mpr ⟨by decide, rfl⟩, by decide +kernel⟩

end Manifest

end Buildpath
