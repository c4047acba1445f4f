import Buildpath.Proofs.Assembly.Courses

/-!
# When metadata is flushed

An assembly that succeeds flushes the metadata at most once, after all dependencies are done, and for
the targets that the module had when it began. It does so exactly if a dependency that no module owns
misses an archive (`flush_exactly_if_missed`). A malformed or undeclared archive has no place, so that
nothing is reported about it and no library stands for it; an absent one has both its event and its
library.
-/

namespace Buildpath.Assembler

variable {σ : Type} {a : Assembler σ} {module : String} {meanwhile : Scene σ → Scene σ}
  {now : Timestamp} {s s' : Scene σ} {c : Classpath}

theorem any_missesArchive_iff (f : ArchiveFinder) (owner : Dependency → Option String)
    (l : List Dependency) :
    l.any (missesArchive f owner) = true ↔ ∃ d ∈ l, owner d = none ∧ ∃ pair ∈ d.archives,
      pair.primary = none ∨ ∃ declared, pair.primary = some declared ∧
        (¬ ArchiveFinder.WellFormed declared ∨ f.isAbsent (f.spelled declared) = true) := by
  simp only [List.any_eq_true, missesArchive, Bool.and_eq_true, Option.isNone_iff_eq_none,
    misses_iff]

/-- An assembly that succeeds calls the tool for the query, for the output roots if a dependency that
no module owns has archives, and last for a flush if such a dependency has an archive that is not
declared, malformed, or absent; the flush is for the targets of the module as they were in the
beginning. Whatever others do during the query, the events are those of the tool and one for each
library whose archive is absent, in the order of the libraries and with its path. -/
theorem flush_exactly_if_missed
    (h : (a.tryAssembleAmid module meanwhile now s).value = (.ok c, s')) :
    ∃ root metadata t roots,
      let r := requestOf module s.workspace
      let begun := a.tool.startQuery r s.tool
      let amid := meanwhile { s with tool := begun.value }
      let owner := ownerName root amid.workspace.modules
      let f := a.finder t roots
      let placed := placements f owner metadata.units
      let asked : List ToolCall :=
        .finishQuery r :: if NeedsRoots owner metadata.units then [.outputRoots] else []
      let flushes : List ToolCall :=
        if metadata.units.any (missesArchive f owner) then [.flush r.targets] else []
      a.tool.workspaceRoot s.tool = some root ∧
      (a.tool.finishQuery r amid.tool).value = (.ok metadata, t) ∧
      (NeedsRoots owner metadata.units → (a.tool.outputRoots t).value.1 = .ok roots) ∧
      (metadata.units.any (missesArchive f owner) = true ↔
        ∃ d ∈ metadata.units, owner d = none ∧ ∃ pair ∈ d.archives,
          pair.primary = none ∨ ∃ declared, pair.primary = some declared ∧
            (¬ ArchiveFinder.WellFormed declared ∨ f.isAbsent (f.spelled declared) = true)) ∧
      s'.tool = (a.tool.after amid.tool (asked ++ flushes)).value ∧
      c.libraries = placed.map Placed.library ∧
      (a.tryAssembleAmid module meanwhile now s).events =
        begun.events ++ (a.tool.after amid.tool asked).events ++
          (placed.filter (!·.archive.present)).map (Placed.notice module) ++
          (a.tool.after (a.tool.after amid.tool asked).value flushes).events := by
  cases hw : a.tool.workspaceRoot s.tool with
  | none =>
    rw [tryAssembleAmid_of_no_root a module meanwhile now hw] at h
    cases h
  | some root =>
    obtain ⟨answer, asked, noted, reports, flushes, course, hvalue, hevents⟩ :=
      tryAssembleAmid_course a root module meanwhile now hw
    rw [h] at hvalue
    obtain ⟨hanswer, rfl⟩ := Prod.mk.inj hvalue
    cases course with
    | unanswered => cases hanswer
    | refused => cases hanswer
    | @done metadata t roots answered known =>
      cases hanswer
      refine ⟨root, metadata, t, roots, rfl, answered, known, any_missesArchive_iff _ _ _, rfl,
        libraries_contributions _ _ _ _ _, hevents⟩

/-- A dependency with an owner that misses its archive, and one without that has an archive but not
its sources, a link that leads nowhere, and a reference that is blank. -/
def staleScene : Scene (Scripted × List ToolCall) :=
  let module (name : String) (targets : List String) : Module :=
    ⟨name, .ofString ("/ws/" ++ name), [⟨.ofString ("/ws/" ++ name), [], []⟩], targets⟩
  { tool := (((Scripted.ofRoots ⟨.ofString "/base", .ofString "/ws"⟩).addUnit "//app:main"
      ⟨"//core:a", ["core/A.code"], [], [⟨some "core/gone.jar", none⟩]⟩).addUnit "//app:main"
      ⟨"//lib:b", ["lib/B.code"], [], [⟨some "lib/b.jar", some "lib/gone.jar"⟩,
        ⟨some "lib/link.jar", none⟩, ⟨some " ", none⟩]⟩, [])
    workspace := ⟨[module "app" ["//app:main"], module "core" []], []⟩ }

/-- The files of the scene: one archive and a link. -/
def staleFiles : FileSystem :=
  (((Tree.empty ⟨['/']⟩).addFile (.ofString "/ws/lib/b.jar") "").addLink
    (.ofString "/ws/lib/link.jar") (.ofString "/ws/lib/gone.jar")).fileSystem

theorem flush_exactly_if_missed_of_stale :
    let a : Assembler (Scripted × List ToolCall) := ⟨Scripted.tool.recorded, staleFiles, "external"⟩
    -- During the query the module gets another target.
    let retarget (s : Scene (Scripted × List ToolCall)) : Scene (Scripted × List ToolCall) :=
      { s with workspace := s.workspace.addModule ⟨"app", .ofString "/ws/app", [], ["//app:new"]⟩ }
    let run := a.tryAssembleAmid "app" retarget default staleScene
    let r : Request := ⟨"app", ["//app:main"], operation⟩
    ∃ c s', run.value = (.ok c, s') ∧
      s'.tool.2 = [.startQuery r, .finishQuery r, .outputRoots, .flush ["//app:main"]] ∧
      run.events = [.queryStarted "app" 1 operation, .archiveMissing "app" "/ws/lib/link.jar"] ∧
      c.libraries = [.library (.ofString "/ws/lib/b.jar") (some (.ofString "/ws/lib/gone.jar")),
        .library (.ofString "/ws/lib/link.jar") none] := by
  intro a retarget run r
  have hrun : ∃ c s', run.value = (.ok c, s') := ⟨_, _, rfl⟩
  obtain ⟨c, s', h⟩ := hrun
  obtain ⟨root, metadata, t, roots, hroot, hanswer, hroots, -, htool, hlibraries, hevents⟩ :=
    flush_exactly_if_missed h
  cases hroot
  cases hanswer
  have hneeds := hroots (by decide)
  cases hneeds
  refine ⟨c, s', h, ?_, ?_, ?_⟩
  · rw [htool]
    decide +kernel
  · rw [hevents]
    decide +kernel
  · rw [hlibraries]
    decide +kernel

end Buildpath.Assembler
