import Buildpath.Files.Tree
import Buildpath.Proofs.Assembly.Contributions
import Buildpath.Tool.Scripted
import Mathlib.Data.List.Induction
import Mathlib.Data.List.Nodup

/-!
# References that go with module entries

An assembly tells two lists apart: the classpath refers to modules by their full paths, the
workspace records the names. Each keeps its members distinct on its own. Both follow the owners of
the dependencies, in the order in which these first appear (`otherOwners`), so that every module
entry has its reference and a second assembly of the same dependencies records nothing
(`module_entries_have_references`).
-/

namespace Buildpath

/-- The full path of the module that an entry refers to. -/
def Entry.modulePath? : Entry → Option String
  | .module path => some path
  | .library _ _ => none

/-- The full paths of the modules that a classpath refers to. -/
def Classpath.modulePaths (c : Classpath) : List String :=
  c.entries.filterMap Entry.modulePath?

namespace Assembler

variable {σ : Type}

/-! ### The owners -/

section

variable (owner : Dependency → Option String) (module : String)

/-- The owners other than the module itself, in the order in which they first appear. -/
def otherOwners (l : List Dependency) : List String :=
  ((l.filterMap owner).filter (· != module)).eraseDups

variable {owner module} {l : List Dependency} {d : Dependency} {o : String}

theorem mem_otherOwners :
    o ∈ otherOwners owner module l ↔ o ≠ module ∧ ∃ e ∈ l, owner e = some o := by
  unfold otherOwners
  rw [List.mem_eraseDups, List.mem_filter, List.mem_filterMap, bne_iff_ne, and_comm]

theorem otherOwners_subset {part : List Dependency} (h : part ⊆ l) :
    otherOwners owner module part ⊆ otherOwners owner module l := by
  intro o ho
  rw [mem_otherOwners] at ho ⊢
  obtain ⟨hne, e, he, heo⟩ := ho
  exact ⟨hne, e, h he, heo⟩

theorem otherOwners_concat_of_none (h : owner d = none) :
    otherOwners owner module (l ++ [d]) = otherOwners owner module l := by
  simp [otherOwners, h]

theorem otherOwners_concat_of_some (h : owner d = some o) :
    otherOwners owner module (l ++ [d]) =
      otherOwners owner module l ++
        if o = module ∨ o ∈ otherOwners owner module l then [] else [o] := by
  have hsplit : (l ++ [d]).filterMap owner = l.filterMap owner ++ [o] := by
    simp [h]
  unfold otherOwners
  rw [hsplit, List.filter_append, List.eraseDups_append]
  congr 1
  simp only [List.mem_eraseDups]
  generalize (l.filterMap owner).filter (· != module) = known
  by_cases hm : o = module
  · simp [hm, List.removeAll]
  · by_cases hk : o ∈ known
    · simp [hm, hk, List.removeAll]
    · simp [hm, hk, List.removeAll, List.eraseDups_cons]

theorem nodup_otherOwners (l : List Dependency) : (otherOwners owner module l).Nodup := by
  induction l using List.reverseRecOn with
  | nil => simp [otherOwners]
  | append_singleton l d ih =>
    cases hd : owner d with
    | none => rwa [otherOwners_concat_of_none hd]
    | some o =>
      rw [otherOwners_concat_of_some hd]
      split
      · rwa [List.append_nil]
      · rename_i ho
        have hnew : o ∉ otherOwners owner module l := fun hm => ho (Or.inr hm)
        rw [List.nodup_append]
        refine ⟨ih, by simp, fun a ha b hb => ?_⟩
        rw [List.mem_singleton.mp hb]
        exact fun heq => hnew (heq ▸ ha)

/-! ### Module entries -/

theorem modulePaths_contributions (f : ArchiveFinder) (l : List Dependency) :
    (contributions f owner module [] l).filterMap Entry.modulePath? =
      (otherOwners owner module l).map ("/" ++ ·) := by
  induction l using List.reverseRecOn with
  | nil => simp [contributions, otherOwners]
  | append_singleton l d ih =>
    rw [contributions_concat, List.filterMap_append, ih]
    cases hd : owner d with
    | none =>
      have hlibraries : (d.archives.filterMap f.library?).filterMap Entry.modulePath? = [] := by
        rw [List.filterMap_eq_nil_iff]
        intro entry he
        obtain ⟨pair, -, hp⟩ := List.mem_filterMap.mp he
        obtain ⟨archive, -, rfl⟩ := Option.map_eq_some_iff.mp hp
        rfl
      rw [contribution_of_none f owner module l hd, hlibraries, otherOwners_concat_of_none hd,
        List.append_nil]
    | some o =>
      rw [contribution_of_some f owner module l hd, otherOwners_concat_of_some hd, List.map_append]
      congr 1
      by_cases hm : o = module
      · simp [hm]
      · simp only [mem_otherOwners, hm, ne_eq, not_false_eq_true, true_and, false_or]
        split <;> rfl

end

/-! ### Recording references -/

/-- The workspace after one dependency: a reference to its owner, unless that is the module. -/
def noteOwner (module : String) (w : Workspace) : Option String → Workspace
  | none => w
  | some o => if o = module then w else (w.ensureReference module o).value.2

/-- The workspace after the dependencies, in turn. -/
def noteOwners (owner : Dependency → Option String) (module : String) (w : Workspace)
    (l : List Dependency) : Workspace :=
  l.foldl (fun w d => noteOwner module w (owner d)) w

section

variable {owner : Dependency → Option String} {module : String} {w : Workspace}

theorem modules_noteOwner (o : Option String) : (noteOwner module w o).modules = w.modules := by
  cases o with
  | none => rfl
  | some o =>
    simp only [noteOwner]
    split
    · rfl
    · exact w.modules_ensureReference module o

theorem references_noteOwner_of_ne {t : String} (ht : t ≠ module) (o : Option String) :
    (noteOwner module w o).references t = w.references t := by
  cases o with
  | none => rfl
  | some o =>
    simp only [noteOwner]
    split
    · rfl
    · rw [w.references_ensureReference, if_neg fun h => ht h.1]

theorem noteOwners_concat (l : List Dependency) (d : Dependency) :
    noteOwners owner module w (l ++ [d]) =
      noteOwner module (noteOwners owner module w l) (owner d) := by
  simp [noteOwners]

theorem modules_noteOwners (l : List Dependency) :
    (noteOwners owner module w l).modules = w.modules := by
  induction l using List.reverseRecOn with
  | nil => rfl
  | append_singleton l d ih => rw [noteOwners_concat, modules_noteOwner, ih]

theorem references_noteOwners_of_ne {t : String} (ht : t ≠ module) (l : List Dependency) :
    (noteOwners owner module w l).references t = w.references t := by
  induction l using List.reverseRecOn with
  | nil => rfl
  | append_singleton l d ih => rw [noteOwners_concat, references_noteOwner_of_ne ht, ih]

/-- The owners that were not referred to before are added, in the order in which they appear. -/
theorem references_noteOwners (l : List Dependency) :
    (noteOwners owner module w l).references module =
      w.references module ++
        (otherOwners owner module l).filter fun o => o ∉ w.references module := by
  -- From the right: what is noted for a dependency depends on those before it.
  induction l using List.reverseRecOn with
  | nil => simp [noteOwners, otherOwners]
  | append_singleton l d ih =>
    rw [noteOwners_concat]
    cases hd : owner d with
    | none => rw [otherOwners_concat_of_none hd, ← ih, noteOwner]
    | some o =>
      rw [otherOwners_concat_of_some hd, List.filter_append, ← List.append_assoc, ← ih, noteOwner]
      by_cases hm : o = module
      · simp [hm]
      · have hknown : o ∈ (noteOwners owner module w l).references module ↔
            o ∈ w.references module ∨ o ∈ otherOwners owner module l := by
          rw [ih, List.mem_append, List.mem_filter]
          by_cases ho : o ∈ w.references module <;> simp [ho]
        rw [if_neg hm, Workspace.references_ensureReference]
        by_cases hl : o ∈ otherOwners owner module l
        · simp [hknown, hl]
        · by_cases hw : o ∈ w.references module
          · simp [hknown, hm, hl, hw]
          · simp [hknown, hm, hl, hw]

theorem subset_references_noteOwners (l : List Dependency) :
    otherOwners owner module l ⊆ (noteOwners owner module w l).references module := by
  intro o ho
  rw [references_noteOwners, List.mem_append, List.mem_filter]
  by_cases hp : o ∈ w.references module <;> simp [hp, ho]

theorem nodup_references_noteOwners (h : (w.references module).Nodup) (l : List Dependency) :
    ((noteOwners owner module w l).references module).Nodup := by
  rw [references_noteOwners, List.nodup_append]
  refine ⟨h, (nodup_otherOwners l).filter _, fun o ho u hu heq => ?_⟩
  rw [List.mem_filter] at hu
  exact of_decide_eq_true hu.2 (heq ▸ ho)

theorem noteOwners_of_known {l : List Dependency}
    (h : otherOwners owner module l ⊆ w.references module) :
    noteOwners owner module w l = w := by
  induction l using List.reverseRecOn with
  | nil => rfl
  | append_singleton l d ih =>
    have hl : noteOwners owner module w l = w :=
      ih fun o ho => h (otherOwners_subset (List.subset_append_left l [d]) ho)
    rw [noteOwners_concat, hl]
    cases hd : owner d with
    | none => rfl
    | some o =>
      simp only [noteOwner]
      split
      · rfl
      · rename_i hm
        refine Workspace.ensureReference_of_mem (h (mem_otherOwners.mpr ⟨hm, d, ?_, hd⟩))
        exact List.mem_append_right l (List.mem_singleton_self d)

theorem noteOwners_again {part l : List Dependency} (h : part ⊆ l) :
    noteOwners owner module (noteOwners owner module w l) part = noteOwners owner module w l :=
  noteOwners_of_known fun _ ho => subset_references_noteOwners l (otherOwners_subset h ho)

end

/-! ### What an assembly records -/

theorem scene_addPair (f : ArchiveFinder) (module label : String) (pair : ArchivePair)
    (p : Progression σ) : (addPair f module label pair p).value.scene = p.scene := by
  simp only [addPair, Traced.bind_value]
  cases hl : (locatePair f pair).value with
  | none => rfl
  | some found =>
    obtain ⟨primary, sources⟩ := found
    cases hp : primary.present <;> simp [hp]

theorem scene_addPairs (f : ArchiveFinder) (module label : String) (pairs : List ArchivePair)
    (p : Progression σ) : (addPairs f module label pairs p).value.scene = p.scene := by
  induction pairs generalizing p with
  | nil => rfl
  | cons pair rest ih =>
    have hrest := ih (addPair f module label pair p).value
    exact hrest.trans (scene_addPair f module label pair p)

variable (a : Assembler σ) (root : Path) (modules : List Module) (module : String)

theorem workspace_requireRoots (p : Progression σ) :
    (a.requireRoots p).value.2.scene.workspace = p.scene.workspace := by
  unfold requireRoots
  cases hr : p.roots with
  | some roots => rfl
  | none =>
    simp only [Traced.bind_value]
    cases ha : (a.tool.outputRoots p.scene.tool).value with
    | mk answer tool => cases answer <;> rfl

theorem workspace_addArchives (d : Dependency) (p : Progression σ) :
    (a.addArchives module d p).value.2.scene.workspace = p.scene.workspace := by
  unfold addArchives
  by_cases ha : d.archives.isEmpty = true
  · simp [ha]
  · have hroots := workspace_requireRoots a p
    simp only [ha, if_false, Traced.bind_value, Bool.false_eq_true]
    cases hr : (a.requireRoots p).value with
    | mk answer p₁ =>
      rw [hr] at hroots
      cases answer with
      | error f => exact hroots
      | ok roots =>
        simp only [Traced.bind_value, Traced.pure_value, scene_addPairs]
        exact hroots

theorem workspace_addUnit (d : Dependency) (p : Progression σ) :
    (a.addUnit root modules module d p).value.2.scene.workspace =
      noteOwner module p.scene.workspace (ownerName root modules d) := by
  simp only [addUnit, Traced.bind_value, ownerName]
  cases ho : (ownerOfSources root d.sources modules).value with
  | none => exact workspace_addArchives a module d p
  | some owner =>
    simp only [Option.map_some, noteOwner]
    by_cases hm : owner.name = module
    · simp [hm]
    · simp only [hm, if_false, Traced.bind_value, Traced.pure_value, addReference]
      split <;> rfl

/- A failure ends the loop; the owners of the dependencies before it have been noted. -/
theorem workspace_addUnits (l : List Dependency) (p : Progression σ) :
    ∃ done, done <+: l ∧
      (a.addUnits root modules module l p).value.2.scene.workspace =
        noteOwners (ownerName root modules) module p.scene.workspace done ∧
      ((a.addUnits root modules module l p).value.1 = none → done = l) := by
  induction l generalizing p with
  | nil => exact ⟨[], List.prefix_rfl, rfl, fun _ => rfl⟩
  | cons d rest ih =>
    have hd := workspace_addUnit a root modules module d p
    simp only [addUnits, Traced.bind_value]
    cases hu : (a.addUnit root modules module d p).value with
    | mk answer p₁ =>
      rw [hu] at hd
      cases answer with
      | some f => exact ⟨[d], by simp, hd, fun h => (by cases h)⟩
      | none =>
        obtain ⟨done, hprefix, hw, hall⟩ := ih p₁
        refine ⟨d :: done, List.cons_prefix_cons.mpr ⟨rfl, hprefix⟩, ?_, fun h => ?_⟩
        · rw [hw, hd]
          rfl
        · rw [hall h]

theorem workspace_finish (q : Query) (now : Timestamp) (s : Scene σ) {metadata : Metadata}
    (hq : (a.tool.finishQuery q.request s.tool).value.1 = .ok metadata) :
    ∃ done, done <+: metadata.units ∧
      (a.finish q now s).value.2.workspace =
        noteOwners (ownerName q.root s.workspace.modules) q.request.module s.workspace done ∧
      (∀ c, (a.finish q now s).value.1 = .ok c → done = metadata.units) := by
  simp only [finish, Traced.bind_value]
  cases hm : (a.tool.finishQuery q.request s.tool).value with
  | mk answer tool =>
    rw [hm] at hq
    cases hq
    obtain ⟨done, hprefix, hw, hall⟩ := workspace_addUnits a q.root s.workspace.modules
      q.request.module metadata.units ⟨{ s with tool }, .empty now, none, false⟩
    refine ⟨done, hprefix, ?_⟩
    simp only [Traced.bind_value]
    cases hu : (a.addUnits q.root s.workspace.modules q.request.module metadata.units
        ⟨{ s with tool }, .empty now, none, false⟩).value with
    | mk answer p =>
      rw [hu] at hw hall
      cases answer with
      | some f => exact ⟨hw, fun c hc => (by cases hc)⟩
      | none =>
        refine ⟨?_, fun c _ => hall rfl⟩
        rw [← hw]
        simp only [Traced.bind_value, Traced.pure_value, flushIfStale]
        split <;> rfl

theorem tryAssemble_value {now : Timestamp} {s : Scene σ}
    (hw : a.tool.workspaceRoot s.tool = some root) :
    (a.tryAssemble module now s).value =
      (a.finish ⟨root, module, s.workspace.targetsOf module, operation⟩ now
        { s with tool := (a.tool.startQuery ⟨module, s.workspace.targetsOf module, operation⟩
          s.tool).value }).value := by
  simp only [tryAssemble, start, hw, Traced.bind_value, Traced.pure_value]

variable {a root module} {now : Timestamp} {s s' : Scene σ} {c : Classpath} {metadata : Metadata}

theorem workspace_tryAssemble (hroot : a.tool.workspaceRoot s.tool = some root)
    (hq : (a.tool.query ⟨module, s.workspace.targetsOf module, operation⟩ s.tool).value.1 =
      .ok metadata) :
    ∃ done, done <+: metadata.units ∧
      (a.tryAssemble module now s).value.2.workspace =
        noteOwners (ownerName root s.workspace.modules) module s.workspace done ∧
      (∀ c, (a.tryAssemble module now s).value.1 = .ok c → done = metadata.units) := by
  rw [tryAssemble_value a root module hroot]
  exact workspace_finish a ⟨root, module, s.workspace.targetsOf module, operation⟩ now _ hq

theorem owners_of_tryAssemble (h : (a.tryAssemble module now s).value = (.ok c, s')) :
    ∃ root metadata tool, a.tool.workspaceRoot s.tool = some root ∧
      (a.tool.query ⟨module, s.workspace.targetsOf module, operation⟩ s.tool).value =
        (.ok metadata, tool) ∧
      c.modulePaths = (otherOwners (ownerName root s.workspace.modules) module
        metadata.units).map ("/" ++ ·) ∧
      s'.workspace =
        noteOwners (ownerName root s.workspace.modules) module s.workspace metadata.units := by
  cases hroot : a.tool.workspaceRoot s.tool with
  | none => simp [tryAssemble, start, hroot] at h
  | some root =>
    have hok := congrArg Prod.fst h
    rw [tryAssemble_value a root module hroot] at hok
    obtain ⟨metadata, tool, roots, hq, -, hc⟩ := (finish_eq_ok_iff _ _ _ _ _).mp hok
    obtain ⟨done, -, hw, hall⟩ := workspace_tryAssemble hroot (congrArg Prod.fst hq)
    rw [hall c (congrArg Prod.fst h), h] at hw
    refine ⟨root, metadata, tool, rfl, hq, ?_, hw⟩
    rw [hc]
    exact modulePaths_contributions _ _

/-- If an assembly succeeds, its module entries are the full paths of the owners other than the
module itself, each once, in the order in which they first appear; and the references of the module
are the previous ones, followed by those owners that were not among them, in the same order. Nothing
else of the workspace changes. So every module entry has its reference, and another assembly of the
same dependencies, however it ends, leaves the workspace as it is. -/
theorem module_entries_have_references (h : (a.tryAssemble module now s).value = (.ok c, s')) :
    ∃ root metadata tool owners, a.tool.workspaceRoot s.tool = some root ∧
      (a.tool.query ⟨module, s.workspace.targetsOf module, operation⟩ s.tool).value =
        (.ok metadata, tool) ∧
      owners = otherOwners (ownerName root s.workspace.modules) module metadata.units ∧
      c.modulePaths = owners.map ("/" ++ ·) ∧
      c.modulePaths.Nodup ∧
      "/" ++ module ∉ c.modulePaths ∧
      s'.workspace.references module = s.workspace.references module ++
        (owners.filter fun o => o ∉ s.workspace.references module) ∧
      (owners.filter fun o => o ∉ s.workspace.references module).Nodup ∧
      ((s.workspace.references module).Nodup → (s'.workspace.references module).Nodup) ∧
      (∀ path ∈ c.modulePaths, ∃ o ∈ s'.workspace.references module, path = "/" ++ o) ∧
      (∀ t, t ≠ module → s'.workspace.references t = s.workspace.references t) ∧
      s'.workspace.modules = s.workspace.modules ∧
      ∀ (b : Assembler σ) (later : Timestamp) (s₂ : Scene σ), s₂.workspace = s'.workspace →
        b.tool.workspaceRoot s₂.tool = some root →
        (b.tool.query ⟨module, s'.workspace.targetsOf module, operation⟩ s₂.tool).value.1 =
          .ok metadata →
        (b.tryAssemble module later s₂).value.2.workspace = s'.workspace := by
  obtain ⟨root, metadata, tool, hroot, hq, hpaths, hw⟩ := owners_of_tryAssemble h
  have hmodules : s'.workspace.modules = s.workspace.modules := by
    rw [hw]
    exact modules_noteOwners _
  have hinj : Function.Injective fun o : String => "/" ++ o := fun o u hou => by simpa using hou
  refine ⟨root, metadata, tool, _, hroot, hq, rfl, hpaths, ?_, ?_, ?_, ?_, fun hprev => ?_,
    fun path hp => ?_, fun t ht => ?_, hmodules, fun b later s₂ hs₂ hroot₂ hq₂ => ?_⟩
  · rw [hpaths]
    exact (nodup_otherOwners _).map hinj
  · rw [hpaths, List.mem_map]
    rintro ⟨o, ho, heq⟩
    exact (mem_otherOwners.mp ho).1 (hinj heq)
  · rw [hw]
    exact references_noteOwners _
  · exact (nodup_otherOwners _).filter _
  · rw [hw]
    exact nodup_references_noteOwners hprev _
  · rw [hpaths, List.mem_map] at hp
    obtain ⟨o, ho, rfl⟩ := hp
    exact ⟨o, hw ▸ subset_references_noteOwners _ ho, rfl⟩
  · rw [hw]
    exact references_noteOwners_of_ne ht _
  · rw [← hs₂] at hq₂
    obtain ⟨done, hprefix, hw₂, -⟩ := workspace_tryAssemble hroot₂ hq₂
    rw [hw₂, hs₂, hmodules, hw]
    exact noteOwners_again hprefix.subset

/-- Two dependencies of one owner and one of the module itself, which refers to a module that has
gone. -/
def sharedOwnerScene : Scene Scripted :=
  let module (name : String) (targets : List String) : Module :=
    ⟨name, .ofString ("/ws/" ++ name), [⟨.ofString ("/ws/" ++ name), [], []⟩], targets⟩
  let dependency (label file : String) : Dependency := ⟨label, [file], [], []⟩
  { tool := (((Scripted.ofRoots ⟨.ofString "/base", .ofString "/ws"⟩).addUnit "//app:main"
      (dependency "//core:a" "core/A.code")).addUnit "//app:main"
      (dependency "//core:b" "core/B.code")).addUnit "//app:main"
      (dependency "//app:lib" "app/L.code")
    workspace := ⟨[module "app" ["//app:main"], module "core" []], [("app", ["gone"])]⟩ }

theorem module_entries_have_references_of_shared_owner :
    let a : Assembler Scripted := ⟨Scripted.tool, (Tree.empty ⟨['/']⟩).fileSystem, "external"⟩
    ∃ c s', (a.tryAssemble "app" default sharedOwnerScene).value = (.ok c, s') ∧
      c.entries = [.module "/core"] ∧ s'.workspace.references "app" = ["gone", "core"] ∧
      c.modulePaths.Nodup ∧ "/" ++ "app" ∉ c.modulePaths ∧
      ∀ path ∈ c.modulePaths, ∃ o ∈ s'.workspace.references "app", path = "/" ++ o := by
  intro a
  have hrun : ∃ c s', (a.tryAssemble "app" default sharedOwnerScene).value = (.ok c, s') ∧
      c.entries = [.module "/core"] ∧ s'.workspace.references "app" = ["gone", "core"] :=
    ⟨_, _, rfl, rfl, rfl⟩
  obtain ⟨c, s', h, hentries, hreferences⟩ := hrun
  obtain ⟨-, -, -, -, -, -, -, -, hnodup, hself, -, -, -, hrefs, -⟩ :=
    module_entries_have_references h
  exact ⟨c, s', h, hentries, hreferences, hnodup, hself, hrefs⟩

end Assembler

end Buildpath
