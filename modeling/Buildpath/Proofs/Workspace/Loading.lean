import Buildpath.Proofs.Path.Joining
import Buildpath.Proofs.Workspace.Runs

/-!
# From a manifest to its workspace

A manifest gives a workspace unless it declares a name twice; then the first name that was declared
before is reported (`firstDuplicate?_eq_some_iff`). The modules of the workspace are the declared ones
in their order, with every path resolved: the workspace root against the manifest's directory, a
location against the root and a source root against its module's location
(`workspace_is_as_declared`). Only relative paths are touched by that, and what is left of them has no
single dots.
-/

namespace Buildpath

/-! ### Resolved paths -/

namespace Path

/-- What a written path is resolved to against a base. An absolute path is kept as it is written. Of
another one it is the base joined with it, without single dots; against an absolute base it is the
same path as the joined one and absolute. -/
structure Resolves (base written resolved : Path) : Prop where
  kept : written.isAbsolute = true → resolved = written
  joined : written.isAbsolute = false →
    resolved.components = (base.join written).components.filter (· ≠ .current)
  same : base.isAbsolute = true → Same resolved (base.join written)
  undotted : written.isAbsolute = false → ['.'] ∉ segments resolved.chars
  absolute : base.isAbsolute = true → resolved.isAbsolute = true

theorem resolves_under (base written : Path) : Resolves base written (base.under written) where
  kept := under_of_isAbsolute base
  joined hw := by
    rw [components_without_dot, isAbsolute_join base hw, names_join base hw,
      under_of_relative base hw, (areNames_append base written).components_ofNames]
  same hb := same_under hb written
  undotted hw := by
    rw [under_of_relative base hw]
    exact (areNames_append base written).dot_not_mem_segments _
  absolute hb := isAbsolute_under hb written

end Path

/-- The source root is the declared one, with its path resolved against the location. -/
structure SourceRoot.LoadedFrom (location : Path) (declared loaded : SourceRoot) : Prop where
  path : location.Resolves declared.path loaded.path
  included : loaded.included = declared.included
  excluded : loaded.excluded = declared.excluded

/-- The module is the declared one, with its location resolved against the root and its source roots,
one by one, against its location. -/
structure Module.LoadedFrom (root : Path) (declared loaded : Module) : Prop where
  name : loaded.name = declared.name
  targets : loaded.targets = declared.targets
  location : root.Resolves declared.location loaded.location
  sourceRoots :
    List.Forall₂ (SourceRoot.LoadedFrom loaded.location) declared.sourceRoots loaded.sourceRoots

theorem Module.loadedFrom_under (root : Path) (m : Module) : m.LoadedFrom root (m.under root) where
  name := rfl
  targets := rfl
  location := root.resolves_under m.location
  sourceRoots := List.forall₂_map_right_iff.mpr <| List.forall₂_same.mpr fun r _ =>
    ⟨(root.under m.location).resolves_under r.path, rfl, rfl⟩

/-! ### Names that are declared twice -/

namespace Manifest

/-- The name that is reported was seen or declared before, and it is the first such name. -/
theorem firstDuplicate?_eq_some_iff {seen names : List String} {name : String} :
    firstDuplicate? seen names = some name ↔ ∃ before after, names = before ++ name :: after ∧
      (∀ n ∈ before, n ∉ seen) ∧ before.Nodup ∧ (name ∈ seen ∨ name ∈ before) := by
  induction names generalizing seen with
  | nil => simp [firstDuplicate?]
  | cons n rest ih =>
    rw [firstDuplicate?]
    by_cases hn : n ∈ seen
    · -- Nothing was declared before the name that is reported.
      rw [if_pos (List.contains_iff_mem.mpr hn), Option.some_inj]
      constructor
      · rintro rfl
        exact ⟨[], rest, rfl, fun k hk => absurd hk List.not_mem_nil, List.nodup_nil, Or.inl hn⟩
      · rintro ⟨before, after, hsplit, hnew, -, -⟩
        cases before with
        | nil => exact (List.cons.inj hsplit).1
        | cons k before =>
          have hk : n = k := (List.cons.inj hsplit).1
          exact absurd (hk ▸ hn) (hnew k List.mem_cons_self)
    · rw [if_neg (fun h => hn (List.contains_iff_mem.mp h)), ih]
      constructor
      · rintro ⟨before, after, rfl, hnew, hnodup, hname⟩
        simp only [List.mem_cons, not_or] at hnew
        refine ⟨n :: before, after, rfl, List.forall_mem_cons.mpr ⟨hn, fun k hk => (hnew k hk).2⟩,
          List.nodup_cons.mpr ⟨fun hmem => (hnew n hmem).1 rfl, hnodup⟩, ?_⟩
        rw [List.mem_cons] at hname ⊢
        tauto
      · rintro ⟨before, after, hsplit, hnew, hnodup, hname⟩
        cases before with
        | nil =>
          have hsame : n = name := (List.cons.inj hsplit).1
          exact absurd (hsame ▸ hname.resolve_right List.not_mem_nil) hn
        | cons k before =>
          obtain ⟨rfl, rfl⟩ := List.cons.inj hsplit
          obtain ⟨hfirst, hnodup⟩ := List.nodup_cons.mp hnodup
          refine ⟨before, after, rfl, fun j hj => ?_, hnodup, ?_⟩
          · rw [List.mem_cons, not_or]
            exact ⟨fun heq => hfirst (heq ▸ hj), hnew j (List.mem_cons_of_mem n hj)⟩
          · rw [List.mem_cons] at hname ⊢
            tauto

/-- Nothing is reported twice exactly if no name was seen before and no two names are the same. -/
theorem firstDuplicate?_eq_none_iff {seen names : List String} :
    firstDuplicate? seen names = none ↔ names.Nodup ∧ ∀ name ∈ names, name ∉ seen := by
  induction names generalizing seen with
  | nil => simp [firstDuplicate?]
  | cons name rest ih =>
    rw [firstDuplicate?, List.nodup_cons, List.forall_mem_cons]
    by_cases hseen : name ∈ seen
    · simp [hseen]
    · simp only [List.contains_iff_mem, hseen, if_false, ih, List.mem_cons, not_or, not_false_eq_true,
        true_and]
      constructor
      · rintro ⟨hnodup, hnew⟩
        exact ⟨⟨fun hmem => (hnew name hmem).1 rfl, hnodup⟩, fun n hn => (hnew n hn).2⟩
      · rintro ⟨⟨hfirst, hnodup⟩, hnew⟩
        exact ⟨hnodup, fun n hn => ⟨fun heq => hfirst (heq ▸ hn), hnew n hn⟩⟩

theorem toWorkspace_eq_ok_iff {m : Manifest} {base : Path} {w : Workspace} :
    m.toWorkspace base = .ok w ↔ (m.modules.map (·.name)).Nodup ∧
      w = .ofModules (m.modules.map (·.under (m.rootUnder base))) := by
  have hnone : firstDuplicate? [] (m.modules.map (·.name)) = none ↔
      (m.modules.map (·.name)).Nodup := by
    rw [firstDuplicate?_eq_none_iff, and_iff_left fun _ _ => List.not_mem_nil]
  rw [toWorkspace, ← hnone]
  cases firstDuplicate? [] (m.modules.map (·.name)) with
  | none => simp [eq_comm]
  | some name => simp

theorem toWorkspace_eq_error_iff {m : Manifest} {base : Path} {e : ManifestError} :
    m.toWorkspace base = .error e ↔
      ∃ name, firstDuplicate? [] (m.modules.map (·.name)) = some name ∧
        e = .duplicateModule name := by
  rw [toWorkspace]
  cases firstDuplicate? [] (m.modules.map (·.name)) with
  | none => simp
  | some name => simp [eq_comm]

end Manifest

/-! ### The modules of the workspace -/

/-- Modules of different names are all there, in the order in which they were added. -/
theorem Workspace.modules_foldl_addModule {l : List Module} {w : Workspace}
    (h : ((w.modules ++ l).map (·.name)).Nodup) :
    (l.foldl addModule w).modules = w.modules ++ l := by
  induction l generalizing w with
  | nil => exact (List.append_nil _).symm
  | cons m rest ih =>
    have hnew : m.name ∉ w.modules.map (·.name) := by
      rw [List.map_append, List.nodup_append] at h
      exact fun hm => h.2.2 m.name hm m.name List.mem_cons_self rfl
    have hadded : (w.addModule m).modules = w.modules ++ [m] := insertModule_of_not_mem hnew
    rw [List.foldl_cons, ih, hadded, List.append_assoc, List.singleton_append]
    rwa [hadded, List.append_assoc, List.singleton_append]

namespace Manifest

theorem modules_toWorkspace {m : Manifest} {base : Path} {w : Workspace}
    (h : m.toWorkspace base = .ok w) :
    w.modules = m.modules.map (·.under (m.rootUnder base)) := by
  obtain ⟨hnodup, rfl⟩ := toWorkspace_eq_ok_iff.mp h
  refine (Workspace.modules_foldl_addModule ?_).trans (List.nil_append _)
  rwa [Workspace.empty, List.nil_append, List.map_map]

theorem isAbsolute_rootUnder (m : Manifest) {base : Path} (hbase : base.isAbsolute = true) :
    (m.rootUnder base).isAbsolute = true := by
  rw [rootUnder]
  cases m.root with
  | none => exact hbase
  | some written => exact Path.isAbsolute_under hbase written

/-- A manifest gives a workspace if and only if no name is declared twice; otherwise the first module
whose name was declared before it is the one that is reported. The workspace root is resolved against
the base, and the modules of the workspace are the declared ones, one by one and in their order, with
their locations resolved against the root and their source roots against their locations. From an
absolute base all of these paths are absolute. -/
theorem workspace_is_as_declared (m : Manifest) (base : Path) :
    let root := m.rootUnder base
    ((∃ w, m.toWorkspace base = .ok w) ↔ (m.modules.map (·.name)).Nodup) ∧
    (∀ e, m.toWorkspace base = .error e ↔
      ∃ before d after, m.modules = before ++ d :: after ∧ (before.map (·.name)).Nodup ∧
        d.name ∈ before.map (·.name) ∧ e = .duplicateModule d.name) ∧
    (m.root = none → root = base) ∧
    (∀ written, m.root = some written → base.Resolves written root) ∧
    (∀ w, m.toWorkspace base = .ok w →
      List.Forall₂ (Module.LoadedFrom root) m.modules w.modules) ∧
    (base.isAbsolute = true → root.isAbsolute = true ∧
      ∀ w, m.toWorkspace base = .ok w → ∀ d ∈ w.modules, d.location.isAbsolute = true ∧
        ∀ r ∈ d.sourceRoots, r.path.isAbsolute = true) := by
  intro root
  refine ⟨⟨?_, fun hnodup => ⟨_, toWorkspace_eq_ok_iff.mpr ⟨hnodup, rfl⟩⟩⟩, fun e => ?_,
    fun hroot => ?_, fun written hroot => ?_, fun w hw => ?_, fun hbase => ?_⟩
  · rintro ⟨w, hw⟩
    exact (toWorkspace_eq_ok_iff.mp hw).1
  · rw [toWorkspace_eq_error_iff]
    constructor
    · rintro ⟨name, hname, rfl⟩
      obtain ⟨before, after, hsplit, -, hnodup, hmem⟩ := firstDuplicate?_eq_some_iff.mp hname
      obtain ⟨front, rest, hmodules, rfl, hrest⟩ := List.map_eq_append_iff.mp hsplit
      obtain ⟨d, back, rfl, rfl, rfl⟩ := List.map_eq_cons_iff.mp hrest
      exact ⟨front, d, back, hmodules, hnodup, hmem.resolve_left List.not_mem_nil, rfl⟩
    · rintro ⟨before, d, after, hmodules, hnodup, hmem, rfl⟩
      refine ⟨d.name, firstDuplicate?_eq_some_iff.mpr ⟨before.map (·.name), after.map (·.name), ?_,
        fun _ _ => List.not_mem_nil, hnodup, Or.inr hmem⟩, rfl⟩
      rw [hmodules, List.map_append, List.map_cons]
  · show m.rootUnder base = base
    rw [rootUnder, hroot]
  · show base.Resolves written (m.rootUnder base)
    rw [rootUnder, hroot]
    exact base.resolves_under written
  · rw [modules_toWorkspace hw]
    exact List.forall₂_map_right_iff.mpr (List.forall₂_same.mpr fun d _ => d.loadedFrom_under root)
  · have hroot : root.isAbsolute = true := m.isAbsolute_rootUnder hbase
    refine ⟨hroot, fun w hw d hd => ?_⟩
    rw [modules_toWorkspace hw] at hd
    obtain ⟨declared, -, rfl⟩ := List.mem_map.mp hd
    have hlocation : (root.under declared.location).isAbsolute = true :=
      Path.isAbsolute_under hroot declared.location
    refine ⟨hlocation, fun r hr => ?_⟩
    obtain ⟨written, -, rfl⟩ := List.mem_map.mp hr
    exact Path.isAbsolute_under hlocation written.path

/-- Relative and absolute paths, some of them with dots and more slashes than needed. -/
def nestedManifest : Manifest :=
  ⟨some (.ofString "ws/."),
    [⟨"core", .ofString "./core//", [⟨.ofString ".", ["src/**/*.code"], []⟩,
      ⟨.ofString "/gen/./core", [], []⟩], ["//core"]⟩,
    ⟨"app", .ofString "/abs//app/.", [⟨.ofString "src/./../main", [], ["old/"]⟩], []⟩]⟩

theorem workspace_is_as_declared_of_nested :
    let base : Path := .ofString "/m"
    let root : Path := .ofString "/m/ws"
    let again : Manifest := ⟨none, nestedManifest.modules ++ nestedManifest.modules⟩
    base.Resolves (.ofString "ws/.") root ∧
      (∃ w, nestedManifest.toWorkspace base = .ok w ∧
        List.Forall₂ (Module.LoadedFrom root) nestedManifest.modules w.modules ∧
        (∀ d ∈ w.modules, d.location.isAbsolute = true ∧
          ∀ r ∈ d.sourceRoots, r.path.isAbsolute = true) ∧
        w.modules.map (·.location.toString) = ["/m/ws/core", "/abs//app/."] ∧
        w.modules.map (·.sourceRoots.map (·.path.toString)) =
          [["/m/ws/core", "/gen/./core"], ["/abs/app/src/../main"]]) ∧
      again.toWorkspace base = .error (.duplicateModule "core") := by
  intro base root again
  have hroot : nestedManifest.rootUnder base = root := by decide +kernel
  obtain ⟨hok, -, -, hwritten, hmodules, habsolute⟩ := workspace_is_as_declared nestedManifest base
  rw [hroot] at hwritten hmodules habsolute
  obtain ⟨w, hw⟩ := hok.mpr (by decide)
  obtain ⟨-, habs⟩ := habsolute (by decide)
  obtain ⟨-, hrepeated, -⟩ := workspace_is_as_declared again base
  refine ⟨hwritten _ rfl, ⟨w, hw, hmodules w hw, habs w hw, ?_, ?_⟩, ?_⟩
  · rw [modules_toWorkspace hw]
    decide +kernel
  · rw [modules_toWorkspace hw]
    decide +kernel
  · exact (hrepeated _).mpr ⟨nestedManifest.modules, nestedManifest.modules[0],
      nestedManifest.modules.tail, rfl, by decide, by decide, rfl⟩

end Manifest

end Buildpath
