import Buildpath.Files.Tree
import Buildpath.Proofs.Assembly.Courses
import Buildpath.Proofs.Ownership.Search
import Buildpath.Tool.Scripted
import Mathlib.Data.List.Nodup

/-!
# The order of the modules

The search for an owner takes the first module that owns a source, so the order in which the modules
were added can decide. It decides nothing where no source is owned by two modules: then the search
finds the same owner in every order (`owner_perm`). An assembly reads the order only through this
search and hands it on unchanged, so that it makes the same of both orders: the same classpath, the
same references and the same calls of the tool (`import_order_is_immaterial`).
-/

namespace Buildpath

/-! ### Owners -/

/-- No source is owned by two of the modules. -/
def Unambiguous (root : Path) (modules : List Module) (sources : List String) : Prop :=
  ∀ source ∈ sources, ∀ m ∈ modules, ∀ n ∈ modules,
    m.OwnsSource root source → n.OwnsSource root source → m = n

instance (root : Path) (modules : List Module) (sources : List String) :
    Decidable (Unambiguous root modules sources) :=
  inferInstanceAs (Decidable (∀ source ∈ sources, ∀ m ∈ modules, ∀ n ∈ modules,
    m.OwnsSource root source → n.OwnsSource root source → m = n))

section

variable {root : Path} {modules modules' : List Module} {sources : List String}

/-- If at most one element passes the test, the first to pass it is the same in every order. -/
theorem find?_perm {α : Type} {l l' : List α} {test : α → Bool} (hperm : l.Perm l')
    (hunique : ∀ a ∈ l, ∀ b ∈ l, test a = true → test b = true → a = b) :
    l'.find? test = l.find? test := by
  cases hl : l.find? test with
  | none =>
    rw [List.find?_eq_none] at hl ⊢
    exact fun a ha => hl a (hperm.mem_iff.mpr ha)
  | some a =>
    have ha := List.mem_of_find?_eq_some hl
    have htest : test a = true := List.find?_some hl
    cases hl' : l'.find? test with
    | none => exact absurd htest (List.find?_eq_none.mp hl' a (hperm.mem_iff.mp ha))
    | some b =>
      have hb := hperm.mem_iff.mpr (List.mem_of_find?_eq_some hl')
      rw [hunique b hb a ha (List.find?_some hl') htest]

theorem owner_perm (hperm : modules.Perm modules') (h : Unambiguous root modules sources) :
    (ownerOfSources root sources modules').value =
      (ownerOfSources root sources modules).value := by
  induction sources with
  | nil => rfl
  | cons source rest ih =>
    obtain ⟨hfirst, hrest⟩ := List.forall_mem_cons.mp h
    have hone : (ownerOfSources root [source] modules').value =
        (ownerOfSources root [source] modules).value := by
      rw [owner_singleton, owner_singleton]
      cases hs : sourceFile? root source with
      | none => rfl
      | some file =>
        refine find?_perm hperm fun m hm n hn howns howns' => hfirst m hm n hn ?_ ?_
        · exact ⟨file, hs, howns⟩
        · exact ⟨file, hs, howns'⟩
    rw [← List.singleton_append, owner_append, owner_append, hone, ih hrest]

end

/-! ### The same workspace in another order -/

def Workspace.withModules (modules : List Module) (w : Workspace) : Workspace :=
  { w with modules }

variable {σ : Type}

def Scene.withModules (modules : List Module) (s : Scene σ) : Scene σ :=
  { s with workspace := s.workspace.withModules modules }

def Progression.withModules (modules : List Module) (p : Progression σ) : Progression σ :=
  { p with scene := p.scene.withModules modules }

@[simp] theorem Scene.tool_withModules (modules : List Module) (s : Scene σ) :
    (s.withModules modules).tool = s.tool := rfl

@[simp] theorem Scene.modules_withModules (modules : List Module) (s : Scene σ) :
    (s.withModules modules).workspace.modules = modules := rfl

@[simp] theorem Progression.scene_withModules (modules : List Module) (p : Progression σ) :
    (p.withModules modules).scene = p.scene.withModules modules := rfl

@[simp] theorem Progression.classpath_withModules (modules : List Module) (p : Progression σ) :
    (p.withModules modules).classpath = p.classpath := rfl

@[simp] theorem Progression.roots_withModules (modules : List Module) (p : Progression σ) :
    (p.withModules modules).roots = p.roots := rfl

theorem Workspace.ensureReference_withModules (modules : List Module) (w : Workspace)
    (source target : String) :
    (w.withModules modules).ensureReference source target =
      Prod.map id (withModules modules) <$> w.ensureReference source target := by
  unfold ensureReference
  have hreferences : (w.withModules modules).references source = w.references source := rfl
  rw [hreferences]
  split <;> rfl

/-- With distinct names a module has the same targets in every order. -/
theorem Workspace.targetsOf_withModules {w : Workspace} {modules : List Module}
    (hperm : w.modules.Perm modules) (hnames : (w.modules.map (·.name)).Nodup) (name : String) :
    (w.withModules modules).targetsOf name = w.targetsOf name := by
  have hunique : ∀ m ∈ w.modules, ∀ n ∈ w.modules, (m.name == name) = true →
      (n.name == name) = true → m = n := by
    intro m hm n hn hname hname'
    rw [beq_iff_eq] at hname hname'
    exact List.inj_on_of_nodup_map hnames hm hn (hname.trans hname'.symm)
  unfold targetsOf module?
  rw [withModules, find?_perm hperm hunique]

namespace Assembler

variable (modules' : List Module)

/-! ### Steps that do not look at the modules -/

theorem addPair_withModules (f : ArchiveFinder) (module label : String) (pair : ArchivePair)
    (p : Progression σ) :
    addPair f module label pair (p.withModules modules') =
      Progression.withModules modules' <$> addPair f module label pair p := by
  unfold addPair
  rw [map_bind]
  refine bind_congr fun located => ?_
  cases located with
  | none => rfl
  | some found =>
    obtain ⟨⟨path, present⟩, sources⟩ := found
    cases present <;> rfl

theorem addPairs_withModules (f : ArchiveFinder) (module label : String)
    (pairs : List ArchivePair) (p : Progression σ) :
    addPairs f module label pairs (p.withModules modules') =
      Progression.withModules modules' <$> addPairs f module label pairs p := by
  induction pairs generalizing p with
  | nil => rfl
  | cons pair rest ih =>
    rw [addPairs, addPairs, addPair_withModules, bind_map_left, map_bind]
    exact bind_congr fun p => ih p

theorem addReference_withModules (module : String) (owner : Module) (p : Progression σ) :
    addReference module owner (p.withModules modules') =
      Progression.withModules modules' <$> addReference module owner p := by
  have hreference := Workspace.ensureReference_withModules modules' p.scene.workspace module
    owner.name
  unfold addReference
  simp only [Progression.withModules, Scene.withModules, hreference]
  cases p.classpath.containsModule owner.fullPath <;> rfl

variable (a : Assembler σ)

theorem requireRoots_withModules (p : Progression σ) :
    a.requireRoots (p.withModules modules') =
      Prod.map id (Progression.withModules modules') <$> a.requireRoots p := by
  unfold requireRoots
  rw [Progression.roots_withModules]
  cases p.roots with
  | some roots => rfl
  | none =>
    simp only [map_bind]
    refine bind_congr fun asked => ?_
    cases asked.1 <;> rfl

theorem addArchives_withModules (module : String) (d : Dependency) (p : Progression σ) :
    a.addArchives module d (p.withModules modules') =
      Prod.map id (Progression.withModules modules') <$> a.addArchives module d p := by
  unfold addArchives
  cases d.archives.isEmpty with
  | true => rfl
  | false =>
    simp only [Bool.false_eq_true, if_false, requireRoots_withModules, bind_map_left, map_bind]
    refine bind_congr fun required => ?_
    obtain ⟨answer, p⟩ := required
    cases answer with
    | error f => rfl
    | ok roots =>
      simp only [Prod.map_apply, id_eq, addPairs_withModules, bind_map_left, map_bind]
      rfl

theorem flushIfStale_withModules (q : Query) (p : Progression σ) :
    a.flushIfStale q (p.withModules modules') =
      Scene.withModules modules' <$> a.flushIfStale q p := by
  unfold flushIfStale
  cases hp : p.stale <;> simp [hp, Progression.withModules, Scene.withModules]

/-! ### The loop -/

/-- The second run comes to the image of what the first comes to, and reports the same events; the
diagnostics may differ. -/
structure Mirrors {β : Type} (image : β → β) (run run' : Traced β) : Prop where
  value : run'.value = image run.value
  events : run'.events = run.events

section

variable {root : Path} {modules : List Module} (module : String)

theorem addUnit_mirrors {d : Dependency}
    (ho : (ownerOfSources root d.sources modules').value =
      (ownerOfSources root d.sources modules).value) (p : Progression σ) :
    Mirrors (Prod.map id (Progression.withModules modules')) (a.addUnit root modules module d p)
      (a.addUnit root modules' module d (p.withModules modules')) := by
  unfold addUnit
  cases hfound : (ownerOfSources root d.sources modules).value with
  | none => constructor <;> simp [ho, hfound, events_ownerOfSources, addArchives_withModules]
  | some owner =>
    by_cases hm : owner.name = module
    · constructor <;> simp [ho, hfound, events_ownerOfSources, hm]
    · constructor <;> simp [ho, hfound, events_ownerOfSources, hm, addReference_withModules]

theorem addUnits_mirrors {l : List Dependency}
    (ho : ∀ d ∈ l, (ownerOfSources root d.sources modules').value =
      (ownerOfSources root d.sources modules).value) (p : Progression σ) :
    Mirrors (Prod.map id (Progression.withModules modules')) (a.addUnits root modules module l p)
      (a.addUnits root modules' module l (p.withModules modules')) := by
  induction l generalizing p with
  | nil => exact ⟨rfl, rfl⟩
  | cons d rest ih =>
    obtain ⟨hfirst, hrest⟩ := List.forall_mem_cons.mp ho
    have hd := addUnit_mirrors modules' a module hfirst p
    have hvalue := hd.value
    cases hu : (a.addUnit root modules module d p).value with
    | mk answer p₁ =>
      rw [hu] at hvalue
      cases answer with
      | some f => constructor <;> simp [addUnits, hvalue, hu, hd.events]
      | none =>
        have hgo := ih hrest p₁
        constructor <;> simp [addUnits, hvalue, hu, hd.events, hgo.value, hgo.events]

end

/-! ### The whole assembly -/

theorem finish_mirrors (q : Query) (now : Timestamp) (s : Scene σ)
    (ho : ∀ metadata, (a.tool.finishQuery q.request s.tool).value.1 = .ok metadata →
      ∀ d ∈ metadata.units, (ownerOfSources q.root d.sources modules').value =
        (ownerOfSources q.root d.sources s.workspace.modules).value) :
    Mirrors (Prod.map id (Scene.withModules modules')) (a.finish q now s)
      (a.finish q now (s.withModules modules')) := by
  cases hq : (a.tool.finishQuery q.request s.tool).value with
  | mk answer tool =>
    cases answer with
    | error f => constructor <;> simp [finish, hq, Scene.withModules]
    | ok metadata =>
      have hloop := addUnits_mirrors modules' a q.request.module
        (ho metadata (congrArg Prod.fst hq)) ⟨{ s with tool }, .empty now, none, false⟩
      have hvalue := hloop.value
      have hbegun : (⟨{ s.withModules modules' with tool }, .empty now, none, false⟩ :
          Progression σ) = Progression.withModules modules'
            ⟨{ s with tool }, .empty now, none, false⟩ := rfl
      cases hu : (a.addUnits q.root s.workspace.modules q.request.module metadata.units
          ⟨{ s with tool }, .empty now, none, false⟩).value with
      | mk got p =>
        rw [hu] at hvalue
        cases got with
        | some f => constructor <;> simp [finish, hq, hbegun, hu, hvalue, hloop.events]
        | none =>
          constructor <;>
            simp [finish, hq, hbegun, hu, hvalue, hloop.events, flushIfStale_withModules]

variable {modules'}

theorem tryAssemble_mirrors (module : String) {s : Scene σ} (now : Timestamp)
    (hperm : s.workspace.modules.Perm modules')
    (hnames : (s.workspace.modules.map (·.name)).Nodup)
    (hunits : ∀ root metadata, a.tool.workspaceRoot s.tool = some root →
      (a.tool.query (requestOf module s.workspace) s.tool).value.1 = .ok metadata →
      ∀ d ∈ metadata.units, Unambiguous root s.workspace.modules d.sources) :
    Mirrors (Prod.map id (Scene.withModules modules')) (a.tryAssemble module now s)
      (a.tryAssemble module now (s.withModules modules')) := by
  have htargets : requestOf module (s.withModules modules').workspace =
      requestOf module s.workspace := by
    unfold requestOf
    exact congrArg (Request.mk module · operation)
      (Workspace.targetsOf_withModules hperm hnames module)
  cases hw : a.tool.workspaceRoot s.tool with
  | none =>
    have hw' : a.tool.workspaceRoot (s.withModules modules').tool = none := hw
    rw [← tryAssembleAmid_id, ← tryAssembleAmid_id,
      tryAssembleAmid_of_no_root a module id now hw, tryAssembleAmid_of_no_root a module id now hw']
    exact ⟨rfl, rfl⟩
  | some root =>
    have hw' : a.tool.workspaceRoot (s.withModules modules').tool = some root := hw
    obtain ⟨hvalue, hevents⟩ := tryAssembleAmid_of_root a root module id now hw
    obtain ⟨hvalue', hevents'⟩ := tryAssembleAmid_of_root a root module id now hw'
    rw [htargets] at hvalue' hevents'
    have hsame := finish_mirrors modules' a ⟨root, requestOf module s.workspace⟩ now
      { s with tool := (a.tool.startQuery (requestOf module s.workspace) s.tool).value }
      fun metadata hq d hd => owner_perm hperm (hunits root metadata hw hq d hd)
    exact ⟨hvalue'.trans (hsame.value.trans (congrArg _ hvalue.symm)),
      hevents'.trans ((congrArg _ hsame.events).trans hevents.symm)⟩

/-- The assembler with a tool that records its calls. -/
def recorded (a : Assembler σ) : Assembler (σ × List ToolCall) :=
  ⟨a.tool.recorded, fun s => a.files s.1, a.marker⟩

/-- Modules with distinct names may be listed in any order. Dependencies of which no source is owned
by two modules have the same owners, and if the query for a module finds only such dependencies, its
assembly has the same outcome, a classpath with the same entries in the same order or the same
failure. It leaves the same references of every module, makes the same calls of the tool, the flush
included, and so leaves the tool in the same state and reports the same events. -/
theorem import_order_is_immaterial (a : Assembler σ) (module : String) (now : Timestamp) (t : σ)
    (links : List (String × List String)) {modules modules' : List Module}
    (hperm : modules.Perm modules') (hnames : (modules.map (·.name)).Nodup) :
    (∀ (root : Path) (d : Dependency), Unambiguous root modules d.sources →
      (ownerOfSources root d.sources modules').value =
        (ownerOfSources root d.sources modules).value) ∧
    ((∀ root metadata, a.tool.workspaceRoot t = some root →
        (a.tool.query (requestOf module ⟨modules, links⟩) t).value.1 = .ok metadata →
        ∀ d ∈ metadata.units, Unambiguous root modules d.sources) →
      let run := a.tryAssemble module now ⟨t, ⟨modules, links⟩⟩
      let run' := a.tryAssemble module now ⟨t, ⟨modules', links⟩⟩
      run'.value.1 = run.value.1 ∧
      (∀ name, run'.value.2.workspace.references name = run.value.2.workspace.references name) ∧
      run'.value.2.tool = run.value.2.tool ∧
      run'.events = run.events ∧
      (a.recorded.tryAssemble module now ⟨(t, []), ⟨modules', links⟩⟩).value.2.tool =
        (a.recorded.tryAssemble module now ⟨(t, []), ⟨modules, links⟩⟩).value.2.tool) := by
  refine ⟨fun root d hd => owner_perm hperm hd, fun hunits => ?_⟩
  obtain ⟨hvalue, hevents⟩ := tryAssemble_mirrors a module
    (s := ⟨t, ⟨modules, links⟩⟩) now hperm hnames hunits
  obtain ⟨hrecorded, -⟩ := tryAssemble_mirrors a.recorded module
    (s := ⟨(t, []), ⟨modules, links⟩⟩) now hperm hnames hunits
  refine ⟨?_, fun name => ?_, ?_, hevents, ?_⟩
  · exact congrArg (fun v => v.1) hvalue
  · exact congrArg (fun v => v.2.workspace.references name) hvalue
  · exact congrArg (fun v => v.2.tool) hvalue
  · exact congrArg (fun v => v.2.tool) hrecorded

/-- Three modules with folders of their own. -/
def orderedModules : List Module :=
  let module (name : String) (targets : List String) : Module :=
    ⟨name, .ofString ("/ws/" ++ name), [⟨.ofString ("/ws/" ++ name), [], []⟩], targets⟩
  [module "app" ["//app:main"], module "core" [], module "util" []]

/-- Dependencies of two of them, one of the module itself, and one of nobody without its archive. -/
def orderedTool : Scripted :=
  ((((Scripted.ofRoots ⟨.ofString "/base", .ofString "/ws"⟩).addUnit "//app:main"
    ⟨"//a:u", ["util/U.code"], [], []⟩).addUnit "//app:main"
    ⟨"//b:c", ["x/X.code", "core/C.code"], [], []⟩).addUnit "//app:main"
    ⟨"//c:a", ["app/A.code"], [], []⟩).addUnit "//app:main"
    ⟨"//d:x", ["x/Y.code"], [], [⟨some "x.jar", none⟩]⟩

theorem import_order_is_immaterial_of_reversed :
    let a : Assembler Scripted := ⟨Scripted.tool, (Tree.empty ⟨['/']⟩).fileSystem, "external"⟩
    let run := a.tryAssemble "app" default ⟨orderedTool, ⟨orderedModules.reverse, []⟩⟩
    orderedModules.Perm orderedModules.reverse ∧ (orderedModules.map (·.name)).Nodup ∧
      (∃ c, run.value.1 = .ok c ∧ c.entries =
        [.module "/util", .module "/core", .library (.ofString "/ws/x.jar") none]) ∧
      run.value.2.workspace.references "app" = ["util", "core"] ∧
      run.events =
        [.queryStarted "app" 1 operation, .archiveMissing "app" "/ws/x.jar"] ∧
      .flush ["//app:main"] ∈ (a.recorded.tryAssemble "app" default
        ⟨(orderedTool, []), ⟨orderedModules.reverse, []⟩⟩).value.2.tool.2 ∧
      (ownerOfSources (.ofString "/ws") ["x/X.code", "core/C.code"] orderedModules.reverse).value =
        (ownerOfSources (.ofString "/ws") ["x/X.code", "core/C.code"] orderedModules).value := by
  intro a run
  have hperm : orderedModules.Perm orderedModules.reverse := (List.reverse_perm _).symm
  have hnames : (orderedModules.map (·.name)).Nodup := by decide
  have hunits : ∀ root metadata, a.tool.workspaceRoot orderedTool = some root →
      (a.tool.query (requestOf "app" ⟨orderedModules, []⟩) orderedTool).value.1 = .ok metadata →
      ∀ d ∈ metadata.units, Unambiguous root orderedModules d.sources := by
    intro root metadata hroot hq
    cases hroot
    cases hq
    decide +kernel
  obtain ⟨howners, hruns⟩ :=
    import_order_is_immaterial a "app" default orderedTool [] hperm hnames
  obtain ⟨hanswer, hreferences, -, hevents, hcalls⟩ := hruns hunits
  refine ⟨hperm, hnames, ?_, ?_, ?_, ?_, ?_⟩
  · rw [hanswer]
    exact ⟨_, rfl, by decide +kernel⟩
  · rw [hreferences]
    decide +kernel
  · rw [hevents]
    decide +kernel
  · rw [hcalls]
    decide +kernel
  · exact howners (.ofString "/ws") ⟨"//b:c", ["x/X.code", "core/C.code"], [], []⟩
      (by decide +kernel)

end Assembler

end Buildpath
