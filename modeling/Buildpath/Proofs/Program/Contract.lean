import Buildpath.Program
import Buildpath.Proofs.Assembly.Obstacles
import Buildpath.Proofs.Documents
import Buildpath.Proofs.Files.Writing
import Buildpath.Proofs.Resolver.Independence
import Buildpath.Proofs.Tool.Runs
import Buildpath.Proofs.Workspace.Loading

/-!
# What a run comes to

An invocation that cannot be carried out is hindered by one of four things (`Hindered`), all of which
are found out before Bazel is started or a file written. Otherwise the exit code, the output and the
files are those of the task (`run_keeps_contract`): a resolution always has a document, with no
entries if Bazel gives no answer, and only the file for it can make the run fail; a check tells by its
exit code whether the module is valid. Bazel may change the disk whenever it runs. All that a task asks
of the build tool are calls of it (`Resolver.exists_calls_resolve`, `Assembler.exists_calls_check`), so
that the world in which the task leaves it is one that running Bazel leads to (`Bazel.reaches_after`).
-/

namespace Buildpath

/-! ### What a task asks of the tool -/

theorem BuildTool.after_induction {σ : Type} {tool : BuildTool σ} {I : σ → Prop}
    (hstep : ∀ s call, I s → I (tool.perform s call).value) (calls : List ToolCall) {s : σ}
    (h : I s) : I (tool.after s calls).value := by
  induction calls generalizing s with
  | nil => exact h
  | cons call rest ih =>
    rw [BuildTool.after_cons, Traced.bind_value]
    exact ih (hstep s call h)

namespace Assembler

section Calls

variable {σ : Type} (a : Assembler σ) (module : String) (now : Timestamp) (s : Scene σ)

theorem exists_calls_tryAssemble : ∃ calls,
    (a.tryAssemble module now s).value.2.tool = (a.tool.after s.tool calls).value := by
  cases hw : a.tool.workspaceRoot s.tool with
  | none =>
    rw [← tryAssembleAmid_id, tryAssembleAmid_of_no_root a module id now hw]
    exact ⟨[], rfl⟩
  | some root =>
    obtain ⟨answer, asked, noted, reports, flushes, -, hvalue, -⟩ :=
      tryAssemble_of_root a module now s hw
    rw [hvalue]
    exact ⟨_, rfl⟩

theorem tool_checkTargets :
    (a.checkTargets module s).value.2.tool =
      (a.tool.check (s.workspace.targetsOf module) s.tool).value.2 := by
  unfold checkTargets
  cases hcheck : (a.tool.check (s.workspace.targetsOf module) s.tool).value with
  | mk answer tool => cases answer <;> simp [hcheck]

theorem exists_calls_check : ∃ calls,
    (a.check module s).value.2.tool = (a.tool.after s.tool calls).value := by
  have hasked : (a.tool.after s.tool [.isAvailable]).value =
      (a.tool.isAvailable s.tool).value.2 := rfl
  have hchecked : ∀ targets, (a.tool.after s.tool [.isAvailable, .check targets]).value =
      (a.tool.check targets (a.tool.isAvailable s.tool).value.2).value.2 := fun _ => rfl
  unfold check
  cases (a.tool.workspaceRoot s.tool).isNone with
  | true => exact ⟨[], rfl⟩
  | false =>
    cases havailable : (a.tool.isAvailable s.tool).value with
    | mk available tool =>
      rw [havailable] at hasked hchecked
      cases available with
      | false => exact ⟨[.isAvailable], by simp [havailable, hasked]⟩
      | true =>
        by_cases hname : Module.isWorkspaceName module = true
        · exact ⟨[.isAvailable], by simp [havailable, hname, hasked]⟩
        · refine ⟨[.isAvailable, .check (s.workspace.targetsOf module)], ?_⟩
          simp [havailable, hname, hchecked, tool_checkTargets]

end Calls

/-- Where nothing is found, nothing is contributed. -/
theorem entries_of_unanswered {σ : Type} {a : Assembler σ} {module : String} {now : Timestamp}
    {s : Scene σ}
    (hq : ∀ metadata, (a.tool.query (requestOf module s.workspace) s.tool).value.1 = .ok metadata →
      metadata.units = []) {c : Classpath}
    (h : (a.tryAssemble module now s).value.1 = .ok c) : c.entries = [] := by
  cases hw : a.tool.workspaceRoot s.tool with
  | none =>
    rw [← tryAssembleAmid_id, tryAssembleAmid_of_no_root a module id now hw] at h
    cases h
  | some root =>
    rw [tryAssemble_value a root module hw, finish_eq_ok_iff] at h
    obtain ⟨metadata, t, roots, hanswer, -, rfl⟩ := h
    have hnothing : metadata.units = [] := hq metadata (congrArg Prod.fst hanswer)
    rw [hnothing]
    rfl

end Assembler

namespace Resolver

variable {σ : Type}

theorem exists_calls_resolve (r : Resolver σ) (module : String) (now : Moment) (s : Session σ) : ∃ calls,
    (r.resolve module now s).value.2.scene.tool = (r.tool.after s.scene.tool calls).value := by
  cases hname : Module.isWorkspaceName module with
  | true =>
    rw [resolve_of_workspaceName r module now s hname]
    exact ⟨[], rfl⟩
  | false =>
    cases hlookup : (lookedUp module now s).1 with
    | hit c =>
      rw [resolve_of_hit r module now s hname hlookup]
      exact ⟨[], rfl⟩
    | miss reason =>
      obtain ⟨calls, hcalls⟩ := Assembler.exists_calls_tryAssemble r module now.time s.scene
      refine ⟨calls, ?_⟩
      rw [resolve_of_miss r module now s hname hlookup, ← hcalls]
      cases (r.tryAssemble module now.time s.scene).value with
      | mk answer scene => cases answer <;> rfl

theorem entries_resolve_of_unanswered {r : Resolver σ} {module : String} {now : Moment}
    {s : Session σ}
    (hq : ∀ metadata, (r.tool.query (Assembler.requestOf module s.scene.workspace)
      s.scene.tool).value.1 = .ok metadata → metadata.units = [])
    (hcache : s.cache.record? module = none) : (r.resolve module now s).value.1.entries = [] := by
  cases hname : Module.isWorkspaceName module with
  | true => rw [resolve_of_workspaceName r module now s hname]; rfl
  | false =>
    have hmiss : (lookedUp module now s).1 = .miss .empty := by
      simp [lookedUp, Cache.lookup, Cache.entry, hcache]
    rw [resolve_of_miss r module now s hname hmiss]
    cases hpass : (r.tryAssemble module now.time s.scene).value with
    | mk answer scene =>
      cases answer with
      | error f => rfl
      | ok c => exact Assembler.entries_of_unanswered hq (congrArg Prod.fst hpass)

end Resolver

/-! ### What Bazel makes of it -/

namespace Bazel

variable {ω : Type} {b : Bazel ω}

theorem reaches_start (s : BazelMemory ω) (arguments : List String) (directory : Option Path) :
    b.Reaches s.world (b.start arguments directory s).2.world := by
  have hrun : b.Reaches s.world (b.launch ⟨b.program, arguments, directory⟩ s.world).2 :=
    .run .here arguments directory
  unfold start
  cases hlaunch : b.launch ⟨b.program, arguments, directory⟩ s.world with
  | mk result world =>
    rw [hlaunch] at hrun
    cases result <;> exact hrun

theorem reaches_outputRoots (s : BazelMemory ω) :
    b.Reaches s.world (b.outputRoots s).value.2.world := by
  unfold outputRoots
  cases s.roots with
  | some roots => exact .here
  | none =>
    have hfirst := b.reaches_left (.info "output_base") s.world
    simp only [Traced.bind_value, info_value]
    cases b.told "output_base" s.world with
    | error f => exact hfirst
    | ok outputBase =>
      have hsecond := hfirst.trans (b.reaches_left (.info "execution_root") _)
      simp only [Traced.bind_value, info_value]
      cases b.told "execution_root" (s.note _ _).world <;> exact hsecond

theorem reaches_isAvailable (s : BazelMemory ω) :
    b.Reaches s.world (b.isAvailable s).value.2.world := by
  have hvalue : (b.isAvailable s).value = _ := b.isAvailable_value s
  rw [hvalue]
  cases s.available with
  | some known => exact .here
  | none => exact b.reaches_left .version s.world

/-- Every call leaves a world that running Bazel leads to. -/
theorem reaches_perform (s : BazelMemory ω) (call : ToolCall) :
    b.Reaches s.world (b.tool.perform s call).value.world := by
  cases call with
  | startQuery r => exact .here
  | finishQuery r =>
    have hvalue : (b.tool.finishQuery r s).value = _ := b.query_value s r
    show b.Reaches s.world (b.tool.finishQuery r s).value.2.world
    rw [hvalue]
    exact b.reaches_metadataOfAll s r.targets .empty
  | check targets => exact reaches_start s _ _
  | outputRoots => exact reaches_outputRoots s
  | flush targets => exact .here
  | isAvailable => exact reaches_isAvailable s

theorem reaches_after (s : BazelMemory ω) (calls : List ToolCall) :
    b.Reaches s.world (b.tool.after s calls).value.world :=
  BuildTool.after_induction (I := fun t => b.Reaches s.world t.world)
    (fun t call h => h.trans (reaches_perform t call)) calls .here

/-- If the program cannot be started a query finds nothing, or fails. -/
theorem units_of_missing {world : ω}
    (hmissing : ∀ arguments directory, ∃ e,
      (b.launch ⟨b.program, arguments, directory⟩ world).1 = .error e)
    (r : Request) {metadata : Metadata}
    (h : (b.tool.query r (.new world)).value.1 = .ok metadata) : metadata.units = [] := by
  rw [query_value] at h
  cases ht : r.targets with
  | nil =>
    rw [ht] at h
    cases h
    rfl
  | cons t rest =>
    obtain ⟨e, he⟩ := hmissing (b.aspectArguments t) (some b.root)
    have hfound : b.recalled (.new world) t = .error e.toFailure := by
      have houtcome : b.outcome (.build t) world = .error e := he
      simp [recalled, BazelMemory.metadataOr, BazelMemory.metadataOf?, BazelMemory.new, foundIn, houtcome]
    rw [ht, metadataOfAll_cons, hfound] at h
    cases h

end Bazel

/-! ### Preparing -/

namespace Program

/-- What hinders an invocation: its manifest cannot be loaded, declares a name twice or does not
declare the module, or the settings that result are not valid. -/
inductive Hindered (host : Host) (i : Invocation) : Prop where
  | unloaded {e : ManifestError} (failed : Manifest.load host.machine.disk i.workspace = .error e)
  | repeated {m : Manifest} (loaded : Manifest.load host.machine.disk i.workspace = .ok m)
    (twice : ¬ (m.modules.map (·.name)).Nodup)
  | undeclared {m : Manifest} (loaded : Manifest.load host.machine.disk i.workspace = .ok m)
    (missing : i.module ∉ m.modules.map (·.name))
  | invalid {m : Manifest} {f : Settings.Fault}
    (loaded : Manifest.load host.machine.disk i.workspace = .ok m)
    (fault : (settingsFor host.environment
      (m.rootUnder (baseDirectory host.machine.disk i.workspace)) i).validate = .error f)

/-- What is left of preparing once there are a workspace and settings. -/
def equipped (i : Invocation) (settings : Settings) (workspace : Workspace) :
    Except SetupError Prepared := do
  if !workspace.hasModule i.module then throw (.unknownModule i.module i.workspace)
  settings.validate.mapError .settings
  let root ← settings.requireRoot.mapError .tool
  return { settings, root, workspace }

theorem prepare_eq (host : Host) (i : Invocation) :
    prepare host i = (do
      let m ← (Manifest.load host.machine.disk i.workspace).mapError .manifest
      let base := baseDirectory host.machine.disk i.workspace
      let workspace ← (m.toWorkspace base).mapError .manifest
      equipped i (settingsFor host.environment (m.rootUnder base) i) workspace) := rfl

theorem equipped_eq_error_iff (i : Invocation) {settings : Settings} (workspace : Workspace)
    {root : Path} (hroot : settings.workspaceRoot = some root) :
    (∃ e, equipped i settings workspace = .error e) ↔
      workspace.hasModule i.module = false ∨ ∃ f, settings.validate = .error f := by
  have hrequire : settings.requireRoot = .ok root := by
    rw [Settings.requireRoot, hroot]
  unfold equipped
  cases hhas : workspace.hasModule i.module with
  | false => exact iff_of_true ⟨_, rfl⟩ (Or.inl rfl)
  | true =>
    cases hvalid : settings.validate with
    | error f => exact iff_of_true ⟨_, rfl⟩ (Or.inr ⟨f, rfl⟩)
    | ok u => simp [hrequire, Except.mapError, bind, Except.bind, pure, Except.pure]

/-- Preparing fails if and only if something hinders the invocation. -/
theorem prepare_eq_error_iff (host : Host) (i : Invocation) :
    (∃ e, prepare host i = .error e) ↔ Hindered host i := by
  rw [prepare_eq]
  cases hload : Manifest.load host.machine.disk i.workspace with
  | error e => exact iff_of_true ⟨_, rfl⟩ (.unloaded hload)
  | ok m =>
    let base := baseDirectory host.machine.disk i.workspace
    let settings := settingsFor host.environment (m.rootUnder base) i
    show (∃ e, ((m.toWorkspace base).mapError .manifest >>= equipped i settings) = .error e) ↔ _
    cases hworkspace : m.toWorkspace base with
    | error e =>
      have hdup : ¬ (m.modules.map (·.name)).Nodup := by
        intro hnodup
        rw [Manifest.toWorkspace_eq_ok_iff.mpr ⟨hnodup, rfl⟩] at hworkspace
        cases hworkspace
      exact iff_of_true ⟨.manifest e, rfl⟩ (.repeated hload hdup)
    | ok workspace =>
      have hnodup := (Manifest.toWorkspace_eq_ok_iff.mp hworkspace).1
      have hmodule : workspace.hasModule i.module = false ↔
          i.module ∉ m.modules.map (·.name) := by
        rw [Bool.eq_false_iff, ne_eq, Workspace.hasModule_iff, Manifest.modules_toWorkspace hworkspace,
          List.map_map]
        rfl
      refine (equipped_eq_error_iff i _ rfl).trans ⟨?_, fun hindered => ?_⟩
      · rintro (hmissing | ⟨f, hfault⟩)
        · exact .undeclared hload (hmodule.mp hmissing)
        · exact .invalid hload hfault
      · cases hindered with
        | unloaded failed => cases hload.symm.trans failed
        | repeated loaded twice =>
          cases hload.symm.trans loaded
          exact absurd hnodup twice
        | undeclared loaded missing =>
          cases hload.symm.trans loaded
          exact Or.inl (hmodule.mpr missing)
        | invalid loaded fault =>
          cases hload.symm.trans loaded
          exact Or.inr ⟨_, fault⟩

theorem not_hindered_of_prepared {host : Host} {i : Invocation} {p : Prepared}
    (h : prepare host i = .ok p) : ¬ Hindered host i := by
  intro hindered
  obtain ⟨e, he⟩ := (prepare_eq_error_iff host i).mpr hindered
  cases h.symm.trans he

/-! ### Carrying out -/

variable {host : Host} {i : Invocation} {p : Prepared}

/-- The classpath that a run resolves, and what Bazel is left with. -/
def resolved (host : Host) (i : Invocation) (p : Prepared) : Classpath × BazelMemory Machine :=
  let run := (Resolver.resolve (resolverOf host p) i.module host.moment
    ⟨sceneOf host p, .empty p.settings.cacheTimeout⟩).value
  (run.1, run.2.scene.tool)

/-- The report of a run that checks, and what Bazel is left with. -/
def checked (host : Host) (i : Invocation) (p : Prepared) : CheckReport × BazelMemory Machine :=
  let run := ((resolverOf host p).check i.module (sceneOf host p)).value
  (run.1, run.2.tool)

/-- Bazel cannot be started, or it does not answer the query. -/
def Unanswered (host : Host) (i : Invocation) (p : Prepared) : Prop :=
  (∀ arguments directory, ∃ e,
    ((bazelOf host p).launch ⟨p.settings.toolPath, arguments, directory⟩ host.machine).1 = .error e) ∨
  ∃ f, ((bazelOf host p).tool.query (Assembler.requestOf i.module p.workspace)
    (.new host.machine)).value.1 = .error f

theorem entries_resolved (h : Unanswered host i p) : (resolved host i p).1.entries = [] := by
  refine Resolver.entries_resolve_of_unanswered (fun metadata hanswer => ?_) rfl
  rcases h with hmissing | ⟨f, hfailed⟩
  · exact Bazel.units_of_missing hmissing _ hanswer
  · have hsame := hfailed.symm.trans hanswer
    cases hsame

theorem reaches_resolved (host : Host) (i : Invocation) (p : Prepared) :
    (bazelOf host p).Reaches host.machine (resolved host i p).2.world := by
  obtain ⟨calls, hcalls⟩ := Resolver.exists_calls_resolve (resolverOf host p) i.module host.moment
    ⟨sceneOf host p, .empty p.settings.cacheTimeout⟩
  have hleft : (resolved host i p).2 = _ := hcalls
  rw [hleft]
  exact Bazel.reaches_after (b := bazelOf host p) (.new host.machine) calls

theorem reaches_checked (host : Host) (i : Invocation) (p : Prepared) :
    (bazelOf host p).Reaches host.machine (checked host i p).2.world := by
  obtain ⟨calls, hcalls⟩ := Assembler.exists_calls_check (resolverOf host p) i.module (sceneOf host p)
  have hleft : (checked host i p).2 = _ := hcalls
  rw [hleft]
  exact Bazel.reaches_after (b := bazelOf host p) (.new host.machine) calls

theorem perform_value (host : Host) (i : Invocation) :
    (perform host i).value =
      match prepare host i with
      | .error _ => .refused host 1
      | .ok p =>
        match i.task with
        | .resolve output => (resolve host i output p).value
        | .check => (check host i p).value := by
  simp only [perform, Traced.bind_value]
  cases prepare host i with
  | error e => rfl
  | ok p => cases i.task <;> rfl

theorem resolve_value (host : Host) (i : Invocation) (output : Option Path) (p : Prepared) :
    (resolve host i output p).value =
      (deliver output ((resolved host i p).1.render i.format i.module) (resolved host i p).2).value :=
  rfl

/-- A document is printed, or it is in its file afterwards; otherwise the file could not be written. -/
theorem deliver_value (output : Option Path) (document : String) (s : BazelMemory Machine) :
    let disk := s.world.disk
    let r := (deliver output document s).value
    r.history = s.history ∧
    (output = none → r.exitCode = 0 ∧ r.stdout = document ++ "\n" ∧ r.disk = disk) ∧
    ∀ path, output = some path → r.stdout = "" ∧
      (∀ d, disk.write path (.file document) = .ok d →
        r.exitCode = 0 ∧ r.disk = d ∧ d.read path = .ok document) ∧
      ∀ f, disk.write path (.file document) = .error f → r.exitCode = 1 ∧ r.disk = disk := by
  intro disk r
  cases output with
  | none => exact ⟨rfl, fun _ => ⟨rfl, rfl, rfl⟩, fun path h => (by cases h)⟩
  | some path =>
    cases hw : disk.write path (.file document) with
    | ok d =>
      have hr : r = ⟨0, "", d, s.history⟩ := by simp [r, deliver, disk, hw]
      rw [hr]
      refine ⟨rfl, fun h => (by cases h), fun path' h => ?_⟩
      cases h
      refine ⟨rfl, fun d' hd => ?_, fun f hf => (by cases hw.symm.trans hf)⟩
      cases hw.symm.trans hd
      exact ⟨rfl, rfl, (Disk.read_write hw).1⟩
    | error f =>
      have hr : r = ⟨1, "", disk, s.history⟩ := by simp [r, deliver, disk, hw]
      rw [hr]
      refine ⟨rfl, fun h => (by cases h), fun path' h => ?_⟩
      cases h
      exact ⟨rfl, fun d hd => (by cases hw.symm.trans hd), fun _ _ => ⟨rfl, rfl⟩⟩

/-! ### Runs -/

theorem run_of_accepted (host : Host) {arguments : List String} {i : Invocation}
    (accepted : Invocation.ofArguments arguments = .ok i) :
    let e := run host arguments
    let r := (perform host i).value
    e.exitCode = r.exitCode ∧ e.stdout = r.stdout ∧ e.disk = r.disk ∧ e.history = r.history := by
  simp [run, accepted]

/-- What a run comes to, for any accepted arguments, manifest and environment, and whatever Bazel
does. A hindered invocation ends with exit code 1 and without output; no file is written, and since
it is the same with any other programs, none has been run. Any other `resolve` has one document, which
shows the classpath: it is printed, or it is in the file for it and nothing is printed; the exit code is 0
unless that file cannot be written. If Bazel cannot be started, or does not answer the query, the
document has no entries. A `check` prints a document that shows its report, and the exit code tells
whether that is valid. Besides the file for the document, only what Bazel was run for has changed the
disk. -/
theorem run_keeps_contract {host : Host} {arguments : List String} {i : Invocation}
    (accepted : Invocation.ofArguments arguments = .ok i) :
    let e := run host arguments
    (Hindered host i →
      e.exitCode = 1 ∧ e.stdout = "" ∧ e.disk = host.machine.disk ∧ e.history = [] ∧
        ∀ programs, run { host with machine := ⟨host.machine.disk, programs⟩ } arguments = e) ∧
    (¬ Hindered host i → ∃ p, prepare host i = .ok p ∧
      (∀ output, i.task = .resolve output →
        let c := (resolved host i p).1
        let left := (resolved host i p).2
        let disk := left.world.disk
        let document := c.render i.format i.module
        c.IsDocument i.module i.format document ∧
        (bazelOf host p).Reaches host.machine left.world ∧ e.history = left.history ∧
        (output = none → e.exitCode = 0 ∧ e.stdout = document ++ "\n" ∧ e.disk = disk) ∧
        (∀ path, output = some path → e.stdout = "" ∧
          (∀ d, disk.write path (.file document) = .ok d →
            e.exitCode = 0 ∧ e.disk = d ∧ d.read path = .ok document) ∧
          ∀ f, disk.write path (.file document) = .error f → e.exitCode = 1 ∧ e.disk = disk) ∧
        (Unanswered host i p → c.entries = [])) ∧
      (i.task = .check →
        let r := (checked host i p).1
        let left := (checked host i p).2
        let document := r.render i.format
        r.IsDocument i.format document ∧
        (bazelOf host p).Reaches host.machine left.world ∧ e.history = left.history ∧
        e.exitCode = (if r.valid then 0 else 1) ∧ e.stdout = document ++ "\n" ∧
        e.disk = left.world.disk)) := by
  intro e
  obtain ⟨hcode, hstdout, hdisk, hhistory⟩ := run_of_accepted host accepted
  rw [perform_value] at hcode hstdout hdisk hhistory
  cases hprepared : prepare host i with
  | error f =>
    have hindered := (prepare_eq_error_iff host i).mp ⟨f, hprepared⟩
    refine ⟨fun _ => ?_, fun hfree => absurd hindered hfree⟩
    rw [hprepared] at hcode hstdout hdisk hhistory
    refine ⟨hcode, hstdout, hdisk, hhistory, fun programs => ?_⟩
    have hsame : prepare { host with machine := ⟨host.machine.disk, programs⟩ } i = .error f :=
      hprepared
    simp only [e, run, accepted, perform, hsame, hprepared]
    rfl
  | ok p =>
    have hfree := not_hindered_of_prepared hprepared
    refine ⟨fun hindered => absurd hindered hfree, fun _ => ⟨p, rfl, fun output htask => ?_,
      fun htask => ?_⟩⟩
    · intro c left disk document
      rw [hprepared, htask] at hcode hstdout hdisk hhistory
      obtain ⟨hnoted, hprinted, hwritten⟩ := deliver_value output document left
      rw [← resolve_value host i output p] at hnoted hprinted hwritten
      simp only [← hcode, ← hstdout, ← hdisk] at hprinted hwritten
      exact ⟨c.isDocument_render i.module i.format, reaches_resolved host i p, hhistory.trans hnoted,
        hprinted, hwritten, entries_resolved⟩
    · intro r left document
      rw [hprepared, htask] at hcode hstdout hdisk hhistory
      exact ⟨r.isDocument_render i.format, reaches_checked host i p, hhistory, hcode, hstdout, hdisk⟩

/-- Without programs nothing can be started. -/
theorem launch_of_no_programs (searchPath : Option String) (disk : Disk) (c : Command) :
    ∃ e, (Machine.launch searchPath c ⟨disk, []⟩).1 = .error e := by
  have hfile : ∀ seen arguments p, ∃ e, Machine.runFile ⟨disk, []⟩ seen arguments p = .error e := by
    intro seen arguments p
    unfold Machine.runFile
    cases seen.place? .follow p with
    | error e => exact ⟨e, rfl⟩
    | ok place =>
      simp only [bind, Except.bind, List.lookup_nil]
      cases seen.inode? place <;> exact ⟨_, rfl⟩
  have hfirst : ∀ seen arguments (l : List Path) told, ∃ e,
      Machine.runFirst (Machine.runFile ⟨disk, []⟩ seen arguments) told l = .error e := by
    intro seen arguments l
    induction l with
    | nil => exact fun told => ⟨told, rfl⟩
    | cons p rest ih =>
      intro told
      obtain ⟨e, he⟩ := hfile seen arguments p
      rw [Machine.runFirst, he]
      dsimp only
      split
      · exact ih _
      · exact ⟨e, rfl⟩
  have hattempt : ∃ e, Machine.attempt ⟨disk, []⟩ searchPath c = .error e := by
    unfold Machine.attempt
    split
    · exact ⟨_, rfl⟩
    · cases Machine.diskFor ⟨disk, []⟩ c with
      | error e => exact ⟨e, rfl⟩
      | ok seen => exact hfirst seen c.arguments _ _
  obtain ⟨e, he⟩ := hattempt
  exact ⟨e, by rw [Machine.launch, he]⟩

/-- A machine with a manifest of two modules, and these programs. -/
def hostWith (programs : List (Place × Executable)) : Host :=
  let manifest := "\x7b\"modules\": [\x7b\"name\": \"app\", \"location\": \"app\", " ++
    "\"targets\": [\"//app\"]\x7d, \x7b\"name\": \"lib\", \"location\": \"lib\", " ++
    "\"source_roots\": [\x7b\"path\": \".\"\x7d]\x7d]\x7d"
  let bin : Place := ["bin".toList]
  { machine := ⟨⟨[(["ws.json".toList], .file manifest), (bin, .directory),
      (bin ++ ["bazel".toList], .binary)], []⟩, programs⟩
    environment := []
    moment := default }

/-- A program that writes a file about the other module when it is to build something. -/
def describer : Executable := fun arguments disk =>
  let name := "lib.cpresolve.json".toList
  let text := "\x7b\"label\": \"//lib\", \"sources\": [\"lib/A\"]\x7d"
  if arguments.head? = some "build" then
    .ok (⟨0, name.map fun c => UInt8.ofNat c.toNat, []⟩, disk.put [name] (.file text))
  else .ok (⟨0, [], []⟩, disk)

theorem run_keeps_contract_of_two_hosts :
    let arguments := ["resolve", "app", "-w", "/ws.json", "-o", "/out"]
    let working := hostWith [(["bin".toList, "bazel".toList], describer)]
    Invocation.ofArguments arguments = .ok ⟨.resolve (some (.ofString "/out")), "app",
      .ofString "/ws.json", .human, none, none, false, false⟩ ∧
    (let e := run (hostWith []) arguments
    e.exitCode = 0 ∧ e.stdout = "" ∧ ∃ c : Classpath, c.entries = [] ∧
      e.disk.read (.ofString "/out") = .ok (c.render .human "app")) ∧
    let e := run working arguments
    e.exitCode = 0 ∧ e.stdout = "" ∧ ∃ c : Classpath, c.entries = [.module "/lib"] ∧
      e.disk.read (.ofString "/out") = .ok (c.render .human "app") := by
  intro arguments working
  let i : Invocation := ⟨.resolve (some (.ofString "/out")), "app", .ofString "/ws.json", .human, none,
    none, false, false⟩
  have accepted : Invocation.ofArguments arguments = .ok i := by decide +kernel
  have hcarried : ∀ host, (run host arguments).exitCode = 0 →
      ∃ p, prepare host i = .ok p ∧ (run host arguments).stdout = "" ∧
        (Unanswered host i p → (resolved host i p).1.entries = []) ∧
        (run host arguments).disk.read (.ofString "/out") =
          .ok ((resolved host i p).1.render .human "app") := by
    intro host hcode
    obtain ⟨hhindered, hfree⟩ := @run_keeps_contract host arguments i accepted
    have hne : (run host arguments).exitCode ≠ 1 := by
      rw [hcode]
      decide
    obtain ⟨p, hprepared, hresolve, -⟩ := hfree fun hindered => hne (hhindered hindered).1
    obtain ⟨-, -, -, -, hwritten, hempty⟩ := hresolve _ rfl
    obtain ⟨hstdout, hok, herror⟩ := hwritten _ rfl
    refine ⟨p, hprepared, hstdout, hempty, ?_⟩
    cases hw : (resolved host i p).2.world.disk.write (.ofString "/out")
        (.file ((resolved host i p).1.render .human "app")) with
    | error f => exact absurd (herror f hw).1 hne
    | ok d =>
      obtain ⟨-, hdisk, hread⟩ := hok d hw
      rw [hdisk]
      exact hread
  refine ⟨accepted, ?_, ?_⟩
  · have hcode : (run (hostWith []) arguments).exitCode = 0 := by decide +kernel
    obtain ⟨p, -, hstdout, hempty, hread⟩ := hcarried _ hcode
    have hunanswered : Unanswered (hostWith []) i p := Or.inl fun _ _ => launch_of_no_programs _ _ _
    exact ⟨hcode, hstdout, _, hempty hunanswered, hread⟩
  · have hcode : (run working arguments).exitCode = 0 := by decide +kernel
    have hfound : ((prepare working i).toOption.map fun p => (resolved working i p).1.entries) =
        some [.module "/lib"] := by
      decide +kernel
    obtain ⟨p, hprepared, hstdout, -, hread⟩ := hcarried _ hcode
    rw [hprepared] at hfound
    exact ⟨hcode, hstdout, _, Option.some.inj hfound, hread⟩

end Program

end Buildpath
