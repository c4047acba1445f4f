import Buildpath.Proofs.Tool.Runs
import Buildpath.Resolve.Validity

/-!
# When a module is valid

A build that failed always leaves a problem, if need be one of all targets, and a build that succeeded
leaves none, whatever either has written (`Bazel.problemsOf_eq_nil_iff`). So nothing is lost when a
check of a module goes by the problems alone: it finds the module valid exactly if there is a
workspace, the tool can be run, and the module stands for the workspace or its build succeeded
(`validity_is_clean_build`). A report that is not valid has problems or tells why there is no answer,
one of the two.
-/

namespace Buildpath

/-! ### Builds -/

namespace Bazel

variable {ω : Type} (b : Bazel ω) (s : BazelMemory ω) (targets : List String)

/-- The command that builds the targets of a check. -/
def checkCommand : Command :=
  ⟨b.program, ["build", "--keep_going"] ++ targets, some b.root⟩

/-- The targets can be built in a world: the build could be started, and succeeded. -/
def Builds (world : ω) : Prop :=
  ∃ o, (b.launch (b.checkCommand targets) world).1 = .ok o ∧ o.exitCode = 0

theorem problemsOf_eq_nil_iff (o : Outcome) : problemsOf targets o = [] ↔ o.exitCode = 0 := by
  have hsucceeded : o.succeeded = true ↔ o.exitCode = 0 := by simp [Outcome.succeeded]
  rw [← hsucceeded, problemsOf]
  cases hs : o.succeeded with
  | true => simp
  | false => cases hp : Problem.ofOutput o.messageText <;> simp

theorem answer_check :
    (b.tool.check targets s).value.1 =
      ((b.launch (b.checkCommand targets) s.world).1.mapError SystemError.toFailure).map
        (problemsOf targets) := by
  show (b.check targets s).value.1 = _
  simp only [check, run, start, Traced.bind_value, Traced.pure_value, checkCommand]
  cases b.launch ⟨b.program, ["build", "--keep_going"] ++ targets, some b.root⟩ s.world with
  | mk result world => cases result <;> rfl

theorem check_eq_ok_nil_iff :
    (b.tool.check targets s).value.1 = .ok [] ↔ b.Builds targets s.world := by
  rw [answer_check, Builds]
  cases (b.launch (b.checkCommand targets) s.world).1 with
  | error e => simp [Except.mapError, Except.map]
  | ok o => simp [Except.mapError, Except.map, problemsOf_eq_nil_iff]

/-- What is known about the program, or what it answers. -/
theorem answer_isAvailable :
    (b.tool.isAvailable s).value.1 = s.available.getD (b.responds s.world) := by
  rw [isAvailable_value]
  cases s.available <;> rfl

/-- The world in which a check builds: asking for the version may have changed it. -/
theorem world_isAvailable :
    (b.tool.isAvailable s).value.2.world =
      if s.available.isSome then s.world else b.left .version s.world := by
  rw [isAvailable_value]
  cases s.available <;> rfl

end Bazel

/-! ### Checks -/

namespace Assembler

variable {σ : Type} (a : Assembler σ) (module : String) (s : Scene σ)

/-- The tool in use can be run. -/
def CanRun : Prop :=
  (a.tool.isAvailable s.tool).value.1 = true

/-- What the tool finds out about the targets of the module once it is known to run. -/
def answer : Except Failure (List Problem) :=
  (a.tool.check (s.workspace.targetsOf module) (a.tool.isAvailable s.tool).value.2).value.1

/-- How a check of a module goes, and with which report it ends. -/
inductive Checked : CheckReport → Prop
  | rootless (hroot : a.tool.workspaceRoot s.tool = none) :
      Checked (.failed module "Bazel workspace root is not set")
  | unavailable (hroot : (a.tool.workspaceRoot s.tool).isSome) (hrun : ¬ a.CanRun s) :
      Checked (.failed module "Bazel is not available")
  | workspace (hroot : (a.tool.workspaceRoot s.tool).isSome) (hrun : a.CanRun s)
      (hname : Module.isWorkspaceName module = true) : Checked (.clean module)
  | built (hroot : (a.tool.workspaceRoot s.tool).isSome) (hrun : a.CanRun s)
      (hname : Module.isWorkspaceName module = false) {problems : List Problem}
      (hanswer : a.answer module s = .ok problems) : Checked (.ofProblems module problems)
  | unanswered (hroot : (a.tool.workspaceRoot s.tool).isSome) (hrun : a.CanRun s)
      (hname : Module.isWorkspaceName module = false) {f : Failure}
      (hanswer : a.answer module s = .error f) : Checked (.failed module f.message)

theorem checked_check : a.Checked module s (a.check module s).value.1 := by
  unfold check
  cases hroot : a.tool.workspaceRoot s.tool with
  | none => exact .rootless hroot
  | some root =>
    have hsome : (a.tool.workspaceRoot s.tool).isSome := by rw [hroot]; rfl
    cases hrun : (a.tool.isAvailable s.tool).value.1 with
    | false =>
      simpa [hrun] using Checked.unavailable hsome (by simp [CanRun, hrun])
    | true =>
      cases hname : Module.isWorkspaceName module with
      | true => simpa [hrun] using Checked.workspace hsome hrun hname
      | false =>
        cases hanswer : a.answer module s with
        | ok problems =>
          have hbuilt := Checked.built hsome hrun hname hanswer
          unfold answer at hanswer
          simpa [hrun, checkTargets, hanswer] using hbuilt
        | error f =>
          have hfailed := Checked.unanswered hsome hrun hname hanswer
          unfold answer at hanswer
          simpa [hrun, checkTargets, hanswer] using hfailed

theorem Checked.valid_iff {report : CheckReport} (h : a.Checked module s report) :
    report.valid = true ↔
      (a.tool.workspaceRoot s.tool).isSome ∧ a.CanRun s ∧
        (Module.isWorkspaceName module = true ∨ a.answer module s = .ok []) := by
  cases h with
  | rootless hroot => simp [CheckReport.failed, hroot]
  | unavailable hroot hrun => simp [CheckReport.failed, hrun]
  | workspace hroot hrun hname => simp [CheckReport.clean, hroot, hrun, hname]
  | built hroot hrun hname hanswer =>
    simp [CheckReport.ofProblems, hroot, hrun, hname, hanswer]
  | unanswered hroot hrun hname hanswer =>
    simp [CheckReport.failed, hname, hanswer]

/-- Every report says exactly one thing. -/
theorem Checked.verdict {report : CheckReport} (h : a.Checked module s report) :
    (report.valid = true ∧ report.problems = [] ∧ report.error = none) ∨
      (report.valid = false ∧ report.problems ≠ [] ∧ report.error = none) ∨
      (report.valid = false ∧ report.problems = [] ∧ report.error.isSome) := by
  cases h with
  | rootless hroot => exact .inr (.inr ⟨rfl, rfl, rfl⟩)
  | unavailable hroot hrun => exact .inr (.inr ⟨rfl, rfl, rfl⟩)
  | workspace hroot hrun hname => exact .inl ⟨rfl, rfl, rfl⟩
  | @built hroot hrun hname problems hanswer =>
    cases problems with
    | nil => exact .inl ⟨rfl, rfl, rfl⟩
    | cons p rest => exact .inr (.inl ⟨rfl, List.cons_ne_nil p rest, rfl⟩)
  | unanswered hroot hrun hname hanswer => exact .inr (.inr ⟨rfl, rfl, rfl⟩)

/-- A build leaves no problems exactly if it succeeds, and a check finds a module valid exactly if
there is a workspace, the tool can be run, and the module stands for the workspace or its targets
could be built. A report that is not valid has problems or an error, and not both; one that is valid
has neither. -/
theorem validity_is_clean_build :
    let report := (a.check module s).value.1
    (report.valid = true ↔
      (a.tool.workspaceRoot s.tool).isSome ∧ a.CanRun s ∧
        (Module.isWorkspaceName module = true ∨ a.answer module s = .ok [])) ∧
    (report.valid = true → report.problems = [] ∧ report.error = none) ∧
    (report.valid = false →
      (report.problems ≠ [] ∧ report.error = none) ∨
        (report.problems = [] ∧ report.error.isSome)) ∧
    ∀ (ω : Type) (b : Bazel ω),
      (∀ targets memory o, (b.launch (b.checkCommand targets) memory.world).1 = .ok o →
        ∃ problems, (b.tool.check targets memory).value.1 = .ok problems ∧
          (problems = [] ↔ o.exitCode = 0)) ∧
      ∀ files marker memory workspace,
        let assembler : Assembler (BazelMemory ω) := ⟨b.tool, files, marker⟩
        -- Asking for the version comes first and may change the world.
        let world := if memory.available.isSome then memory.world else b.left .version memory.world
        (assembler.check module ⟨memory, workspace⟩).value.1.valid = true ↔
          memory.available.getD (b.responds memory.world) = true ∧
            (Module.isWorkspaceName module = true ∨
              b.Builds (workspace.targetsOf module) world) := by
  intro report
  have hchecked := a.checked_check module s
  refine ⟨hchecked.valid_iff, fun hvalid => ?_, fun hinvalid => ?_, fun ω b => ⟨?_, ?_⟩⟩
  · obtain ⟨-, hclean⟩ | ⟨hinvalid, -⟩ | ⟨hinvalid, -⟩ := hchecked.verdict
    · exact hclean
    · cases hvalid.symm.trans hinvalid
    · cases hvalid.symm.trans hinvalid
  · obtain ⟨hvalid, -⟩ | ⟨-, hproblems⟩ | ⟨-, herror⟩ := hchecked.verdict
    · cases hvalid.symm.trans hinvalid
    · exact .inl hproblems
    · exact .inr herror
  · intro targets memory o ho
    exact ⟨_, by rw [b.answer_check, ho]; rfl, Bazel.problemsOf_eq_nil_iff targets o⟩
  · intro files marker memory workspace assembler world
    rw [(assembler.checked_check module ⟨memory, workspace⟩).valid_iff]
    have hrun : assembler.CanRun ⟨memory, workspace⟩ ↔
        memory.available.getD (b.responds memory.world) = true := by
      rw [CanRun, b.answer_isAvailable]
    have hanswer : assembler.answer module ⟨memory, workspace⟩ = .ok [] ↔
        b.Builds (workspace.targetsOf module) world := by
      have hworld : (b.tool.isAvailable memory).value.2.world = world := b.world_isAvailable memory
      exact hworld ▸ b.check_eq_ok_nil_iff _ _
    have hroot : (assembler.tool.workspaceRoot memory).isSome := rfl
    rw [hrun, hanswer]
    exact and_iff_right hroot

/-- A tool whose builds tell nothing: one fails without a word, one succeeds and shows an error. -/
def misleading : Bazel where
  program := .ofString "/bin/bazel"
  root := .ofString "/ws"
  aspect := "//:aspect"
  files := (Tree.empty ⟨['/']⟩).fileSystem
  launch c _ :=
    if c.arguments.contains "//app" then (.ok ⟨1, [], []⟩, ())
    else (.ok ⟨0, [], "ERROR: a.java:1:2: broken".toList.map fun c => UInt8.ofNat c.toNat⟩, ())

theorem validity_is_clean_build_of_misleading :
    let assembler : Assembler BazelMemory := ⟨misleading.tool, misleading.files (), "external"⟩
    let workspace : Workspace := .ofModules
      [⟨"app", .ofString "/ws/app", [], ["//app"]⟩, ⟨"lib", .ofString "/ws/lib", [], ["//lib"]⟩]
    let report (name : String) := (assembler.check name ⟨.empty, workspace⟩).value.1
    (report "lib").valid = true ∧ (report "lib").problems = [] ∧
      (report "app").valid = false ∧ (report "app").problems ≠ [] ∧ (report "app").error = none ∧
      (misleading.tool.check ["//app"] .empty).value.1 ≠ .ok [] := by
  intro assembler workspace report
  obtain ⟨-, hclean, -, hbazel⟩ :=
    assembler.validity_is_clean_build "lib" ⟨.empty, workspace⟩
  obtain ⟨-, -, hbroken, -⟩ := assembler.validity_is_clean_build "app" ⟨.empty, workspace⟩
  obtain ⟨hbuild, hverdict⟩ := hbazel Unit misleading
  have hlib : (report "lib").valid = true :=
    (hverdict (misleading.files ()) "external" .empty workspace).mpr
      ⟨by decide +kernel, .inr ⟨_, rfl, by decide +kernel⟩⟩
  have happ : (report "app").valid = false := by decide +kernel
  have hwords : (report "app").error = none := by decide +kernel
  obtain ⟨hproblems, -⟩ | ⟨-, herror⟩ := hbroken happ
  · refine ⟨hlib, (hclean hlib).1, happ, hproblems, hwords, ?_⟩
    obtain ⟨problems, hanswer, hnone⟩ := hbuild ["//app"] .empty ⟨1, [], []⟩ (by decide +kernel)
    rw [hanswer]
    exact fun h => absurd (hnone.mp (Except.ok.inj h)) (by decide)
  · rw [hwords] at herror
    cases herror

end Assembler

end Buildpath
