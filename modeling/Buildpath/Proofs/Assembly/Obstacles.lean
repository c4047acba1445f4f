import Buildpath.Proofs.Assembly.Courses

/-!
# What stands in the way of an assembly

An assembly fails for one of three reasons: the tool does not know its workspace, it does not answer
the query, or it refuses the output roots when they are needed for the first time (`Obstacle`). The
file system is not among them. A failed assembly has made the calls up to the obstacle and no other;
it has reported no archive, has flushed nothing, and has noted the owners of the dependencies before
the one that it stopped at.
-/

namespace Buildpath

/-- Up to these others, to which the module refers now, the workspace is as it was. -/
structure Workspace.Gains (w w' : Workspace) (module : String) (owners : List String) : Prop where
  modules : w'.modules = w.modules
  references : w'.references module =
    w.references module ++ owners.filter fun o => o ∉ w.references module
  others : ∀ m, m ≠ module → w'.references m = w.references m

namespace Assembler

variable {σ : Type}

/-- A reason for an assembly to fail: the failure, the owners of the dependencies before it, and the
calls that the assembly makes up to there. -/
inductive Obstacle (tool : BuildTool σ) (module : String) (s : Scene σ) :
    Failure → List String → List ToolCall → Prop where
  | rootless (unknown : tool.workspaceRoot s.tool = none) :
    Obstacle tool module s (.toolUnavailable "Bazel workspace root is not set") [] []
  | unanswered {root : Path} {f : Failure} {t : σ} (known : tool.workspaceRoot s.tool = some root)
    (answer : (tool.query (requestOf module s.workspace) s.tool).value = (.error f, t)) :
    Obstacle tool module s f []
      [.startQuery (requestOf module s.workspace), .finishQuery (requestOf module s.workspace)]
  | refused {root : Path} {metadata : Metadata} {t : σ} {before later : List Dependency}
    {d : Dependency} {f : Failure} (known : tool.workspaceRoot s.tool = some root)
    (answer : (tool.query (requestOf module s.workspace) s.tool).value = (.ok metadata, t))
    (split : metadata.units = before ++ d :: later)
    (settled : ¬ NeedsRoots (ownerName root s.workspace.modules) before)
    (unowned : ownerName root s.workspace.modules d = none) (archives : d.archives ≠ [])
    (refusal : (tool.outputRoots t).value.1 = .error f) :
    Obstacle tool module s f (otherOwners (ownerName root s.workspace.modules) module before)
      [.startQuery (requestOf module s.workspace), .finishQuery (requestOf module s.workspace),
        .outputRoots]

/-! ### The first dependency that needs the output roots -/

theorem first_needy_unique {owner : Dependency → Option String}
    {before before' later later' : List Dependency} {d d' : Dependency}
    (h : before ++ d :: later = before' ++ d' :: later')
    (hb : ¬ NeedsRoots owner before) (hb' : ¬ NeedsRoots owner before')
    (hd : owner d = none ∧ d.archives ≠ []) (hd' : owner d' = none ∧ d'.archives ≠ []) :
    before = before' := by
  induction before generalizing before' with
  | nil =>
    cases before' with
    | nil => rfl
    | cons e rest =>
      cases (List.cons.inj h).1
      exact absurd (needsRoots_cons_iff.mpr (Or.inl hd)) hb'
  | cons e rest ih =>
    cases before' with
    | nil =>
      cases (List.cons.inj h).1
      exact absurd (needsRoots_cons_iff.mpr (Or.inl hd')) hb
    | cons e' rest' =>
      obtain ⟨rfl, hrest⟩ := List.cons.inj h
      rw [needsRoots_cons_iff, not_or] at hb hb'
      rw [ih hrest hb.2 hb'.2]

theorem needsRoots_of_split {owner : Dependency → Option String} {l before later : List Dependency}
    {d : Dependency} (h : l = before ++ d :: later) (hd : owner d = none) (ha : d.archives ≠ []) :
    NeedsRoots owner l :=
  ⟨d, h ▸ List.mem_append_cons_self, hd, ha⟩

/-- At most one obstacle is in the way. -/
theorem Obstacle.unique {tool : BuildTool σ} {module : String} {s : Scene σ} {f f' : Failure}
    {owners owners' : List String} {calls calls' : List ToolCall}
    (h : Obstacle tool module s f owners calls) (h' : Obstacle tool module s f' owners' calls') :
    f = f' ∧ owners = owners' ∧ calls = calls' := by
  cases h with
  | rootless unknown =>
    cases h' with
    | rootless unknown' => exact ⟨rfl, rfl, rfl⟩
    | unanswered known answer => simp [unknown] at known
    | refused known answer split settled unowned archives refusal => simp [unknown] at known
  | unanswered known answer =>
    cases h' with
    | rootless unknown => simp [unknown] at known
    | unanswered known' answer' =>
      rw [answer] at answer'
      cases answer'
      exact ⟨rfl, rfl, rfl⟩
    | refused known' answer' split settled unowned archives refusal =>
      rw [answer] at answer'
      cases answer'
  | refused known answer split settled unowned archives refusal =>
    cases h' with
    | rootless unknown => simp [unknown] at known
    | unanswered known' answer' =>
      rw [answer] at answer'
      cases answer'
    | refused known' answer' split' settled' unowned' archives' refusal' =>
      rw [known] at known'
      cases known'
      rw [answer] at answer'
      cases answer'
      rw [refusal] at refusal'
      cases refusal'
      cases first_needy_unique (split ▸ split') settled settled' ⟨unowned, archives⟩
        ⟨unowned', archives'⟩
      exact ⟨rfl, rfl, rfl⟩

theorem Obstacle.flush_not_mem {tool : BuildTool σ} {module : String} {s : Scene σ} {f : Failure}
    {owners : List String} {calls : List ToolCall} (h : Obstacle tool module s f owners calls)
    (targets : List String) : .flush targets ∉ calls := by
  cases h <;> simp

/-! ### The assembly -/

theorem gains_noteOwners (owner : Dependency → Option String) (module : String) (w : Workspace)
    (l : List Dependency) :
    w.Gains (noteOwners owner module w l) module (otherOwners owner module l) :=
  ⟨modules_noteOwners l, references_noteOwners l, fun _ hm => references_noteOwners_of_ne hm l⟩

variable (a : Assembler σ) (module : String) (now : Timestamp) (s : Scene σ)

/-- The courses of an assembly during which nobody else acts. -/
theorem tryAssemble_of_root {root : Path} (hw : a.tool.workspaceRoot s.tool = some root) :
    let r := requestOf module s.workspace
    ∃ answer asked noted reports flushes,
      FinishCourse a ⟨root, r⟩ now { s with tool := (a.tool.startQuery r s.tool).value } answer asked
        noted reports flushes ∧
      (a.tryAssemble module now s).value = (answer,
        ⟨(a.tool.after s.tool (.startQuery r :: (asked ++ flushes))).value,
          noteOwners (ownerName root s.workspace.modules) module s.workspace noted⟩) ∧
      (a.tryAssemble module now s).events =
        (a.tool.after s.tool (.startQuery r :: asked)).events ++ reports ++
          (a.tool.after (a.tool.after s.tool (.startQuery r :: asked)).value flushes).events := by
  intro r
  have hstart : ∀ calls, a.tool.after s.tool (.startQuery r :: calls) =
      a.tool.startQuery r s.tool >>= fun t => a.tool.after t calls :=
    a.tool.after_cons s.tool (.startQuery r)
  obtain ⟨answer, asked, noted, reports, flushes, course, hvalue, hevents⟩ :=
    tryAssembleAmid_course a root module id now hw
  refine ⟨answer, asked, noted, reports, flushes, course, ?_, ?_⟩
  · rw [hstart, ← tryAssembleAmid_id, hvalue]
    rfl
  · rw [hstart, Traced.events_bind, Traced.bind_value, ← tryAssembleAmid_id, hevents]
    rfl

/-- Either an obstacle ends the assembly, or there is none and it succeeds. -/
theorem tryAssemble_course :
    (∃ f owners calls s', Obstacle a.tool module s f owners calls ∧
      (a.tryAssemble module now s).value = (.error f, s') ∧
      s'.tool = (a.tool.after s.tool calls).value ∧
      (a.tryAssemble module now s).events = (a.tool.after s.tool calls).events ∧
      s.workspace.Gains s'.workspace module owners) ∨
    (∃ c s', (a.tryAssemble module now s).value = (.ok c, s') ∧
      ∀ f owners calls, ¬ Obstacle a.tool module s f owners calls) := by
  cases hw : a.tool.workspaceRoot s.tool with
  | none =>
    rw [← tryAssembleAmid_id, tryAssembleAmid_of_no_root a module id now hw]
    exact Or.inl ⟨_, _, _, s, .rootless hw, rfl, rfl, rfl, gains_noteOwners (fun _ => none) _ _ []⟩
  | some root =>
    obtain ⟨answer, asked, noted, reports, flushes, course, hvalue, hevents⟩ :=
      tryAssemble_of_root a module now s hw
    have hgains := gains_noteOwners (ownerName root s.workspace.modules) module s.workspace noted
    cases course with
    | unanswered answer =>
      exact Or.inl ⟨_, _, _, _, .unanswered hw answer, hvalue, rfl, by simpa using hevents, hgains⟩
    | refused answer split settled unowned archives refusal =>
      exact Or.inl ⟨_, _, _, _, .refused hw answer split settled unowned archives refusal, hvalue, rfl,
        by simpa using hevents, hgains⟩
    | @done metadata t roots answer known =>
      refine Or.inr ⟨_, _, hvalue, fun f owners calls obstacle => ?_⟩
      have hquery : (a.tool.query (requestOf module s.workspace) s.tool).value = (.ok metadata, t) :=
        answer
      cases obstacle with
      | rootless unknown => simp [unknown] at hw
      | unanswered known' answer' =>
        rw [hquery] at answer'
        cases answer'
      | refused known' answer' split settled unowned archives refusal =>
        rw [hw] at known'
        cases known'
        rw [hquery] at answer'
        cases answer'
        have hroots := known (needsRoots_of_split split unowned archives)
        rw [refusal] at hroots
        cases hroots

/-- Without a dependency that needs the output roots the tool is queried, and that is all. -/
theorem tryAssemble_of_settled {root : Path} {metadata : Metadata} {t : σ}
    (hw : a.tool.workspaceRoot s.tool = some root)
    (hq : (a.tool.query (requestOf module s.workspace) s.tool).value = (.ok metadata, t))
    (hsettled : ¬ NeedsRoots (ownerName root s.workspace.modules) metadata.units) :
    ∃ c s', (a.tryAssemble module now s).value = (.ok c, s') ∧
      s'.tool = (a.tool.after s.tool [.startQuery (requestOf module s.workspace),
        .finishQuery (requestOf module s.workspace)]).value ∧
      (a.tryAssemble module now s).events =
        (a.tool.after s.tool [.startQuery (requestOf module s.workspace),
          .finishQuery (requestOf module s.workspace)]).events := by
  obtain ⟨answer, asked, noted, reports, flushes, course, hvalue, hevents⟩ :=
    tryAssemble_of_root a module now s hw
  cases course with
  | unanswered answer =>
    have hsame := hq.symm.trans answer
    cases hsame
  | refused answer split settled unowned archives refusal =>
    cases hq.symm.trans answer
    exact absurd (needsRoots_of_split split unowned archives) hsettled
  | done roots answer known =>
    cases hq.symm.trans answer
    have hmissed := nothing_missed_of_settled (a.finder t roots)
      (ownerName root s.workspace.modules) hsettled
    have hplaced := placements_of_settled (a.finder t roots)
      (ownerName root s.workspace.modules) hsettled
    refine ⟨_, _, hvalue, ?_, ?_⟩
    · simp only [hsettled, hmissed, if_false, Bool.false_eq_true, List.append_nil]
    · simpa [hsettled, hmissed, hplaced] using hevents

/-- An assembly fails if and only if an obstacle is in the way, and there is no other than the three:
the tool does not know its workspace; it does not answer the query; or it refuses the output roots
at the first dependency with archives that no module owns. Archives that are missing or malformed
are none, nor is anything else in the file system. A failed assembly has made the calls up to the
obstacle and flushed nothing; the events are those of the tool; the module refers to the owners of
the dependencies before the obstacle, and apart from that the workspace is as it was. Where the
failure is not returned, the classpath is empty. If no dependency without an owner has archives, an
answered query is all that an assembly asks for, and it succeeds. -/
theorem assembly_fails_only_at_obstacles :
    (∀ f, (a.tryAssemble module now s).value.1 = .error f ↔
      ∃ owners calls, Obstacle a.tool module s f owners calls) ∧
    (∀ f owners calls, Obstacle a.tool module s f owners calls →
      ∃ s', (a.tryAssemble module now s).value = (.error f, s') ∧
        (a.assemble module now s).value = (.empty now, s') ∧
        s'.tool = (a.tool.after s.tool calls).value ∧
        (∀ targets, .flush targets ∉ calls) ∧
        (a.tryAssemble module now s).events = (a.tool.after s.tool calls).events ∧
        s.workspace.Gains s'.workspace module owners) ∧
    (∀ root metadata t, a.tool.workspaceRoot s.tool = some root →
      (a.tool.query (requestOf module s.workspace) s.tool).value = (.ok metadata, t) →
      ¬ NeedsRoots (ownerName root s.workspace.modules) metadata.units →
      ∃ c s', (a.tryAssemble module now s).value = (.ok c, s') ∧
        s'.tool = (a.tool.after s.tool [.startQuery (requestOf module s.workspace),
          .finishQuery (requestOf module s.workspace)]).value ∧
        (a.tryAssemble module now s).events =
          (a.tool.after s.tool [.startQuery (requestOf module s.workspace),
            .finishQuery (requestOf module s.workspace)]).events) := by
  refine ⟨fun f => ?_, fun f owners calls obstacle => ?_, fun root metadata t hw hq hsettled => ?_⟩
  · rcases tryAssemble_course a module now s with
      ⟨g, owners, calls, s', obstacle, hvalue, -⟩ | ⟨c, s', hvalue, hnone⟩
    · rw [hvalue]
      constructor
      · rintro ⟨⟩
        exact ⟨owners, calls, obstacle⟩
      · rintro ⟨_, _, obstacle'⟩
        rw [(obstacle.unique obstacle').1]
    · rw [hvalue]
      constructor
      · rintro ⟨⟩
      · rintro ⟨owners, calls, obstacle⟩
        exact absurd obstacle (hnone f owners calls)
  · rcases tryAssemble_course a module now s with
      ⟨g, owners', calls', s', obstacle', hvalue, htool, hevents, hgains⟩ | ⟨c, s', -, hnone⟩
    · obtain ⟨rfl, rfl, rfl⟩ := obstacle.unique obstacle'
      have hempty : (a.assemble module now s).value = (.empty now, s') := by
        simp [assemble, hvalue]
      exact ⟨s', hvalue, hempty, htool, obstacle.flush_not_mem, hevents, hgains⟩
    · exact absurd obstacle (hnone f owners calls)
  · exact tryAssemble_of_settled a module now s hw hq hsettled

/-- A table of answers without output roots. -/
def rootlessTool : BuildTool Scripted :=
  { Scripted.tool with outputRoots := fun s => pure (.error (.toolUnavailable "no roots"), s) }

def ownedUnit : Dependency := ⟨"//core:a", ["core/A.code"], [], [⟨none, none⟩]⟩

/-- A dependency that needs the output roots, between two that other modules own. -/
def obstructedScene : Scene Scripted :=
  let module (name : String) (targets : List String) : Module :=
    ⟨name, .ofString ("/ws/" ++ name), [⟨.ofString ("/ws/" ++ name), [], []⟩], targets⟩
  { tool := (((Scripted.ofRoots ⟨.ofString "/base", .ofString "/ws"⟩).addUnit "//app:main"
      ownedUnit).addUnit "//app:main"
      ⟨"//lib:b", ["lib/B.code"], [], [⟨some "lib/b.jar", none⟩]⟩).addUnit "//app:main"
      ⟨"//util:c", ["util/C.code"], [], []⟩
    workspace := ⟨[module "app" ["//app:main"], module "core" [], module "util" []], []⟩ }

theorem assembly_fails_only_at_obstacles_of_refusal :
    let a : Assembler Scripted := ⟨rootlessTool, (Tree.empty ⟨['/']⟩).fileSystem, "external"⟩
    ∃ s', (a.tryAssemble "app" default obstructedScene).value =
        (.error (.toolUnavailable "no roots"), s') ∧
      (a.assemble "app" default obstructedScene).value = (.empty default, s') ∧
      s'.tool.queries = 1 ∧ s'.tool.flushed = [] ∧ s'.workspace.references "app" = ["core"] := by
  intro a
  have hsettled : ¬ NeedsRoots
      (ownerName (.ofString "/ws") obstructedScene.workspace.modules) [ownedUnit] := by
    decide
  have hobstacle : Obstacle a.tool "app" obstructedScene (.toolUnavailable "no roots") ["core"]
      [.startQuery (requestOf "app" obstructedScene.workspace),
        .finishQuery (requestOf "app" obstructedScene.workspace), .outputRoots] :=
    .refused rfl rfl rfl hsettled rfl (by decide) rfl
  obtain ⟨-, heffects, -⟩ := assembly_fails_only_at_obstacles a "app" default obstructedScene
  obtain ⟨s', hvalue, hempty, htool, -, -, hgains⟩ := heffects _ _ _ hobstacle
  refine ⟨s', hvalue, hempty, ?_, ?_, hgains.references⟩
  · rw [htool]
    rfl
  · rw [htool]
    rfl

end Assembler

end Buildpath
