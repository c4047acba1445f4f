import Buildpath.Proofs.Assembly.Placement

/-!
# The courses of an assembly

An assembly makes a few calls of the build tool and reports a few events, and which these are follows
from the answers alone. The loop over the dependencies asks for the output roots when it comes to the
first dependency without an owner that has archives, and stops there if they are refused
(`addUnits_course`); the second half of an assembly asks for the metadata first and flushes it last
(`finish_course`). Calls are data here, so that a course says which calls were made, how often and in
which order: the tool is left in the state after exactly these (`BuildTool.after`). That holds of any
tool, and so of one that records its calls (`BuildTool.after_recorded`).
-/

namespace Buildpath

/-! ### Calls of a build tool -/

/-- A call that may change the state of a build tool. -/
inductive ToolCall where
  | startQuery (r : Request)
  | finishQuery (r : Request)
  | check (targets : List String)
  | outputRoots
  | flush (targets : List String)
  | isAvailable
deriving DecidableEq, Repr

namespace BuildTool

variable {σ : Type} (tool : BuildTool σ)

/-- The state after a call, whatever the answer is. -/
def perform (s : σ) : ToolCall → Traced σ
  | .startQuery r => tool.startQuery r s
  | .finishQuery r => Prod.snd <$> tool.finishQuery r s
  | .check targets => Prod.snd <$> tool.check targets s
  | .outputRoots => Prod.snd <$> tool.outputRoots s
  | .flush targets => tool.flush targets s
  | .isAvailable => Prod.snd <$> tool.isAvailable s

/-- The state after the calls, one after the other. -/
def after (s : σ) (calls : List ToolCall) : Traced σ :=
  calls.foldlM tool.perform s

@[simp] theorem after_nil (s : σ) : tool.after s [] = pure s := rfl

theorem after_cons (s : σ) (call : ToolCall) (rest : List ToolCall) :
    tool.after s (call :: rest) = tool.perform s call >>= fun s => tool.after s rest :=
  List.foldlM_cons

theorem after_singleton (s : σ) (call : ToolCall) : tool.after s [call] = tool.perform s call := by
  rw [after_cons]
  exact bind_pure _

theorem value_after_outputRoots (s : σ) :
    (tool.after s [.outputRoots]).value = (tool.outputRoots s).value.2 := rfl

theorem events_after_outputRoots (s : σ) :
    (tool.after s [.outputRoots]).events = (tool.outputRoots s).events := by
  rw [after_singleton, perform, Traced.events_map]

theorem after_append (s : σ) (calls rest : List ToolCall) :
    tool.after s (calls ++ rest) = tool.after s calls >>= fun s => tool.after s rest :=
  List.foldlM_append

/-- The tool with a record of the calls that were made. -/
def recorded : BuildTool (σ × List ToolCall) where
  workspaceRoot s := tool.workspaceRoot s.1
  startQuery r s := (·, s.2 ++ [.startQuery r]) <$> tool.startQuery r s.1
  finishQuery r s := (fun (answer, t) => (answer, t, s.2 ++ [.finishQuery r])) <$>
    tool.finishQuery r s.1
  check targets s := (fun (answer, t) => (answer, t, s.2 ++ [.check targets])) <$>
    tool.check targets s.1
  outputRoots s := (fun (answer, t) => (answer, t, s.2 ++ [.outputRoots])) <$>
    tool.outputRoots s.1
  flush targets s := (·, s.2 ++ [.flush targets]) <$> tool.flush targets s.1
  isAvailable s := (fun (answer, t) => (answer, t, s.2 ++ [.isAvailable])) <$>
    tool.isAvailable s.1

theorem perform_recorded (s : σ) (record : List ToolCall) (call : ToolCall) :
    (tool.recorded.perform (s, record) call).value =
      ((tool.perform s call).value, record ++ [call]) := by
  cases call <;> rfl

/-- The record grows by the calls, in their order. -/
theorem after_recorded (s : σ) (record calls : List ToolCall) :
    (tool.recorded.after (s, record) calls).value =
      ((tool.after s calls).value, record ++ calls) := by
  induction calls generalizing s record with
  | nil => simp
  | cons call rest ih => simp [after_cons, perform_recorded, ih]

end BuildTool

/-! ### Parts that report no events -/

theorem SourceRoot.events_matchesPattern (relative : Path) (pattern : String) :
    (matchesPattern relative pattern).events = [] := by
  unfold matchesPattern
  split <;> rfl

theorem SourceRoot.events_owns (r : SourceRoot) (file : Path) : (r.owns file).events = [] := by
  have hany : ∀ relative l, (Traced.any (matchesPattern relative) l).events = [] :=
    fun relative => Traced.events_any (events_matchesPattern relative)
  unfold owns
  split
  · rfl
  · simp only [admits, Traced.events_bind, hany, List.nil_append]
    split
    · rfl
    · split
      · rfl
      · exact hany _ _

theorem events_ownerOfSources (root : Path) (sources : List String) (modules : List Module) :
    (ownerOfSources root sources modules).events = [] := by
  have howns : ∀ (file : Path) (m : Module), (m.owns file).events = [] := fun file m =>
    Traced.events_any (fun r => r.events_owns file) m.sourceRoots
  exact Traced.events_firstSome (fun file => Traced.events_find? (howns file) modules) _

theorem Workspace.events_ensureReference (w : Workspace) (source target : String) :
    (w.ensureReference source target).events = [] := by
  unfold ensureReference
  split <;> rfl

attribute [ext] Scene

namespace Assembler

variable {σ : Type} (a : Assembler σ) (root : Path) (modules : List Module) (module : String)

theorem events_addReference (owner : Module) (p : Progression σ) :
    (addReference module owner p).events = [] := by
  unfold addReference
  split <;> simp [Workspace.events_ensureReference]

/-! ### Going on without a call -/

/-- The run goes on without asking the tool for anything, and reports these events. -/
structure GoesOn (p : Progression σ) (run : Traced (Option Failure × Progression σ))
    (reports : List Progress) : Prop where
  answer : run.value.1 = none
  roots : run.value.2.roots = p.roots
  tool : run.value.2.scene.tool = p.scene.tool
  events : run.events = reports

section

variable {p : Progression σ} {d : Dependency}

theorem goesOn_of_owned (p : Progression σ) {o : String} (h : ownerName root modules d = some o) :
    GoesOn p (a.addUnit root modules module d p) [] := by
  obtain ⟨owner, ho, -⟩ := Option.map_eq_some_iff.mp h
  have hextends := addReference_extends module owner p
  by_cases hm : owner.name = module
  · constructor <;> simp [addUnit, ho, hm, events_ownerOfSources]
  · constructor <;>
      simp [addUnit, ho, hm, events_ownerOfSources, events_addReference, hextends.roots,
        hextends.tool]

theorem addUnit_of_unowned (p : Progression σ) (h : ownerName root modules d = none) :
    (a.addUnit root modules module d p).value = (a.addArchives module d p).value ∧
      (a.addUnit root modules module d p).events = (a.addArchives module d p).events := by
  have ho := Option.map_eq_none_iff.mp h
  simp [addUnit, ho, events_ownerOfSources]

theorem goesOn_of_settled (p : Progression σ)
    (h : ownerName root modules d = none → d.archives = []) :
    GoesOn p (a.addUnit root modules module d p) [] := by
  cases ho : ownerName root modules d with
  | some o => exact goesOn_of_owned a root modules module p ho
  | none =>
    obtain ⟨hvalue, hevents⟩ := addUnit_of_unowned a root modules module p ho
    constructor <;> simp [hvalue, hevents, addArchives, h ho]

/-- With the output roots at hand the archives are located, and those that are absent reported. -/
theorem goesOn_of_known {roots : OutputRoots} (h : p.roots = some roots) :
    GoesOn p (a.addUnit root modules module d p)
      (Placed.notices module
        (placements ⟨a.files p.scene.tool, roots, a.marker⟩ (ownerName root modules) [d])) := by
  cases ho : ownerName root modules d with
  | some o =>
    rw [placements_cons_of_some _ _ ho]
    exact goesOn_of_owned a root modules module p ho
  | none =>
    obtain ⟨hvalue, hevents⟩ := addUnit_of_unowned a root modules module p ho
    rw [placements_cons_of_none _ _ ho, placements_nil, List.append_nil]
    by_cases ha : d.archives = []
    · constructor <;> simp [hvalue, hevents, addArchives, ha]
    · have hpairs := addPairs_extends ⟨a.files p.scene.tool, roots, a.marker⟩ module d.label d.archives p
      constructor <;>
        simp [hvalue, hevents, addArchives, ha, requireRoots, h, hpairs.roots, hpairs.tool,
          events_addPairs]

/-- After a dependency without a failure the loop goes on with the others. -/
theorem addUnits_cons_of_none (h : (a.addUnit root modules module d p).value.1 = none)
    (l : List Dependency) :
    (a.addUnits root modules module (d :: l) p).value =
        (a.addUnits root modules module l (a.addUnit root modules module d p).value.2).value ∧
      (a.addUnits root modules module (d :: l) p).events =
        (a.addUnit root modules module d p).events ++
          (a.addUnits root modules module l (a.addUnit root modules module d p).value.2).events := by
  cases hu : (a.addUnit root modules module d p).value with
  | mk answer p₁ =>
    rw [hu] at h
    cases h
    simp [addUnits, hu]

theorem addUnits_goesOn_of_known {roots : OutputRoots} (l : List Dependency)
    (h : p.roots = some roots) :
    GoesOn p (a.addUnits root modules module l p)
      (Placed.notices module
        (placements ⟨a.files p.scene.tool, roots, a.marker⟩ (ownerName root modules) l)) := by
  induction l generalizing p with
  | nil => exact ⟨rfl, rfl, rfl, rfl⟩
  | cons d rest ih =>
    have hd := goesOn_of_known a root modules module (d := d) h
    have hrest := ih (hd.roots.trans h)
    rw [hd.tool] at hrest
    obtain ⟨hvalue, hevents⟩ := addUnits_cons_of_none a root modules module hd.answer rest
    rw [placements_cons, Placed.notices_append]
    constructor
    · rw [hvalue, hrest.answer]
    · rw [hvalue, hrest.roots, hd.roots]
    · rw [hvalue, hrest.tool, hd.tool]
    · rw [hevents, hrest.events, hd.events]

end

/-! ### The loop -/

section

variable {owner : Dependency → Option String} {tool : σ} {l : List Dependency} {d : Dependency}

instance (owner : Dependency → Option String) (l : List Dependency) :
    Decidable (NeedsRoots owner l) :=
  inferInstanceAs (Decidable (∃ d ∈ l, owner d = none ∧ d.archives ≠ []))

theorem needsRoots_cons_iff :
    NeedsRoots owner (d :: l) ↔ owner d = none ∧ d.archives ≠ [] ∨ NeedsRoots owner l := by
  simp [NeedsRoots]

/-- How the loop over dependencies can go if no output roots are at hand: its answer, the calls that
it makes, the dependencies whose owners it notes, and the events that it reports after the calls. -/
inductive LoopCourse (a : Assembler σ) (owner : Dependency → Option String) (module : String)
    (tool : σ) (l : List Dependency) :
    Option Failure → List ToolCall → List Dependency → List Progress → Prop where
  | idle (settled : ¬ NeedsRoots owner l) : LoopCourse a owner module tool l none [] l []
  | refused {before later : List Dependency} {d : Dependency} {f : Failure}
    (split : l = before ++ d :: later) (settled : ¬ NeedsRoots owner before)
    (unowned : owner d = none) (archives : d.archives ≠ [])
    (refusal : (a.tool.outputRoots tool).value.1 = .error f) :
    LoopCourse a owner module tool l (some f) [.outputRoots] before []
  | supplied {roots : OutputRoots} (needed : NeedsRoots owner l)
    (answer : (a.tool.outputRoots tool).value.1 = .ok roots) :
    LoopCourse a owner module tool l none [.outputRoots] l
      (Placed.notices module (placements (a.finder tool roots) owner l))

/-- A dependency that needs no output roots changes nothing about the course. -/
theorem LoopCourse.cons {a : Assembler σ} {module : String} {answer : Option Failure}
    {calls : List ToolCall} {noted : List Dependency} {reports : List Progress}
    (h : LoopCourse a owner module tool l answer calls noted reports)
    (hd : owner d = none → d.archives = []) :
    LoopCourse a owner module tool (d :: l) answer calls (d :: noted) reports := by
  have hneeds : ∀ k, NeedsRoots owner (d :: k) ↔ NeedsRoots owner k := fun k =>
    needsRoots_cons_iff.trans (or_iff_right fun hneedy => hneedy.2 (hd hneedy.1))
  have hone : ∀ f, placements f owner [d] = [] := fun f =>
    placements_of_settled f owner fun hneedy =>
      absurd ((hneeds []).mp hneedy) fun ⟨_, he, _⟩ => List.not_mem_nil he
  cases h with
  | idle settled => exact .idle fun hneedy => settled ((hneeds l).mp hneedy)
  | refused split settled unowned archives refusal =>
    exact .refused (congrArg (d :: ·) split) (fun hneedy => settled ((hneeds _).mp hneedy)) unowned
      archives refusal
  | @supplied roots needed answer =>
    have hsame : placements (a.finder tool roots) owner (d :: l) =
        placements (a.finder tool roots) owner l := by
      rw [placements_cons, hone, List.nil_append]
    rw [← hsame]
    exact .supplied ((hneeds l).mpr needed) answer

/-- Without a failure all dependencies are behind the loop, and it has asked for the output roots if
they were needed. -/
theorem LoopCourse.done {a : Assembler σ} {module : String} {calls : List ToolCall}
    {noted : List Dependency} {reports : List Progress}
    (h : LoopCourse a owner module tool l none calls noted reports) :
    ∃ roots, (NeedsRoots owner l → (a.tool.outputRoots tool).value.1 = .ok roots) ∧
      calls = (if NeedsRoots owner l then [.outputRoots] else []) ∧ noted = l ∧
      reports = Placed.notices module (placements (a.finder tool roots) owner l) := by
  cases h with
  | idle settled =>
    refine ⟨⟨⟨[]⟩, ⟨[]⟩⟩, fun hneedy => absurd hneedy settled, (if_neg settled).symm, rfl, ?_⟩
    rw [placements_of_settled _ _ settled, Placed.notices_nil]
  | @supplied roots needed answer => exact ⟨roots, fun _ => answer, (if_pos needed).symm, rfl, rfl⟩

end

section

variable {p : Progression σ} {d : Dependency}

theorem addUnit_of_refused (ho : ownerName root modules d = none) (ha : d.archives ≠ [])
    (hp : p.roots = none) {f : Failure}
    (hr : (a.tool.outputRoots p.scene.tool).value.1 = .error f) :
    (a.addUnit root modules module d p).value =
        (some f, { p with scene.tool := (a.tool.outputRoots p.scene.tool).value.2 }) ∧
      (a.addUnit root modules module d p).events = (a.tool.outputRoots p.scene.tool).events := by
  obtain ⟨hvalue, hevents⟩ := addUnit_of_unowned a root modules module p ho
  rw [hvalue, hevents]
  cases hask : (a.tool.outputRoots p.scene.tool).value with
  | mk answer tool =>
    rw [hask] at hr
    cases hr
    constructor <;> simp [addArchives, ha, requireRoots, hp, hask]

theorem addUnit_of_supplied (ho : ownerName root modules d = none) (ha : d.archives ≠ [])
    (hp : p.roots = none) {roots : OutputRoots}
    (hr : (a.tool.outputRoots p.scene.tool).value.1 = .ok roots) :
    (a.addUnit root modules module d p).value.1 = none ∧
      (a.addUnit root modules module d p).value.2.roots = some roots ∧
      (a.addUnit root modules module d p).value.2.scene.tool =
        (a.tool.outputRoots p.scene.tool).value.2 ∧
      (a.addUnit root modules module d p).events = (a.tool.outputRoots p.scene.tool).events ++
        Placed.notices module
          (placements (a.finder p.scene.tool roots) (ownerName root modules) [d]) := by
  obtain ⟨hvalue, hevents⟩ := addUnit_of_unowned a root modules module p ho
  rw [hvalue, hevents, placements_cons_of_none _ _ ho, placements_nil, List.append_nil]
  cases hask : (a.tool.outputRoots p.scene.tool).value with
  | mk answer tool =>
    rw [hask] at hr
    cases hr
    have hpairs := addPairs_extends ⟨a.files tool, roots, a.marker⟩ module d.label d.archives
      { p with scene.tool := tool, roots := some roots }
    refine ⟨?_, ?_, ?_, ?_⟩ <;>
      simp [addArchives, ha, requireRoots, finder, hp, hask, hpairs.roots, hpairs.tool,
        events_addPairs]

/-- The loop takes one of the courses, and leaves the tool and the workspace accordingly. -/
theorem addUnits_course (l : List Dependency) (hp : p.roots = none) :
    ∃ answer calls noted reports,
      LoopCourse a (ownerName root modules) module p.scene.tool l answer calls noted reports ∧
      (a.addUnits root modules module l p).value.1 = answer ∧
      (a.addUnits root modules module l p).value.2.scene =
        ⟨(a.tool.after p.scene.tool calls).value,
          noteOwners (ownerName root modules) module p.scene.workspace noted⟩ ∧
      (a.addUnits root modules module l p).events =
        (a.tool.after p.scene.tool calls).events ++ reports := by
  induction l generalizing p with
  | nil => exact ⟨_, _, _, _, .idle fun ⟨_, hd, _⟩ => List.not_mem_nil hd, rfl, rfl, rfl⟩
  | cons d rest ih =>
    have hnoted := workspace_addUnit a root modules module d p
    by_cases hneedy : ownerName root modules d = none ∧ d.archives ≠ []
    · obtain ⟨ho, ha⟩ := hneedy
      cases hr : (a.tool.outputRoots p.scene.tool).value.1 with
      | error f =>
        obtain ⟨hvalue, hevents⟩ := addUnit_of_refused a root modules module ho ha hp hr
        refine ⟨_, _, _, _, .refused (List.nil_append _).symm ?_ ho ha hr, ?_, ?_, ?_⟩
        · exact fun ⟨_, hd, _⟩ => List.not_mem_nil hd
        · simp [addUnits, hvalue]
        · simp [addUnits, hvalue, BuildTool.value_after_outputRoots, noteOwners]
        · simp [addUnits, hvalue, hevents, BuildTool.events_after_outputRoots]
      | ok roots =>
        obtain ⟨hanswer, hroots, htool, hevents⟩ :=
          addUnit_of_supplied a root modules module ho ha hp hr
        have hrest := addUnits_goesOn_of_known a root modules module rest hroots
        rw [htool, ← finder] at hrest
        obtain ⟨hvalue, hall⟩ := addUnits_cons_of_none a root modules module hanswer rest
        have hnone : (a.addUnits root modules module (d :: rest) p).value.1 = none := by
          rw [hvalue, hrest.answer]
        obtain ⟨done, -, hworkspace, hdone⟩ :=
          workspace_addUnits a root modules module (d :: rest) p
        rw [hdone hnone] at hworkspace
        refine ⟨_, _, _, _, .supplied (needsRoots_cons_iff.mpr (Or.inl ⟨ho, ha⟩)) hr, hnone, ?_, ?_⟩
        · refine Scene.ext ?_ hworkspace
          rw [hvalue, hrest.tool, htool, BuildTool.value_after_outputRoots]
        · rw [hall, hrest.events, hevents, placements_cons _ _ d rest, Placed.notices_append,
            BuildTool.events_after_outputRoots, List.append_assoc]
    · have hsettled : ownerName root modules d = none → d.archives = [] := fun ho =>
        Decidable.not_not.mp fun ha => hneedy ⟨ho, ha⟩
      have hgo := goesOn_of_settled a root modules module p hsettled
      obtain ⟨answer, calls, noted, reports, course, hanswer, hscene, hevents⟩ :=
        ih (hgo.roots.trans hp)
      obtain ⟨hvalue, hall⟩ := addUnits_cons_of_none a root modules module hgo.answer rest
      rw [hgo.tool] at course hscene hevents
      refine ⟨answer, calls, d :: noted, reports, course.cons hsettled, ?_, ?_, ?_⟩
      · rw [hvalue, hanswer]
      · rw [hvalue, hscene, hnoted]
        rfl
      · rw [hall, hgo.events, hevents, List.nil_append]

end

/-! ### The second half -/

theorem flushIfStale_after (q : Query) (p : Progression σ) :
    let flushes : List ToolCall := if p.stale then [.flush q.request.targets] else []
    (a.flushIfStale q p).value =
        { p.scene with tool := (a.tool.after p.scene.tool flushes).value } ∧
      (a.flushIfStale q p).events = (a.tool.after p.scene.tool flushes).events := by
  unfold flushIfStale
  cases p.stale with
  | true => simp [BuildTool.after_singleton, BuildTool.perform]
  | false => simp

/-- How the second half of an assembly can go: its answer, the calls that it makes, the dependencies
whose owners it notes, the events that it reports after these calls, and the calls that it makes when
all dependencies are done. -/
inductive FinishCourse (a : Assembler σ) (q : Query) (now : Timestamp) (s : Scene σ) :
    Except Failure Classpath → List ToolCall → List Dependency → List Progress → List ToolCall →
    Prop where
  | unanswered {f : Failure} {tool : σ}
    (answer : (a.tool.finishQuery q.request s.tool).value = (.error f, tool)) :
    FinishCourse a q now s (.error f) [.finishQuery q.request] [] [] []
  | refused {metadata : Metadata} {tool : σ} {before later : List Dependency} {d : Dependency}
    {f : Failure} (answer : (a.tool.finishQuery q.request s.tool).value = (.ok metadata, tool))
    (split : metadata.units = before ++ d :: later)
    (settled : ¬ NeedsRoots (ownerName q.root s.workspace.modules) before)
    (unowned : ownerName q.root s.workspace.modules d = none) (archives : d.archives ≠ [])
    (refusal : (a.tool.outputRoots tool).value.1 = .error f) :
    FinishCourse a q now s (.error f) [.finishQuery q.request, .outputRoots] before [] []
  | done {metadata : Metadata} {tool : σ} (roots : OutputRoots)
    (answer : (a.tool.finishQuery q.request s.tool).value = (.ok metadata, tool))
    (known : NeedsRoots (ownerName q.root s.workspace.modules) metadata.units →
      (a.tool.outputRoots tool).value.1 = .ok roots) :
    FinishCourse a q now s
      (.ok ⟨contributions (a.finder tool roots) (ownerName q.root s.workspace.modules)
        q.request.module [] metadata.units, now⟩)
      (.finishQuery q.request ::
        if NeedsRoots (ownerName q.root s.workspace.modules) metadata.units then [.outputRoots]
        else [])
      metadata.units
      (Placed.notices q.request.module
        (placements (a.finder tool roots) (ownerName q.root s.workspace.modules)
          metadata.units))
      (if metadata.units.any (missesArchive (a.finder tool roots)
          (ownerName q.root s.workspace.modules)) then [.flush q.request.targets] else [])

/-- The second half takes one of the courses, and leaves the tool and the workspace accordingly. -/
theorem finish_course (q : Query) (now : Timestamp) (s : Scene σ) :
    ∃ answer asked noted reports flushes, FinishCourse a q now s answer asked noted reports flushes ∧
      (a.finish q now s).value = (answer,
        ⟨(a.tool.after s.tool (asked ++ flushes)).value,
          noteOwners (ownerName q.root s.workspace.modules) q.request.module s.workspace noted⟩) ∧
      (a.finish q now s).events = (a.tool.after s.tool asked).events ++ reports ++
        (a.tool.after (a.tool.after s.tool asked).value flushes).events := by
  have hperform : ∀ calls, (a.tool.after s.tool (.finishQuery q.request :: calls)).value =
        (a.tool.after (a.tool.finishQuery q.request s.tool).value.2 calls).value ∧
      (a.tool.after s.tool (.finishQuery q.request :: calls)).events =
        (a.tool.finishQuery q.request s.tool).events ++
          (a.tool.after (a.tool.finishQuery q.request s.tool).value.2 calls).events := by
    intro calls
    simp [BuildTool.after_cons, BuildTool.perform]
  cases hq : (a.tool.finishQuery q.request s.tool).value with
  | mk answer tool =>
    simp only [hq] at hperform
    cases answer with
    | error f =>
      refine ⟨_, _, _, _, _, .unanswered hq, ?_, ?_⟩
      · simp [finish, hq, hperform, noteOwners]
      · simp [finish, hq, hperform]
    | ok metadata =>
      have hbegun := Follows.start a (ownerName q.root s.workspace.modules) q.request.module now
        { s with tool }
      have hgo := (addUnits_follows metadata.units hbegun).2
      have hstale := stale_addUnits metadata.units hbegun fun _ _ => rfl
      obtain ⟨answer, calls, noted, reports, course, hanswer, hscene, hevents⟩ :=
        addUnits_course a q.root s.workspace.modules q.request.module metadata.units
          (p := ⟨{ s with tool }, .empty now, none, false⟩) rfl
      cases hu : (a.addUnits q.root s.workspace.modules q.request.module metadata.units
          ⟨{ s with tool }, .empty now, none, false⟩).value with
      | mk got p =>
        rw [hu] at hgo hstale hanswer hscene
        cases hanswer
        dsimp only at hscene hevents
        cases got with
        | some f =>
          cases course with
          | refused split settled unowned archives refusal =>
            refine ⟨_, _, _, _, _, .refused hq split settled unowned archives refusal, ?_, ?_⟩
            · simp [finish, hq, hu, hperform, hscene]
            · simp [finish, hq, hu, hperform, hevents]
        | none =>
          obtain ⟨roots, hroots, rfl, rfl, rfl⟩ := course.done
          have hclasspath : p.classpath = _ := (hgo rfl).classpath roots hroots
          have hstale : p.stale = _ := hstale rfl roots hroots
          rw [List.nil_append] at hclasspath hstale
          obtain ⟨hkept, hflushed⟩ := flushIfStale_after a q p
          rw [hstale, hscene] at hkept hflushed
          refine ⟨_, _, _, _, _, .done roots hq hroots, ?_, ?_⟩
          · simp [finish, hq, hu, hperform, hclasspath, hkept, BuildTool.after_append]
          · simp [finish, hq, hu, hperform, hevents, hflushed]

/-! ### The whole assembly -/

/-- What an assembly asks the tool for. -/
def requestOf (module : String) (w : Workspace) : Request :=
  ⟨module, w.targetsOf module, operation⟩

/-- An assembly during whose query others act on the scene. -/
def tryAssembleAmid (meanwhile : Scene σ → Scene σ) (now : Timestamp) (s : Scene σ) :
    Traced (Except Failure Classpath × Scene σ) := do
  match ← a.start module s with
  | (.error f, s) => return (.error f, s)
  | (.ok q, s) => a.finish q now (meanwhile s)

theorem tryAssembleAmid_id (now : Timestamp) (s : Scene σ) :
    a.tryAssembleAmid module id now s = a.tryAssemble module now s := rfl

theorem tryAssembleAmid_of_root (meanwhile : Scene σ → Scene σ) (now : Timestamp) {s : Scene σ}
    (hw : a.tool.workspaceRoot s.tool = some root) :
    let r := requestOf module s.workspace
    let begun := a.tool.startQuery r s.tool
    let finished := a.finish ⟨root, r⟩ now (meanwhile { s with tool := begun.value })
    (a.tryAssembleAmid module meanwhile now s).value = finished.value ∧
      (a.tryAssembleAmid module meanwhile now s).events = begun.events ++ finished.events := by
  simp [tryAssembleAmid, start, hw, requestOf]

/-- An assembly in a known workspace starts the query, and what the others leave takes one of the
courses. -/
theorem tryAssembleAmid_course (meanwhile : Scene σ → Scene σ) (now : Timestamp) {s : Scene σ}
    (hw : a.tool.workspaceRoot s.tool = some root) :
    let r := requestOf module s.workspace
    let begun := a.tool.startQuery r s.tool
    let amid := meanwhile { s with tool := begun.value }
    ∃ answer asked noted reports flushes,
      FinishCourse a ⟨root, r⟩ now amid answer asked noted reports flushes ∧
      (a.tryAssembleAmid module meanwhile now s).value = (answer,
        ⟨(a.tool.after amid.tool (asked ++ flushes)).value,
          noteOwners (ownerName root amid.workspace.modules) module amid.workspace noted⟩) ∧
      (a.tryAssembleAmid module meanwhile now s).events =
        begun.events ++ (a.tool.after amid.tool asked).events ++ reports ++
          (a.tool.after (a.tool.after amid.tool asked).value flushes).events := by
  intro r begun amid
  obtain ⟨hvalue, hevents⟩ := tryAssembleAmid_of_root a root module meanwhile now hw
  obtain ⟨answer, asked, noted, reports, flushes, course, hfinish, hsaid⟩ :=
    a.finish_course ⟨root, r⟩ now amid
  refine ⟨answer, asked, noted, reports, flushes, course, hvalue.trans hfinish, ?_⟩
  rw [hevents, hsaid, ← List.append_assoc, ← List.append_assoc]

theorem tryAssembleAmid_of_no_root (meanwhile : Scene σ → Scene σ) (now : Timestamp) {s : Scene σ}
    (hw : a.tool.workspaceRoot s.tool = none) :
    a.tryAssembleAmid module meanwhile now s =
      pure (.error (.toolUnavailable "Bazel workspace root is not set"), s) := by
  simp [tryAssembleAmid, start, hw]

end Assembler

end Buildpath
