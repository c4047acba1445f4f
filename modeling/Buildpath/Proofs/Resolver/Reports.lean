import Buildpath.Proofs.Assembly.Courses
import Buildpath.Proofs.Resolver.Independence

/-!
# What a resolution reports

The events of a resolution come from the resolver, from the assembly and from the tool. A resolution
that serves a record reports just that. Any other announces the work, leaves the word to the assembly
and the tool, and reports the end, whatever others do during the query (`resolveAmid_of_miss`). With
a tool of given answers these are a query, if the workspace is known, and the archives that are absent,
so that every resolution follows one protocol (`reports_follow_protocol`).
-/

namespace Buildpath

/-! ### The tool -/

namespace Scripted

/-- Only the start of a query is reported and counted. -/
theorem perform_quiet (t : Scripted) {call : ToolCall} (h : ∀ r, call ≠ .startQuery r) :
    (tool.perform t call).events = [] ∧ (tool.perform t call).value.queries = t.queries := by
  cases call with
  | startQuery r => exact absurd rfl (h r)
  | finishQuery r => cases hf : t.queryFailure <;> simp [BuildTool.perform, tool, hf]
  | _ => exact ⟨rfl, rfl⟩

theorem after_quiet (t : Scripted) {calls : List ToolCall} (h : ∀ r, .startQuery r ∉ calls) :
    (tool.after t calls).events = [] ∧ (tool.after t calls).value.queries = t.queries := by
  induction calls generalizing t with
  | nil => exact ⟨rfl, rfl⟩
  | cons call rest ih =>
    obtain ⟨hevents, hqueries⟩ := perform_quiet t (fun r heq => h r (heq ▸ List.mem_cons_self))
    obtain ⟨hrest, hsame⟩ := ih (tool.perform t call).value fun r hr =>
      h r (List.mem_cons_of_mem call hr)
    simp [BuildTool.after_cons, hevents, hqueries, hrest, hsame]

/-- The failure of an assembly that begins with one state of the tool and has another after the
query, if it fails. -/
def failure? (before after : Scripted) : Option Failure :=
  match before.workspaceRoot with
  | none => some (.toolUnavailable "Bazel workspace root is not set")
  | some _ => after.queryFailure

end Scripted

/-! ### The assembly -/

namespace Assembler

variable (files : FileSystem) (marker : String)

theorem finishQuery_eq_iff (r : Request) (t : Scripted) (f : Failure) :
    (Scripted.tool.finishQuery r t).value.1 = .error f ↔ t.queryFailure = some f := by
  cases hf : t.queryFailure <;> simp [Scripted.tool, hf]

/-- The paths in the events about absent archives. -/
def missingPaths (l : List Placed) : List String :=
  (l.filter (!·.archive.present)).map (·.archive.path.toString)

theorem notices_eq (module : String) (l : List Placed) :
    Placed.notices module l = (missingPaths l).map (.archiveMissing module) := by
  simp [Placed.notices, missingPaths, Placed.notice, Function.comp_def]

/-- The second half reports the archives that are absent if the query is answered, and nothing if
not; it starts no query. -/
theorem finish_reports (q : Query) (now : Timestamp) (s : Scene Scripted) :
    let run := finish ⟨Scripted.tool, files, marker⟩ q now s
    (∃ missing, run.events = missing.map (.archiveMissing q.request.module) ∧
      ∀ f, s.tool.queryFailure = some f → missing = []) ∧
    (∀ f, run.value.1 = .error f ↔ s.tool.queryFailure = some f) ∧
    run.value.2.tool.queries = s.tool.queries := by
  intro run
  obtain ⟨answer, asked, noted, reports, flushes, course, hvalue, hevents⟩ :=
    finish_course ⟨Scripted.tool, files, marker⟩ q now s
  have hasked : ∀ r, .startQuery r ∉ asked := by
    intro r
    cases course <;> simp
  have hflushes : ∀ r, .startQuery r ∉ flushes := by
    intro r
    cases course <;> simp
  have hboth : ∀ r, .startQuery r ∉ asked ++ flushes := fun r hr =>
    (List.mem_append.mp hr).elim (hasked r) (hflushes r)
  have hsaid : run.events = reports := by
    rw [hevents, (Scripted.after_quiet _ hasked).1, (Scripted.after_quiet _ hflushes).1,
      List.nil_append, List.append_nil]
  have hqueries : run.value.2.tool.queries = s.tool.queries := by
    rw [hvalue]
    exact (Scripted.after_quiet s.tool hboth).2
  have hanswer : run.value.1 = answer := by rw [hvalue]
  rw [hsaid, hanswer]
  simp only [← finishQuery_eq_iff q.request s.tool]
  cases course with
  | unanswered answer =>
    rw [answer]
    exact ⟨⟨[], rfl, fun _ _ => rfl⟩, by simp, hqueries⟩
  | refused answer split settled unowned archives refusal => cases refusal
  | done roots answer known =>
    rw [answer]
    exact ⟨⟨missingPaths _, notices_eq _ _, by simp⟩, by simp, hqueries⟩

/-- An assembly reports the query that it starts, which it does if the workspace is known, and the
absent archives. -/
theorem tryAssembleAmid_reports (module : String) (meanwhile : Scene Scripted → Scene Scripted)
    (now : Timestamp) (s : Scene Scripted) :
    let a : Assembler Scripted := ⟨Scripted.tool, files, marker⟩
    let pass := a.tryAssembleAmid module meanwhile now s
    let started := (a.start module s).value.2
    let failure := s.tool.failure? (meanwhile started).tool
    ∃ asked missing, pass.events = asked ++ missing.map (.archiveMissing module) ∧
      asked = (if s.tool.workspaceRoot.isSome then
        [.queryStarted module (s.workspace.targetsOf module).length operation] else []) ∧
      started.tool.queries = s.tool.queries + asked.length ∧
      pass.value.2.tool.queries =
        (if s.tool.workspaceRoot.isSome then meanwhile started else started).tool.queries ∧
      (∀ f, failure = some f → missing = []) ∧ ∀ f, pass.value.1 = .error f ↔ failure = some f := by
  intro a pass started failure
  cases hw : s.tool.workspaceRoot with
  | none =>
    have hpass : pass = _ := tryAssembleAmid_of_no_root a module meanwhile now hw
    have hstarted : started = s := by simp [started, a, start, Scripted.tool, hw]
    have hfailure : failure = some (.toolUnavailable "Bazel workspace root is not set") := by
      simp [failure, Scripted.failure?, hw]
    rw [hpass, hstarted, hfailure]
    exact ⟨[], [], rfl, rfl, rfl, rfl, fun _ _ => rfl, by simp⟩
  | some root =>
    have hstarted : started = { s with tool := { s.tool with queries := s.tool.queries + 1 } } := by
      simp [started, a, start, Scripted.tool, hw]
    have hfailure : failure = (meanwhile started).tool.queryFailure := by
      simp [failure, Scripted.failure?, hw]
    obtain ⟨⟨missing, hreports, hnone⟩, hfails, hqueries⟩ :=
      finish_reports files marker ⟨root, requestOf module s.workspace⟩ now (meanwhile started)
    obtain ⟨hvalue, hevents⟩ : pass.value = (finish a _ now (meanwhile started)).value ∧
        pass.events = .queryStarted module (s.workspace.targetsOf module).length operation ::
          (finish a _ now (meanwhile started)).events := by
      rw [hstarted]
      exact tryAssembleAmid_of_root a root module meanwhile now hw
    rw [hvalue, hevents, hfailure]
    exact ⟨[.queryStarted module (s.workspace.targetsOf module).length operation], missing,
      congrArg _ hreports, rfl, by rw [hstarted]; rfl, hqueries, hnone, hfails⟩

end Assembler

/-! ### The resolver -/

namespace Cache

variable (c : Cache) (e : CacheEntry)

theorem events_store (cp : Classpath) (now : Instant) : (c.store e cp now).events = [] := by
  unfold store
  split
  · rfl
  · split <;> rfl

theorem isImporting_lookup (now : Instant) : (c.lookup e now).2.isImporting = c.isImporting := by
  simp only [isImporting, (c.onlyRecords_lookup e now).imports]

/-- A miss that names an import as its reason means that one is running. -/
theorem isImporting_of_miss {now : Instant} (h : (c.lookup e now).1 = .miss .importing) :
    c.isImporting = true := by
  rcases lookup_cases c e now with ⟨_, hl⟩ | ⟨r, _, _, hl⟩ | ⟨r, reason, _, hstale, hl⟩
  · rw [hl] at h
    cases h
  · rw [hl] at h
    cases h
  · rw [hl] at h
    cases h
    by_contra himp
    simp only [staleness, himp, if_false] at hstale
    split at hstale
    · cases hstale
    · split at hstale <;> cases hstale

end Cache

namespace Resolver

open Assembler

variable {σ : Type} (r : Resolver σ) (module : String) (now later : Moment) (s : Session σ)

theorem events_complete (e : CacheEntry) (c : Classpath) (cache : Cache) :
    (complete e c now cache).events = [.completed e.target c.size] := by
  simp only [complete, Traced.events_bind, Cache.events_store, List.nil_append]
  split <;> rfl

theorem events_fail (f : Failure) : (fail module f now).events = [.failed module f.message] := by
  cases f <;> rfl

theorem entries_fail (f : Failure) : (fail module f now).value.entries = [] := rfl

/-- The event that a resolution ends with. -/
def ending (module : String) : Except Failure Classpath → Progress
  | .ok c => .completed module c.size
  | .error f => .failed module f.message

/-- A resolution during whose query others act on the session. -/
def resolveAmid (meanwhile : Session σ → Session σ) : Traced (Classpath × Session σ) := do
  match ← begin r module now s with
  | (.done c, s) => return (c, s)
  | (.waiting p, s) => finish r p later (meanwhile s)

theorem resolveAmid_id : r.resolveAmid module now now s id = r.resolve module now s := rfl

theorem events_announce (hadRecord : Bool) (reason : Miss) (cache : Cache) :
    (announce module hadRecord reason cache).events =
      [.started module hadRecord (reason = .importing || cache.isImporting)] := by
  dsimp only [announce]
  split <;> rfl

/-- What is announced tells whether an import was running, as far as the lookup goes. -/
theorem events_announce_of_miss {reason : Miss}
    (hl : (lookedUp module now s).1 = .miss reason) (hadRecord : Bool) :
    (announce module hadRecord reason (lookedUp module now s).2).events =
      [.started module hadRecord s.cache.isImporting] := by
  have hsame : (lookedUp module now s).2.isImporting = s.cache.isImporting :=
    Cache.isImporting_lookup _ _ _
  rw [events_announce, hsame]
  by_cases hr : reason = .importing
  · have himp : s.cache.isImporting = true :=
      Cache.isImporting_of_miss (s.cache.hold module) (s.cache.entry module) (hr ▸ hl)
    simp [himp]
  · simp [hr]

/-- A resolution that serves nothing is announced, reports what the assembly and the tool report, and
how it ends. -/
theorem resolveAmid_of_miss (meanwhile : Session σ → Session σ)
    (h : Module.isWorkspaceName module = false) {reason : Miss}
    (hl : (lookedUp module now s).1 = .miss reason) :
    let run := r.resolveAmid module now later s meanwhile
    let amid (scene : Scene σ) : Scene σ := (meanwhile ⟨scene, (lookedUp module now s).2⟩).scene
    let pass := r.tryAssembleAmid module amid later.time s.scene
    run.events = .started module (s.cache.record? module).isSome s.cache.isImporting ::
        pass.events ++ [ending module pass.value.1] ∧
      run.value.2.scene = pass.value.2 ∧
      (∀ c, pass.value.1 = .ok c → run.value.1 = c) ∧
      ∀ f, pass.value.1 = .error f → run.value.1.entries = [] := by
  intro run amid pass
  have htarget : (s.cache.entry module).target = module := rfl
  have hannounced := events_announce_of_miss module now s hl
  simp only [run, pass, resolveAmid, begin_of_miss r module now s h hl, startQuery, htarget,
    Assembler.tryAssembleAmid, Traced.bind_value, Traced.events_bind, hannounced]
  cases hstart : (Assembler.start r module s.scene).value with
  | mk answer scene =>
    cases answer with
    | error f => simp [events_fail, entries_fail, ending, leave]
    | ok query =>
      cases hfinish : (Assembler.finish r query later.time (amid scene)).value with
      | mk answer scene =>
        cases answer with
        | error f => simp [finish, hfinish, amid, htarget, events_fail, entries_fail, ending, leave]
        | ok c => simp [finish, hfinish, amid, htarget, events_complete, ending, leave]

/-- What a resolution that serves nothing leaves to the others during its query. -/
theorem begun_of_miss (h : Module.isWorkspaceName module = false) {reason : Miss}
    (hl : (lookedUp module now s).1 = .miss reason) :
    let begun := (begin r module now s).value.2
    begun.scene = (Assembler.start r module s.scene).value.2 ∧
      ∀ root, r.tool.workspaceRoot s.scene.tool = some root →
        begun.cache = (lookedUp module now s).2 := by
  have htarget : (s.cache.entry module).target = module := rfl
  simp only [begin_of_miss r module now s h hl, startQuery, htarget, Traced.bind_value,
    Assembler.start]
  cases hw : r.tool.workspaceRoot s.scene.tool with
  | none => simp [leave]
  | some root => simp

theorem resolveAmid_of_hit (meanwhile : Session σ → Session σ)
    (h : Module.isWorkspaceName module = false) {c : Classpath}
    (hl : (lookedUp module now s).1 = .hit c) :
    let run := r.resolveAmid module now later s meanwhile
    run.events = [.cacheHit module] ∧ run.value.1 = c ∧ run.value.2.scene = s.scene := by
  simp [resolveAmid, begin_of_hit r module now s h hl, leave]

theorem resolveAmid_of_workspaceName (meanwhile : Session σ → Session σ)
    (h : Module.isWorkspaceName module = true) :
    let run := r.resolveAmid module now later s meanwhile
    run.events = [] ∧ run.value = (.empty now.time, s) := by
  simp [resolveAmid, begin, h]

/-- A resolution with a tool of given answers that serves nothing. -/
theorem miss_reports (files : FileSystem) (marker module : String) (now later : Moment)
    (meanwhile : Session Scripted → Session Scripted) (s : Session Scripted)
    (h : Module.isWorkspaceName module = false) {reason : Miss}
    (hl : (lookedUp module now s).1 = .miss reason) :
    let begun := ((scripted files marker).begin module now s).value.2
    let run := (scripted files marker).resolveAmid module now later s meanwhile
    let known := s.scene.tool.workspaceRoot.isSome
    ∃ asked missing last,
      run.events = .started module (s.cache.record? module).isSome s.cache.isImporting ::
        asked ++ missing.map (.archiveMissing module) ++ [last] ∧
      asked = (if known then [.queryStarted module (s.scene.workspace.targetsOf module).length
        operation] else []) ∧
      begun.scene.tool.queries = s.scene.tool.queries + asked.length ∧
      run.value.2.scene.tool.queries =
        (if known then meanwhile begun else begun).scene.tool.queries ∧
      match s.scene.tool.failure? (meanwhile begun).scene.tool with
      | none => last = .completed module run.value.1.size
      | some f => last = .failed module f.message ∧ missing = [] ∧ run.value.1.entries = [] := by
  intro begun run known
  let amid (scene : Scene Scripted) : Scene Scripted :=
    (meanwhile ⟨scene, (lookedUp module now s).2⟩).scene
  let pass := tryAssembleAmid ⟨Scripted.tool, files, marker⟩ module amid later.time s.scene
  obtain ⟨hevents, hscene, hok, herror⟩ : run.events =
        .started module (s.cache.record? module).isSome s.cache.isImporting ::
          pass.events ++ [ending module pass.value.1] ∧ run.value.2.scene = pass.value.2 ∧
      (∀ c, pass.value.1 = .ok c → run.value.1 = c) ∧
      ∀ f, pass.value.1 = .error f → run.value.1.entries = [] :=
    resolveAmid_of_miss (scripted files marker) module now later s meanwhile h hl
  obtain ⟨hbegun, hcache⟩ := begun_of_miss (scripted files marker) module now s h hl
  obtain ⟨asked, missing, hreports, hasked, hcount, hqueries, hnone, hfails⟩ :=
    tryAssembleAmid_reports files marker module amid later.time s.scene
  have hstarted : (start ⟨Scripted.tool, files, marker⟩ module s.scene).value.2 = begun.scene :=
    hbegun.symm
  -- The others act only if there is a query, and then on what the first half leaves.
  have hamid : ∀ root, s.scene.tool.workspaceRoot = some root →
      amid begun.scene = (meanwhile begun).scene := by
    intro root hw
    have hsame : begun.cache = (lookedUp module now s).2 := hcache root hw
    simp only [amid, ← hsame]
  have hfailure : s.scene.tool.failure? (amid begun.scene).tool =
      s.scene.tool.failure? (meanwhile begun).scene.tool := by
    cases hw : s.scene.tool.workspaceRoot with
    | none => simp [Scripted.failure?, hw]
    | some root => rw [hamid root hw]
  have hafter : (if known then amid begun.scene else begun.scene).tool.queries =
      (if known then meanwhile begun else begun).scene.tool.queries := by
    cases hw : s.scene.tool.workspaceRoot with
    | none => simp [known, hw]
    | some root => simp [known, hw, hamid root hw]
  rw [hstarted] at hcount hqueries hnone hfails
  rw [hfailure] at hnone hfails
  refine ⟨asked, missing, ending module pass.value.1, ?_, hasked, hcount, ?_, ?_⟩
  · simp [hevents, pass, hreports]
  · rw [hscene, hqueries, hafter]
  · cases hf : s.scene.tool.failure? (meanwhile begun).scene.tool with
    | some f =>
      have hfailed : pass.value.1 = .error f := (hfails f).mpr hf
      exact ⟨congrArg (ending module) hfailed, hnone f hf, herror f hfailed⟩
    | none =>
      cases hp : pass.value.1 with
      | error f =>
        rw [(hfails f).mp hp] at hf
        cases hf
      | ok c =>
        rw [hok c hp]
        rfl

/-- The events of a resolution with a tool of given answers, whatever the cache holds, whether or not
an import is running, and whatever others do during the query. A pseudo-module has none, and nothing
is done for it. A record that may be served is one event, and the tool is left alone. Otherwise the
work is announced, with a flag for a record and one for an import; the query follows if the workspace
is known, and then the archives that are absent; the last event is the failure, if there is one, and
tells the number of entries if not. A query is counted exactly if it is reported. -/
theorem reports_follow_protocol (files : FileSystem) (marker module : String) (now later : Moment)
    (meanwhile : Session Scripted → Session Scripted) (s : Session Scripted) :
    let r := scripted files marker
    let begun := (r.begin module now s).value.2
    let run := r.resolveAmid module now later s meanwhile
    let known := s.scene.tool.workspaceRoot.isSome
    (Module.isWorkspaceName module = true →
      run.events = [] ∧ run.value.1.entries = [] ∧ run.value.2 = s) ∧
    (Module.isWorkspaceName module = false → ∀ c, (lookedUp module now s).1 = .hit c →
      run.events = [.cacheHit module] ∧ run.value.1 = c ∧ run.value.2.scene = s.scene) ∧
    (Module.isWorkspaceName module = false → ∀ reason, (lookedUp module now s).1 = .miss reason →
      ∃ asked missing last,
        run.events = .started module (s.cache.record? module).isSome s.cache.isImporting ::
          asked ++ missing.map (.archiveMissing module) ++ [last] ∧
        asked = (if known then [.queryStarted module (s.scene.workspace.targetsOf module).length
          operation] else []) ∧
        begun.scene.tool.queries = s.scene.tool.queries + asked.length ∧
        run.value.2.scene.tool.queries =
          (if known then meanwhile begun else begun).scene.tool.queries ∧
        match s.scene.tool.failure? (meanwhile begun).scene.tool with
        | none => last = .completed module run.value.1.size
        | some f => last = .failed module f.message ∧ missing = [] ∧ run.value.1.entries = []) ∧
    ∀ e ∈ run.events, e.module = module := by
  intro r begun run known
  refine ⟨fun h => ?_, fun h c hl => resolveAmid_of_hit r module now later s meanwhile h hl,
    fun h reason hl => miss_reports files marker module now later meanwhile s h hl, ?_⟩
  · obtain ⟨hevents, hvalue⟩ := resolveAmid_of_workspaceName r module now later s meanwhile h
    rw [hevents, hvalue]
    exact ⟨rfl, rfl, rfl⟩
  · cases h : Module.isWorkspaceName module with
    | true => simp [run, (resolveAmid_of_workspaceName r module now later s meanwhile h).1]
    | false =>
      cases hl : (lookedUp module now s).1 with
      | hit c =>
        simp [run, (resolveAmid_of_hit r module now later s meanwhile h hl).1, Progress.module]
      | miss reason =>
        obtain ⟨asked, missing, last, hevents, rfl, -, -, hlast⟩ :=
          miss_reports files marker module now later meanwhile s h hl
        have hname : last.module = module := by
          cases hf : s.scene.tool.failure? (meanwhile begun).scene.tool with
          | none =>
            rw [hf] at hlast
            rw [hlast]
            rfl
          | some f =>
            rw [hf] at hlast
            rw [hlast.1]
            rfl
        have hquery : ∀ e ∈ (if known then [Progress.queryStarted module
            (s.scene.workspace.targetsOf module).length operation] else []),
            e.module = module := by
          cases known <;> simp [Progress.module]
        intro e he
        rw [hevents, List.mem_append, List.mem_append, List.mem_cons, List.mem_singleton] at he
        rcases he with ((rfl | he) | he) | rfl
        · rfl
        · exact hquery e he
        · obtain ⟨path, -, rfl⟩ := List.mem_map.mp he
          rfl
        · exact hname

theorem reports_follow_protocol_of_mutual :
    let run := (scripted (Tree.empty ⟨['/']⟩).fileSystem "external").resolveAmid "app" default default
      mutualSession id
    Module.isWorkspaceName "app" = false ∧
      (lookedUp "app" default mutualSession).1 = .miss .empty ∧
      ∃ missing : List String, run.events =
        .started "app" false false :: .queryStarted "app" 1 operation ::
          missing.map (.archiveMissing "app") ++ [.completed "app" run.value.1.size] := by
  intro run
  have hname : Module.isWorkspaceName "app" = false := by decide +kernel
  have hmiss : (lookedUp "app" default mutualSession).1 = .miss .empty := by decide +kernel
  obtain ⟨-, -, hmisses, -⟩ := reports_follow_protocol (Tree.empty ⟨['/']⟩).fileSystem "external"
    "app" default default id mutualSession
  obtain ⟨asked, missing, last, hevents, hasked, -, -, hlast⟩ := hmisses hname .empty hmiss
  have hlast : last = .completed "app" run.value.1.size := hlast
  have hasked : asked = [.queryStarted "app" 1 operation] := hasked
  rw [hlast, hasked] at hevents
  exact ⟨hname, hmiss, missing, hevents⟩

end Resolver

end Buildpath
