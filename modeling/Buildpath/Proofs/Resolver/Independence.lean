import Buildpath.Proofs.Assembly.Staleness
import Buildpath.Proofs.Resolver.Interleaving

/-!
# Resolutions of different modules

A resolution reads the settings of the cache, the record of its module, the modules of the
workspace, the references of its module and the answers of the tool (`Alike`). It changes the record
and the references of its module, and it is entered in the tool's account (`Touches`). So what one
resolution changes no resolution of another module reads, and two of them may change places
(`resolve_comm`).
-/

namespace Buildpath

/-! ### The cache -/

namespace Cache

/-- The caches are the same for one target. -/
structure Agree (target : String) (c d : Cache) : Prop where
  timeout : d.timeout = c.timeout
  generation : d.generation = c.generation
  imports : d.imports = c.imports
  record : d.record? target = c.record? target

/-- The caches are the same for all targets but one. -/
structure Spares (target : String) (c d : Cache) : Prop where
  timeout : d.timeout = c.timeout
  generation : d.generation = c.generation
  imports : d.imports = c.imports
  record : ∀ t, t ≠ target → d.record? t = c.record? t

variable {target : String} {c d : Cache} (e : CacheEntry) (cp : Classpath) (now : Instant)

theorem Spares.refl : Spares target c c := ⟨rfl, rfl, rfl, fun _ _ => rfl⟩

theorem Spares.trans {b : Cache} (h : Spares target c d) (k : Spares target d b) :
    Spares target c b :=
  ⟨k.timeout.trans h.timeout, k.generation.trans h.generation, k.imports.trans h.imports,
    fun t ht => (k.record t ht).trans (h.record t ht)⟩

theorem spares_hold : Spares target c (c.hold target) :=
  ⟨rfl, rfl, rfl, fun t _ => c.record?_hold target t⟩

theorem spares_release : Spares target c (c.release target) :=
  ⟨rfl, rfl, rfl, fun t _ => c.record?_release target t⟩

theorem spares_lookup : Spares e.target c (c.lookup e now).2 := by
  have honly := onlyRecords_lookup c e now
  refine ⟨honly.timeout, honly.generation, honly.imports, fun t ht => ?_⟩
  cases hl : (c.lookup e now).1 with
  | hit cp => rw [lookup_of_hit c e cp now hl]
  | miss reason => rw [record?_lookup_of_miss c t e now hl, if_neg ht]

theorem spares_store : Spares e.target c (c.store e cp now).value.2 := by
  have honly := onlyRecords_store c e cp now
  refine ⟨honly.timeout, honly.generation, honly.imports, fun t ht => ?_⟩
  cases hs : (c.store e cp now).value.1 with
  | false => rw [store_of_refused c e cp now hs]
  | true => rw [record?_store_of_stored c t e cp now hs, if_neg ht]

namespace Agree

/-- After both caches changed nothing but records, the record decides. -/
theorem of_onlyRecords (h : Agree target c d) {c' d' : Cache} (hc : c.OnlyRecords c')
    (hd : d.OnlyRecords d') (hrecord : d'.record? target = c'.record? target) :
    Agree target c' d' :=
  ⟨hd.timeout.trans (h.timeout.trans hc.timeout.symm),
    hd.generation.trans (h.generation.trans hc.generation.symm),
    hd.imports.trans (h.imports.trans hc.imports.symm), hrecord⟩

theorem hold (h : Agree target c d) : Agree target (c.hold target) (d.hold target) :=
  ⟨h.timeout, h.generation, h.imports, by
    rw [record?_hold, record?_hold]
    exact h.record⟩

theorem release (h : Agree target c d) : Agree target (c.release target) (d.release target) :=
  ⟨h.timeout, h.generation, h.imports, by
    rw [record?_release, record?_release]
    exact h.record⟩

theorem entry (h : Agree target c d) : d.entry target = c.entry target := by
  simp [Cache.entry, h.generation]

theorem isImporting (h : Agree target c d) : d.isImporting = c.isImporting := by
  simp [Cache.isImporting, h.imports]

theorem answer (h : Agree e.target c d) : (d.lookup e now).1 = (c.lookup e now).1 := by
  have hstale : ∀ r, d.staleness r now = c.staleness r now := by
    intro r
    simp only [staleness, h.isImporting, h.generation, h.timeout]
  unfold lookup
  rw [h.record]
  cases c.record? e.target with
  | none => rfl
  | some r =>
    simp only [hstale]
    cases c.staleness r now <;> rfl

theorem lookup (h : Agree e.target c d) :
    Agree e.target (c.lookup e now).2 (d.lookup e now).2 := by
  refine h.of_onlyRecords (onlyRecords_lookup c e now) (onlyRecords_lookup d e now) ?_
  cases hl : (c.lookup e now).1 with
  | hit cp =>
    rw [lookup_of_hit c e cp now hl, lookup_of_hit d e cp now ((h.answer e now).trans hl)]
    exact h.record
  | miss reason =>
    rw [record?_lookup_of_miss c e.target e now hl,
      record?_lookup_of_miss d e.target e now ((h.answer e now).trans hl), if_pos rfl, if_pos rfl]

theorem stored (h : Agree e.target c d) :
    (d.store e cp now).value.1 = (c.store e cp now).value.1 := by
  rw [Bool.eq_iff_iff, stored_iff, stored_iff, h.isImporting, h.generation]

theorem store (h : Agree e.target c d) :
    Agree e.target (c.store e cp now).value.2 (d.store e cp now).value.2 := by
  refine h.of_onlyRecords (onlyRecords_store c e cp now) (onlyRecords_store d e cp now) ?_
  have hsame := h.stored e cp now
  cases hs : (c.store e cp now).value.1 with
  | false =>
    rw [store_of_refused c e cp now hs, store_of_refused d e cp now (hsame.trans hs)]
    exact h.record
  | true =>
    rw [record?_store_of_stored c e.target e cp now hs,
      record?_store_of_stored d e.target e cp now (hsame.trans hs), if_pos rfl, if_pos rfl,
      h.generation]

end Agree

end Cache

/-! ### A resolution as a whole -/

namespace Resolver

variable {σ : Type} (r : Resolver σ) (module : String) (now : Moment) (s : Session σ)

theorem resolve_of_workspaceName (h : Module.isWorkspaceName module = true) :
    (r.resolve module now s).value = (.empty now.time, s) := by
  simp [resolve, begin, h]

/-- The lookup of a resolution, in the cache whose slot it holds. -/
def lookedUp : Lookup × Cache :=
  (s.cache.hold module).lookup (s.cache.entry module) now.instant

/-- The cache of a resolution that missed, after the classpath has been handed to it. -/
def kept (c : Classpath) : Cache :=
  ((lookedUp module now s).2.store (s.cache.entry module) c now.instant).value.2

/-- The first half of a resolution that serves a record. -/
theorem begin_of_hit (h : Module.isWorkspaceName module = false) {c : Classpath}
    (hl : (lookedUp module now s).1 = .hit c) :
    begin r module now s = (do
      Traced.emit (.cacheHit module)
      return (.done c,
        leave (s.cache.entry module) { s with cache := (lookedUp module now s).2 })) := by
  have hlookup : (s.cache.hold module).lookup (s.cache.entry module) now.instant =
      (.hit c, (lookedUp module now s).2) := Prod.ext hl rfl
  simp only [begin, h, Bool.false_eq_true, if_false, Cache.enter, hlookup]

/-- The first half of a resolution that serves none. -/
theorem begin_of_miss (h : Module.isWorkspaceName module = false) {reason : Miss}
    (hl : (lookedUp module now s).1 = .miss reason) :
    begin r module now s = (do
      announce module (s.cache.record? module).isSome reason (lookedUp module now s).2
      startQuery r (s.cache.entry module) now
        { s with cache := (lookedUp module now s).2 }) := by
  have hlookup : (s.cache.hold module).lookup (s.cache.entry module) now.instant =
      (.miss reason, (lookedUp module now s).2) := Prod.ext hl rfl
  simp only [begin, h, Bool.false_eq_true, if_false, Cache.enter, hlookup, Cache.hasRecord,
    Cache.record?_hold]

theorem resolve_of_hit (h : Module.isWorkspaceName module = false) {c : Classpath}
    (hl : (lookedUp module now s).1 = .hit c) :
    (r.resolve module now s).value =
      (c, { s with cache := (lookedUp module now s).2.release module }) := by
  rw [resolve, begin_of_hit r module now s h hl]
  rfl

theorem resolve_of_miss (h : Module.isWorkspaceName module = false) {reason : Miss}
    (hl : (lookedUp module now s).1 = .miss reason) :
    (r.resolve module now s).value =
      match (r.tryAssemble module now.time s.scene).value with
      | (.ok c, scene) => (c, ⟨scene, (kept module now s c).release module⟩)
      | (.error _, scene) => (.empty now.time, ⟨scene, (lookedUp module now s).2.release module⟩) := by
  have htarget : (s.cache.entry module).target = module := rfl
  simp only [resolve, begin_of_miss r module now s h hl, startQuery, htarget,
    Assembler.tryAssemble, Traced.bind_value]
  cases hstart : (Assembler.start r module s.scene).value with
  | mk answer scene =>
    cases answer with
    | error f => rfl
    | ok query =>
      simp only [Traced.bind_value, Traced.pure_value, finish]
      cases hfinish : (Assembler.finish r query now.time scene).value with
      | mk answer scene =>
        cases answer with
        | error f => rfl
        | ok c =>
          simp only [Traced.bind_value, Traced.pure_value, Interleaving.complete_value, leave, kept,
            htarget]

end Resolver

/-! ### A tool with given answers -/

namespace Scripted

/-- The tool after `n` more queries and after it was told to forget the targets. -/
def used (t : Scripted) (n : Nat) (forgotten : List String) : Scripted :=
  { t with queries := t.queries + n, flushed := t.flushed ++ forgotten }

theorem used_used (t : Scripted) (m n : Nat) (k l : List String) :
    (t.used m k).used n l = t.used (m + n) (k ++ l) := by
  simp [used, Nat.add_assoc]

/-- The tools give the same answers. -/
def SameAnswers (t u : Scripted) : Prop :=
  ∃ queries checks flushed, u = { t with queries, checks, flushed }

theorem sameAnswers_used (t : Scripted) (n : Nat) (forgotten : List String) :
    SameAnswers t (t.used n forgotten) := ⟨_, _, _, rfl⟩

end Scripted

namespace Assembler

variable (files : FileSystem) (marker module : String) (now : Timestamp)

/-- What an assembly with a scripted tool comes to. All is decided by the answers of the tool and
the modules that are known. -/
structure Yield where
  answer : Except Failure Classpath
  queries : Nat
  forgotten : List String
  owner : Dependency → Option String
  noted : List Dependency

/-- The yield of an assembly with the answers of `t` among the modules. -/
def yieldOf (t : Scripted) (modules : List Module) : Yield :=
  let targets := ((modules.find? (·.name == module)).map (·.targets)).getD []
  match t.workspaceRoot with
  | none => ⟨.error (.toolUnavailable "Bazel workspace root is not set"), 0, [], fun _ => none, []⟩
  | some root =>
    match t.queryFailure with
    | some f => ⟨.error f, 1, [], fun _ => none, []⟩
    | none =>
      let finder : ArchiveFinder := ⟨files, t.roots, marker⟩
      let owner := ownerName root modules
      let units := (t.metadata targets).units
      ⟨.ok ⟨contributions finder owner module [] units, now⟩, 1,
        if units.any (missesArchive finder owner) then targets else [], owner, units⟩

theorem yieldOf_eq {t u : Scripted} (h : Scripted.SameAnswers t u) (modules : List Module) :
    yieldOf files marker module now u modules = yieldOf files marker module now t modules := by
  obtain ⟨queries, checks, flushed, rfl⟩ := h
  rfl

theorem queries_yieldOf (t : Scripted) (modules : List Module) :
    (yieldOf files marker module now t modules).queries ≤ 1 := by
  unfold yieldOf
  cases t.workspaceRoot with
  | none => exact Nat.zero_le 1
  | some root => cases t.queryFailure <;> exact Nat.le_refl 1

theorem forgotten_yieldOf (t : Scripted) (w : Workspace) :
    (yieldOf files marker module now t w.modules).forgotten = [] ∨
      (yieldOf files marker module now t w.modules).forgotten = w.targetsOf module := by
  unfold yieldOf
  cases t.workspaceRoot with
  | none => exact Or.inl rfl
  | some root =>
    cases t.queryFailure with
    | some f => exact Or.inl rfl
    | none =>
      dsimp only
      split
      · exact Or.inr rfl
      · exact Or.inl rfl

/-- With given output roots the loop over the dependencies never stops early, and leaves the tool
alone. -/
theorem addUnits_scripted (root : Path) (units : List Dependency) (s : Scene Scripted) :
    let finder : ArchiveFinder := ⟨files, s.tool.roots, marker⟩
    let owner := ownerName root s.workspace.modules
    ∃ roots, (addUnits ⟨Scripted.tool, files, marker⟩ root s.workspace.modules module units
        ⟨s, .empty now, none, false⟩).value =
      (none, ⟨⟨s.tool, noteOwners owner module s.workspace units⟩,
        ⟨contributions finder owner module [] units, now⟩, roots,
        units.any (missesArchive finder owner)⟩) := by
  intro finder owner
  let a : Assembler Scripted := ⟨Scripted.tool, files, marker⟩
  let begun : Progression Scripted := ⟨s, .empty now, none, false⟩
  have hbegun : Follows a owner module now s.tool [] begun := Follows.start a owner module now s
  have hroots : ∀ l, NeedsRoots owner l → (a.tool.outputRoots s.tool).value.1 = .ok s.tool.roots :=
    fun _ _ => rfl
  obtain ⟨hfail, hgo⟩ := addUnits_follows units hbegun
  have hstale := stale_addUnits units hbegun fun roots _ => rfl
  have htool :=
    tool_addUnits (a := a) (fun _ => rfl) root s.workspace.modules module units begun
  obtain ⟨done, -, hnoted, hall⟩ := workspace_addUnits a root s.workspace.modules module units begun
  show ∃ roots, (a.addUnits root s.workspace.modules module units begun).value = _
  cases hu : (a.addUnits root s.workspace.modules module units begun).value with
  | mk answer p =>
    rw [hu] at hfail hgo hstale htool hnoted hall
    cases answer with
    | some f =>
      have hrefused := (hfail f rfl).2
      cases hrefused
    | none =>
      cases hall rfl
      have hclasspath := (hgo rfl).classpath s.tool.roots (hroots _)
      have hshown := hstale rfl s.tool.roots (hroots _)
      obtain ⟨⟨tool, workspace⟩, classpath, roots, stale⟩ := p
      cases htool
      cases hnoted
      cases hclasspath
      cases hshown
      exact ⟨roots, rfl⟩

theorem finish_scripted (root : Path) (targets : List String) (s : Scene Scripted)
    (hq : s.tool.queryFailure = none) :
    let finder : ArchiveFinder := ⟨files, s.tool.roots, marker⟩
    let owner := ownerName root s.workspace.modules
    let units := (s.tool.metadata targets).units
    (finish ⟨Scripted.tool, files, marker⟩ ⟨root, module, targets, operation⟩ now s).value =
      (.ok ⟨contributions finder owner module [] units, now⟩,
        { tool := s.tool.used 0 (if units.any (missesArchive finder owner) then targets else [])
          workspace := noteOwners owner module s.workspace units }) := by
  intro finder owner units
  have hquery : (Scripted.tool.finishQuery ⟨module, targets, operation⟩ s.tool).value =
      (.ok (s.tool.metadata targets), s.tool) := by
    simp only [Scripted.tool, hq]
    rfl
  obtain ⟨roots, hunits⟩ := addUnits_scripted files marker module now root units s
  simp only [finish, Traced.bind_value]
  rw [hquery]
  simp only [Traced.bind_value]
  rw [hunits]
  simp only [Traced.bind_value, flushIfStale]
  cases units.any (missesArchive finder owner) with
  | true => rfl
  | false => simp [Scripted.used, finder, owner]

theorem tryAssemble_scripted (s : Scene Scripted) :
    let y := yieldOf files marker module now s.tool s.workspace.modules
    (tryAssemble ⟨Scripted.tool, files, marker⟩ module now s).value =
      (y.answer, ⟨s.tool.used y.queries y.forgotten, noteOwners y.owner module s.workspace y.noted⟩) := by
  intro y
  cases hroot : s.tool.workspaceRoot with
  | none =>
    have hy : y = ⟨.error (.toolUnavailable "Bazel workspace root is not set"), 0, [],
        fun _ => none, []⟩ := by
      simp only [y, yieldOf, hroot]
    have hw : Scripted.tool.workspaceRoot s.tool = none := hroot
    simp [hy, tryAssemble, start, hw, Scripted.used, noteOwners]
  | some root =>
    have hw : Scripted.tool.workspaceRoot s.tool = some root := hroot
    rw [tryAssemble_value ⟨Scripted.tool, files, marker⟩ root module hw]
    cases hq : s.tool.queryFailure with
    | some f =>
      have hy : y = ⟨.error f, 1, [], fun _ => none, []⟩ := by
        simp only [y, yieldOf, hroot, hq]
      simp [hy, finish, Scripted.tool, hq, Scripted.used, noteOwners]
    | none =>
      have hstarted : (Scripted.tool.startQuery ⟨module, s.workspace.targetsOf module, operation⟩
          s.tool).value = s.tool.used 1 [] := by
        simp [Scripted.tool, Scripted.used]
      rw [hstarted, finish_scripted files marker module now root (s.workspace.targetsOf module)
        ⟨s.tool.used 1 [], s.workspace⟩ hq, Scripted.used_used]
      simp only [y, yieldOf, hroot, hq]
      rfl

end Assembler

/-! ### One resolution -/

namespace Resolver

open Assembler

/-- The sessions are the same for one module. -/
structure Alike (module : String) (s t : Session Scripted) : Prop where
  cache : s.cache.Agree module t.cache
  modules : t.scene.workspace.modules = s.scene.workspace.modules
  references : t.scene.workspace.references module = s.scene.workspace.references module
  answers : Scripted.SameAnswers s.scene.tool t.scene.tool

/-- The sessions differ in one module only, and in the account of the tool, which was queried at
most once and told to forget nothing or the targets of that module. -/
structure Touches (module : String) (s t : Session Scripted) : Prop where
  cache : s.cache.Spares module t.cache
  modules : t.scene.workspace.modules = s.scene.workspace.modules
  references : ∀ m, m ≠ module →
    t.scene.workspace.references m = s.scene.workspace.references m
  tool : ∃ n forgotten, n ≤ 1 ∧
    (forgotten = [] ∨ forgotten = s.scene.workspace.targetsOf module) ∧
    t.scene.tool = s.scene.tool.used n forgotten

variable {module other : String} {s t : Session Scripted}

theorem Touches.alike (h : Touches module s t) (hne : other ≠ module) : Alike other s t := by
  obtain ⟨n, forgotten, -, -, htool⟩ := h.tool
  exact ⟨⟨h.cache.timeout, h.cache.generation, h.cache.imports, h.cache.record other hne⟩, h.modules,
    h.references other hne, htool ▸ Scripted.sameAnswers_used _ n forgotten⟩

variable (files : FileSystem) (marker : String) (now : Moment)

/-- A resolver whose tool has given answers. -/
abbrev scripted : Resolver Scripted := ⟨Scripted.tool, files, marker⟩

theorem touches_of_scene {scene : Scene Scripted} {cache : Cache}
    (hscene : ((scripted files marker).tryAssemble module now.time s.scene).value.2 = scene)
    (hcache : s.cache.Spares module cache) : Touches module s ⟨scene, cache⟩ := by
  rw [tryAssemble_scripted] at hscene
  subst hscene
  exact ⟨hcache, modules_noteOwners _, fun m hm => references_noteOwners_of_ne hm _, _, _,
    queries_yieldOf files marker module now.time _ _, forgotten_yieldOf files marker module now.time _ _,
    rfl⟩

theorem resolve_touches (module : String) (s : Session Scripted) :
    Touches module s ((scripted files marker).resolve module now s).value.2 := by
  have hentry : (s.cache.entry module).target = module := rfl
  have hlooked : s.cache.Spares module (lookedUp module now s).2 :=
    Cache.spares_hold.trans (hentry ▸ Cache.spares_lookup (s.cache.entry module) now.instant)
  have hsame : ∀ {cache : Cache}, s.cache.Spares module cache →
      Touches module s { s with cache } := fun hc =>
    ⟨hc, rfl, fun _ _ => rfl, 0, [], Nat.zero_le 1, Or.inl rfl, by simp [Scripted.used]⟩
  cases hname : Module.isWorkspaceName module with
  | true =>
    rw [resolve_of_workspaceName _ module now s hname]
    exact hsame .refl
  | false =>
    cases hl : (lookedUp module now s).1 with
    | hit c =>
      rw [resolve_of_hit _ module now s hname hl]
      exact hsame (hlooked.trans Cache.spares_release)
    | miss reason =>
      rw [resolve_of_miss _ module now s hname hl]
      cases hassembled : ((scripted files marker).tryAssemble module now.time s.scene).value with
      | mk answer scene =>
        have hscene := congrArg Prod.snd hassembled
        cases answer with
        | error f => exact touches_of_scene files marker now hscene (hlooked.trans Cache.spares_release)
        | ok c =>
          have hkept : s.cache.Spares module (kept module now s c) :=
            hlooked.trans (hentry ▸ Cache.spares_store (s.cache.entry module) c now.instant)
          exact touches_of_scene files marker now hscene (hkept.trans Cache.spares_release)

/-- What a resolution comes to in two sessions that are the same for its module: the same answer,
sessions that are the same for it again, and the same entry in the tool's account. -/
structure Concurs (module : String) (s t : Session Scripted)
    (x y : Classpath × Session Scripted) : Prop where
  answer : y.1 = x.1
  after : Alike module x.2 y.2
  account : ∃ n forgotten, x.2.scene.tool = s.scene.tool.used n forgotten ∧
    y.2.scene.tool = t.scene.tool.used n forgotten

/-- Sessions with other caches. -/
theorem Alike.concurs (h : Alike module s t) {c d : Cache} (hc : c.Agree module d) (cp : Classpath) :
    Concurs module s t (cp, { s with cache := c }) (cp, { t with cache := d }) :=
  ⟨rfl, ⟨hc, h.modules, h.references, h.answers⟩, 0, [], by simp [Scripted.used],
    by simp [Scripted.used]⟩

theorem Alike.lookedUp (h : Alike module s t) :
    (lookedUp module now t).1 = (lookedUp module now s).1 ∧
      (lookedUp module now s).2.Agree module (lookedUp module now t).2 := by
  unfold Resolver.lookedUp
  rw [h.cache.entry]
  exact ⟨Cache.Agree.answer (s.cache.entry module) now.instant h.cache.hold,
    Cache.Agree.lookup (s.cache.entry module) now.instant h.cache.hold⟩

/-- Assembled scenes; the caches may be others. -/
theorem Alike.assembled (h : Alike module s t) :
    ∃ answer n forgotten scene scene',
      ((scripted files marker).tryAssemble module now.time s.scene).value = (answer, scene) ∧
      ((scripted files marker).tryAssemble module now.time t.scene).value = (answer, scene') ∧
      scene.tool = s.scene.tool.used n forgotten ∧ scene'.tool = t.scene.tool.used n forgotten ∧
      ∀ c d : Cache, c.Agree module d → Alike module ⟨scene, c⟩ ⟨scene', d⟩ := by
  -- The yield depends on the modules and the answers only, which are the same.
  have hyield := yieldOf_eq files marker module now.time h.answers s.scene.workspace.modules
  have hs := tryAssemble_scripted files marker module now.time s.scene
  have ht := tryAssemble_scripted files marker module now.time t.scene
  rw [h.modules, hyield] at ht
  refine ⟨_, _, _, _, _, hs, ht, rfl, rfl, fun c d hc => ⟨hc, ?_, ?_, ?_⟩⟩
  · exact (modules_noteOwners _).trans (h.modules.trans (modules_noteOwners _).symm)
  · show (noteOwners _ _ _ _).references _ = (noteOwners _ _ _ _).references _
    rw [references_noteOwners, references_noteOwners, h.references]
  · obtain ⟨queries, checks, flushed, heq⟩ := h.answers
    exact ⟨_, checks, _, by rw [heq]; rfl⟩

theorem resolve_concurs (h : Alike module s t) :
    Concurs module s t ((scripted files marker).resolve module now s).value
      ((scripted files marker).resolve module now t).value := by
  cases hname : Module.isWorkspaceName module with
  | true =>
    rw [resolve_of_workspaceName _ module now s hname, resolve_of_workspaceName _ module now t hname]
    exact h.concurs h.cache _
  | false =>
    obtain ⟨hanswer, hlooked⟩ := h.lookedUp now
    cases hl : (Resolver.lookedUp module now s).1 with
    | hit c =>
      rw [resolve_of_hit _ module now s hname hl,
        resolve_of_hit _ module now t hname (hanswer.trans hl)]
      exact h.concurs hlooked.release c
    | miss reason =>
      rw [resolve_of_miss _ module now s hname hl,
        resolve_of_miss _ module now t hname (hanswer.trans hl)]
      obtain ⟨answer, n, forgotten, scene, scene', hs, ht, htool, htool', halike⟩ :=
        h.assembled files marker now
      rw [hs, ht]
      cases answer with
      | error f => exact ⟨rfl, halike _ _ hlooked.release, n, forgotten, htool, htool'⟩
      | ok c =>
        have hkept : (kept module now s c).Agree module (kept module now t c) := by
          unfold kept
          rw [h.cache.entry]
          exact Cache.Agree.store (s.cache.entry module) c now.instant hlooked
        exact ⟨rfl, halike _ _ hkept.release, n, forgotten, htool, htool'⟩

/-! ### Two resolutions -/

/-- What is kept for each module and changed by the resolution of that module only, each time to the
same, does not depend on the order. -/
theorem eq_in_either_order {α : Type} {v v₁ v₂ v₁' v₂' : String → α} {a b : String} (hne : a ≠ b)
    (h₁ : ∀ m, m ≠ a → v₁ m = v m) (h₂ : ∀ m, m ≠ b → v₂ m = v₁ m)
    (h₁' : ∀ m, m ≠ b → v₁' m = v m) (h₂' : ∀ m, m ≠ a → v₂' m = v₁' m)
    (ha : v₂' a = v₁ a) (hb : v₂ b = v₁' b) (m : String) : v₂ m = v₂' m := by
  by_cases hma : m = a
  · rw [hma, h₂ a hne, ha]
  · rw [h₂' m hma]
    by_cases hmb : m = b
    · rw [hmb, hb]
    · rw [h₂ m hmb, h₁ m hma, h₁' m hmb]

/-- The account of the tool after two resolutions in either order. -/
theorem Concurs.account_in_either_order {a b : String} {x y x' y' : Classpath × Session Scripted}
    (ha : Concurs a s x'.2 x y') (hb : Concurs b s x.2 x' y) :
    y.2.scene.tool.queries = y'.2.scene.tool.queries ∧
      y.2.scene.tool.flushed.Perm y'.2.scene.tool.flushed := by
  obtain ⟨n, k, htool, htool'⟩ := ha.account
  obtain ⟨n', k', hother, hother'⟩ := hb.account
  rw [hother', htool, htool', hother]
  simp only [Scripted.used, List.append_assoc]
  refine ⟨?_, List.perm_append_comm.append_left s.scene.tool.flushed⟩
  omega

/-- Resolutions of different modules do not interfere. A resolution of `a` leaves the record and the
references of every other module, the modules and the answers of the tool as they are; it queries
the tool at most once and has it forget nothing or the targets of `a`. Two resolutions at the same
instant give the same classpaths in either order, and leave the same records, the same references
and modules, the same number of queries and the same forgotten targets, these up to their order. -/
theorem resolve_comm (s : Session Scripted) {a b : String} (hne : a ≠ b) :
    let resolve := (scripted files marker).resolve
    let first := (resolve a now s).value
    let second := (resolve b now first.2).value
    let first' := (resolve b now s).value
    let second' := (resolve a now first'.2).value
    (∀ m, m ≠ a → first.2.cache.record? m = s.cache.record? m ∧
      first.2.scene.workspace.references m = s.scene.workspace.references m) ∧
    first.2.scene.workspace.modules = s.scene.workspace.modules ∧
    (∃ n forgotten, n ≤ 1 ∧ (forgotten = [] ∨ forgotten = s.scene.workspace.targetsOf a) ∧
      first.2.scene.tool = s.scene.tool.used n forgotten) ∧
    first.1 = second'.1 ∧ second.1 = first'.1 ∧
    (∀ m, second.2.cache.record? m = second'.2.cache.record? m) ∧
    (∀ m, second.2.scene.workspace.references m = second'.2.scene.workspace.references m) ∧
    second.2.scene.workspace.modules = second'.2.scene.workspace.modules ∧
    second.2.scene.tool.queries = second'.2.scene.tool.queries ∧
    second.2.scene.tool.flushed.Perm second'.2.scene.tool.flushed := by
  intro resolve first second first' second'
  have hfirst : Touches a s first.2 := resolve_touches files marker now a s
  have hsecond : Touches b first.2 second.2 := resolve_touches files marker now b first.2
  have hfirst' : Touches b s first'.2 := resolve_touches files marker now b s
  have hsecond' : Touches a first'.2 second'.2 := resolve_touches files marker now a first'.2
  -- Each resolution finds the same session for its module, before and after the other one.
  have hb : Concurs b s first.2 first' second :=
    resolve_concurs files marker now (hfirst.alike hne.symm)
  have ha : Concurs a s first'.2 first second' :=
    resolve_concurs files marker now (hfirst'.alike hne)
  refine ⟨fun m hm => ⟨hfirst.cache.record m hm, hfirst.references m hm⟩, hfirst.modules,
    hfirst.tool, ha.answer.symm, hb.answer, ?_, ?_, ?_, ha.account_in_either_order hb⟩
  · exact eq_in_either_order hne hfirst.cache.record hsecond.cache.record hfirst'.cache.record
      hsecond'.cache.record ha.after.cache.record hb.after.cache.record
  · exact eq_in_either_order hne hfirst.references hsecond.references hfirst'.references
      hsecond'.references ha.after.references hb.after.references
  · rw [hsecond.modules, hfirst.modules, hsecond'.modules, hfirst'.modules]

/-- Two modules that depend on each other; an archive of the first is nowhere. -/
def mutualSession : Session Scripted :=
  let module (name target : String) : Module :=
    ⟨name, .ofString ("/ws/" ++ name), [⟨.ofString ("/ws/" ++ name), [], []⟩], [target]⟩
  { scene :=
      { tool := (((Scripted.ofRoots ⟨.ofString "/base", .ofString "/ws"⟩).addUnit "//app:main"
          ⟨"//core:lib", ["core/C.code"], [], []⟩).addUnit "//app:main"
          ⟨"@x//:x", [], [], [⟨some "external/x.jar", none⟩]⟩).addUnit "//core:lib"
          ⟨"//app:main", ["app/A.code"], [], []⟩
        workspace := ⟨[module "app" "//app:main", module "core" "//core:lib"], []⟩ }
    cache := .empty Cache.defaultTimeout }

theorem resolve_comm_of_mutual :
    let resolve := (scripted (Tree.empty ⟨['/']⟩).fileSystem "external").resolve
    let first := (resolve "app" default mutualSession).value
    let second := (resolve "core" default first.2).value
    let first' := (resolve "core" default mutualSession).value
    let second' := (resolve "app" default first'.2).value
    "app" ≠ "core" ∧
    first.1.entries = [.module "/core", .library (.ofString "/base/external/x.jar") none] ∧
    second.1.entries = [.module "/app"] ∧ second.2.scene.tool.flushed = ["//app:main"] ∧
    second.2.scene.tool.queries = 2 ∧
    first.2.cache.record? "core" = mutualSession.cache.record? "core" ∧
    first.1 = second'.1 ∧ second.1 = first'.1 ∧
    (∀ m, second.2.cache.record? m = second'.2.cache.record? m) ∧
    ∀ m, second.2.scene.workspace.references m = second'.2.scene.workspace.references m := by
  intro resolve first second first' second'
  have hne : "app" ≠ "core" := by decide
  obtain ⟨hother, -, -, hfirst, hsecond, hrecords, hreferences, -⟩ :=
    resolve_comm (Tree.empty ⟨['/']⟩).fileSystem "external" default mutualSession hne
  exact ⟨hne, rfl, rfl, rfl, rfl, (hother "core" hne.symm).1, hfirst, hsecond, hrecords, hreferences⟩

end Resolver

end Buildpath
