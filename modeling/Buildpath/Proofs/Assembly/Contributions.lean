import Buildpath.Proofs.Assembly.Archives

/-!
# What a classpath consists of

Every dependency contributes entries of its own: none if the module owns its sources, a reference if
another module does and no earlier dependency of that owner came first, its libraries if nobody
does. A classpath that is assembled is these contributions one after the other
(`tryAssemble_eq_ok_iff`). The loop keeps the partial classpath equal to the contributions of the
dependencies behind it (`Follows`).
-/

namespace Buildpath.Assembler

variable {σ : Type}

/-! ### Contributions -/

/-- The name of the module that owns the sources of a dependency. -/
def ownerName (root : Path) (modules : List Module) (d : Dependency) : Option String :=
  (ownerOfSources root d.sources modules).value.map (·.name)

section

variable (f : ArchiveFinder) (owner : Dependency → Option String) (module : String)

/-- What a dependency contributes after the earlier ones. -/
def contribution (earlier : List Dependency) (d : Dependency) : List Entry :=
  match owner d with
  | some o => if o = module ∨ ∃ e ∈ earlier, owner e = some o then [] else [.module ("/" ++ o)]
  | none => d.archives.filterMap f.library?

/-- What the dependencies contribute, one after the other. -/
def contributions (earlier : List Dependency) : List Dependency → List Entry
  | [] => []
  | d :: rest => contribution f owner module earlier d ++ contributions (earlier ++ [d]) rest

theorem contribution_of_none (earlier : List Dependency) {d : Dependency} (h : owner d = none) :
    contribution f owner module earlier d = d.archives.filterMap f.library? := by
  unfold contribution
  rw [h]

theorem contribution_of_some (earlier : List Dependency) {d : Dependency} {o : String}
    (h : owner d = some o) :
    contribution f owner module earlier d =
      if o = module ∨ ∃ e ∈ earlier, owner e = some o then [] else [.module ("/" ++ o)] := by
  unfold contribution
  rw [h]

theorem contributions_append (earlier l k : List Dependency) :
    contributions f owner module earlier (l ++ k) =
      contributions f owner module earlier l ++ contributions f owner module (earlier ++ l) k := by
  induction l generalizing earlier with
  | nil => simp [contributions]
  | cons d rest ih => simp [contributions, ih]

theorem contributions_concat (earlier : List Dependency) (d : Dependency) :
    contributions f owner module [] (earlier ++ [d]) =
      contributions f owner module [] earlier ++ contribution f owner module earlier d := by
  rw [contributions_append]
  simp [contributions]

theorem module_mem_contribution_iff (earlier : List Dependency) (d : Dependency) (o : String) :
    Entry.module ("/" ++ o) ∈ contribution f owner module earlier d ↔
      o ≠ module ∧ owner d = some o ∧ ∀ e ∈ earlier, owner e ≠ some o := by
  cases hd : owner d with
  | none =>
    rw [contribution_of_none f owner module earlier hd]
    simp [ArchiveFinder.library?]
  | some u =>
    rw [contribution_of_some f owner module earlier hd]
    by_cases hu : u = module ∨ ∃ e ∈ earlier, owner e = some u
    · rw [if_pos hu]
      constructor
      · intro hm
        exact absurd hm List.not_mem_nil
      · rintro ⟨hne, heq, hnew⟩
        cases Option.some.inj heq
        rcases hu with hu | ⟨e, he, hu⟩
        · exact absurd hu hne
        · exact absurd hu (hnew e he)
    · rw [if_neg hu, List.mem_singleton]
      constructor
      · intro heq
        have ho : o = u := by simpa using heq
        subst ho
        exact ⟨fun h => hu (Or.inl h), rfl, fun e he h => hu (Or.inr ⟨e, he, h⟩)⟩
      · rintro ⟨_, heq, _⟩
        rw [Option.some.inj heq]

theorem module_mem_contributions_iff (earlier l : List Dependency) (o : String) :
    Entry.module ("/" ++ o) ∈ contributions f owner module earlier l ↔
      o ≠ module ∧ (∃ d ∈ l, owner d = some o) ∧ ∀ e ∈ earlier, owner e ≠ some o := by
  induction l generalizing earlier with
  | nil => simp [contributions]
  | cons d rest ih =>
    rw [contributions, List.mem_append, ih, module_mem_contribution_iff]
    constructor
    · rintro (⟨hne, hd, hnew⟩ | ⟨hne, ⟨e, he, ho⟩, hnew⟩)
      · exact ⟨hne, ⟨d, List.mem_cons_self, hd⟩, hnew⟩
      · exact ⟨hne, ⟨e, List.mem_cons_of_mem d he, ho⟩,
          fun e he => hnew e (List.mem_append_left [d] he)⟩
    · rintro ⟨hne, ⟨e, he, ho⟩, hnew⟩
      by_cases hd : owner d = some o
      · exact Or.inl ⟨hne, hd, hnew⟩
      · refine Or.inr ⟨hne, ?_, fun e' he' => ?_⟩
        · rcases List.mem_cons.mp he with rfl | he
          · exact absurd ho hd
          · exact ⟨e, he, ho⟩
        · rcases List.mem_append.mp he' with he' | he'
          · exact hnew e' he'
          · rwa [List.mem_singleton.mp he']

end

/-! ### The loop -/

/-- Some dependency that no module owns has archives. -/
def NeedsRoots (owner : Dependency → Option String) (l : List Dependency) : Prop :=
  ∃ d ∈ l, owner d = none ∧ d.archives ≠ []

theorem needsRoots_concat_iff (owner : Dependency → Option String) (l : List Dependency)
    (d : Dependency) :
    NeedsRoots owner (l ++ [d]) ↔ NeedsRoots owner l ∨ owner d = none ∧ d.archives ≠ [] := by
  simp only [NeedsRoots, List.mem_append, List.mem_singleton, or_and_right, exists_or,
    exists_eq_left]

/-- How archives are found once the tool has been asked for the output roots. -/
def finder (a : Assembler σ) (tool : σ) (roots : OutputRoots) : ArchiveFinder :=
  ⟨a.files (a.tool.outputRoots tool).value.2, roots, a.marker⟩

/-- What holds of a progression that has the earlier dependencies behind it: the output roots have
been asked for if they were needed, and the classpath is what the dependencies contribute. -/
structure Follows (a : Assembler σ) (owner : Dependency → Option String) (module : String)
    (now : Timestamp) (tool : σ) (earlier : List Dependency) (p : Progression σ) : Prop where
  asked : ∀ roots, p.roots = some roots →
    (a.tool.outputRoots tool).value = (.ok roots, p.scene.tool)
  unasked : p.roots = none → p.scene.tool = tool ∧ ¬ NeedsRoots owner earlier
  classpath : ∀ roots, (NeedsRoots owner earlier → (a.tool.outputRoots tool).value.1 = .ok roots) →
    p.classpath = ⟨contributions (a.finder tool roots) owner module [] earlier, now⟩

variable {a : Assembler σ} {owner : Dependency → Option String} {module : String} {now : Timestamp}
  {tool : σ} {earlier : List Dependency} {p p' : Progression σ} {d : Dependency}

namespace Follows

variable (a owner module now) in
theorem start (s : Scene σ) :
    Follows a owner module now s.tool [] ⟨s, .empty now, none, false⟩ :=
  ⟨fun _ h => (by cases h), fun _ => ⟨rfl, fun ⟨_, hd, _⟩ => List.not_mem_nil hd⟩,
    fun _ _ => rfl⟩

theorem exists_roots (hf : Follows a owner module now tool earlier p) :
    ∃ roots, NeedsRoots owner earlier → (a.tool.outputRoots tool).value.1 = .ok roots := by
  cases hr : p.roots with
  | some roots => exact ⟨roots, fun _ => congrArg Prod.fst (hf.asked roots hr)⟩
  | none => exact ⟨⟨⟨[]⟩, ⟨[]⟩⟩, fun hn => absurd hn (hf.unasked hr).2⟩

theorem containsModule_iff (hf : Follows a owner module now tool earlier p) {o : String}
    (ho : o ≠ module) :
    p.classpath.containsModule ("/" ++ o) = true ↔ ∃ e ∈ earlier, owner e = some o := by
  obtain ⟨roots, hr⟩ := hf.exists_roots
  rw [hf.classpath roots hr, Classpath.containsModule, List.contains_iff_mem,
    module_mem_contributions_iff]
  constructor
  · intro h
    exact h.2.1
  · intro h
    exact ⟨ho, h, fun e he => absurd he List.not_mem_nil⟩

/-- A dependency that needs no output roots. -/
theorem concat (hf : Follows a owner module now tool earlier p) {entries : List Entry}
    (hp : Extends entries p p') (hd : owner d = none → d.archives = [])
    (hc : ∀ f, contribution f owner module earlier d = entries) :
    Follows a owner module now tool (earlier ++ [d]) p' := by
  have hneeds : NeedsRoots owner (earlier ++ [d]) ↔ NeedsRoots owner earlier := by
    rw [needsRoots_concat_iff]
    exact or_iff_left fun h => h.2 (hd h.1)
  refine ⟨fun roots hr => ?_, fun hr => ?_, fun roots hr => ?_⟩
  · rw [hp.tool]
    exact hf.asked roots (hp.roots ▸ hr)
  · rw [hp.tool, hneeds]
    exact hf.unasked (hp.roots ▸ hr)
  · rw [hneeds] at hr
    rw [hp.classpath, hf.classpath roots hr, contributions_concat, hc]

/-- A dependency with archives that no module owns. -/
theorem concat_archives (hf : Follows a owner module now tool earlier p) {roots : OutputRoots}
    (hd : owner d = none) (hask : (a.tool.outputRoots tool).value = (.ok roots, p'.scene.tool))
    (hroots : p'.roots = some roots)
    (hcp : p'.classpath = { p.classpath with
      entries := p.classpath.entries ++ d.archives.filterMap (a.finder tool roots).library? }) :
    Follows a owner module now tool (earlier ++ [d]) p' := by
  refine ⟨fun r hr => ?_, fun hr => ?_, fun r hr => ?_⟩
  · rw [hroots] at hr
    exact Option.some.inj hr ▸ hask
  · rw [hroots] at hr
    cases hr
  · have hbefore : NeedsRoots owner earlier → (a.tool.outputRoots tool).value.1 = .ok r :=
      fun hn => hr ((needsRoots_concat_iff owner earlier d).mpr (Or.inl hn))
    rw [hcp, hf.classpath r hbefore, contributions_concat, contribution_of_none _ owner module _ hd]
    by_cases ha : d.archives = []
    · simp [ha]
    · have hsame := hr ((needsRoots_concat_iff owner earlier d).mpr (Or.inr ⟨hd, ha⟩))
      rw [hask] at hsame
      cases hsame
      rfl

theorem requireRoots (hf : Follows a owner module now tool earlier p) :
    (a.requireRoots p).value.1 = (a.tool.outputRoots tool).value.1 ∧
      (a.requireRoots p).value.2.scene.tool = (a.tool.outputRoots tool).value.2 ∧
      ∀ roots, (a.tool.outputRoots tool).value.1 = .ok roots →
        (a.requireRoots p).value.2.roots = some roots ∧
        (a.requireRoots p).value.2.classpath = p.classpath := by
  cases hr : p.roots with
  | some roots =>
    have hask := hf.asked roots hr
    simp only [Assembler.requireRoots, hr, Traced.pure_value, hask]
    refine ⟨trivial, trivial, fun r hsame => ⟨?_, trivial⟩⟩
    exact congrArg some (Except.ok.inj hsame)
  | none =>
    have htool := (hf.unasked hr).1
    simp only [Assembler.requireRoots, hr, Traced.bind_value, htool]
    cases hask : (a.tool.outputRoots tool).value with
    | mk answer t =>
      cases answer with
      | error f => simp
      | ok roots => simp

/-- The archives are looked for as they are from the tool's answer on. -/
theorem finder_eq (hf : Follows a owner module now tool earlier p) {roots : OutputRoots}
    (hr : (a.requireRoots p).value = (.ok roots, p')) :
    (⟨a.files p'.scene.tool, roots, a.marker⟩ : ArchiveFinder) = a.finder tool roots := by
  have htool := hf.requireRoots.2.1
  rw [hr] at htool
  rw [finder, ← htool]

end Follows

theorem addReference_extends (module : String) (owner : Module) (p : Progression σ) :
    Extends (if p.classpath.containsModule owner.fullPath then [] else [.module owner.fullPath]) p
      (addReference module owner p).value := by
  have hvalue : (addReference module owner p).value = { p with
      classpath := p.classpath.pushModule owner.fullPath
      scene := { p.scene with
        workspace := (p.scene.workspace.ensureReference module owner.name).value.2 } } := by
    unfold addReference
    split <;> rfl
  rw [hvalue]
  refine ⟨?_, rfl, rfl⟩
  show p.classpath.pushModule owner.fullPath = _
  unfold Classpath.pushModule
  split <;> simp

theorem addArchives_follows (hf : Follows a owner module now tool earlier p) (hd : owner d = none) :
    (∀ f, (a.addArchives module d p).value.1 = some f →
      NeedsRoots owner (earlier ++ [d]) ∧ (a.tool.outputRoots tool).value.1 = .error f) ∧
    ((a.addArchives module d p).value.1 = none →
      Follows a owner module now tool (earlier ++ [d]) (a.addArchives module d p).value.2) := by
  simp only [addArchives]
  by_cases ha : d.archives = []
  · have hnone : ∀ f, contribution f owner module earlier d = [] := by
      intro f
      rw [contribution_of_none f _ module earlier hd, ha]
      rfl
    simp only [ha, List.isEmpty_nil, if_true, Traced.pure_value]
    refine ⟨fun f h => (by cases h), fun _ => ?_⟩
    exact hf.concat ⟨by simp, rfl, rfl⟩ (fun _ => ha) hnone
  · have hneeds : NeedsRoots owner (earlier ++ [d]) :=
      (needsRoots_concat_iff _ earlier d).mpr (Or.inr ⟨hd, ha⟩)
    obtain ⟨hanswer, htool, hroots⟩ := hf.requireRoots
    simp only [List.isEmpty_iff, ha, if_false, Traced.bind_value]
    cases hr : (a.requireRoots p).value with
    | mk answer p₁ =>
      rw [hr] at hanswer htool hroots
      cases answer with
      | error f =>
        refine ⟨fun g hg => ?_, fun h => (by cases h)⟩
        cases hg
        exact ⟨hneeds, hanswer.symm⟩
      | ok roots =>
        obtain ⟨hknown, hsame⟩ := hroots roots hanswer.symm
        have hpairs := addPairs_extends (a.finder tool roots) module d.label d.archives p₁
        simp only [hf.finder_eq hr]
        refine ⟨fun g hg => (by cases hg), fun _ => ?_⟩
        refine hf.concat_archives hd ?_ (hpairs.roots.trans hknown) ?_
        · exact Prod.ext hanswer.symm (htool.symm.trans hpairs.tool.symm)
        · exact hsame ▸ hpairs.classpath

variable {root : Path} {modules : List Module}

theorem addUnit_follows (hf : Follows a (ownerName root modules) module now tool earlier p) :
    (∀ f, (a.addUnit root modules module d p).value.1 = some f →
      NeedsRoots (ownerName root modules) (earlier ++ [d]) ∧
        (a.tool.outputRoots tool).value.1 = .error f) ∧
    ((a.addUnit root modules module d p).value.1 = none →
      Follows a (ownerName root modules) module now tool (earlier ++ [d])
        (a.addUnit root modules module d p).value.2) := by
  simp only [addUnit, Traced.bind_value]
  cases ho : (ownerOfSources root d.sources modules).value with
  | none =>
    have hd : ownerName root modules d = none := by
      rw [ownerName, ho]
      rfl
    exact addArchives_follows hf hd
  | some owner =>
    have hd : ownerName root modules d = some owner.name := by
      rw [ownerName, ho]
      rfl
    have hneeds : ownerName root modules d = none → d.archives = [] := by
      intro h
      rw [hd] at h
      cases h
    by_cases hm : owner.name = module
    · have hnone : ∀ f, contribution f (ownerName root modules) module earlier d = [] := by
        intro f
        rw [contribution_of_some f _ module earlier hd, if_pos (Or.inl hm)]
      simp only [hm, if_true, Traced.bind_value, Traced.pure_value]
      exact ⟨fun f h => (by cases h), fun _ => hf.concat ⟨by simp, rfl, rfl⟩ hneeds hnone⟩
    · have href : ∀ f, contribution f (ownerName root modules) module earlier d =
          if p.classpath.containsModule owner.fullPath then [] else [.module owner.fullPath] := by
        intro f
        rw [contribution_of_some f _ module earlier hd]
        simp only [hm, false_or, ← hf.containsModule_iff hm]
        rfl
      simp only [hm, if_false, Traced.bind_value, Traced.pure_value]
      refine ⟨fun f h => (by cases h), fun _ => ?_⟩
      exact hf.concat (addReference_extends module owner p) hneeds href

/- Either every dependency is behind the progression in the end, or the output roots were needed and
the tool refused them. -/
theorem addUnits_follows (l : List Dependency)
    (hf : Follows a (ownerName root modules) module now tool earlier p) :
    (∀ f, (a.addUnits root modules module l p).value.1 = some f →
      NeedsRoots (ownerName root modules) (earlier ++ l) ∧
        (a.tool.outputRoots tool).value.1 = .error f) ∧
    ((a.addUnits root modules module l p).value.1 = none →
      Follows a (ownerName root modules) module now tool (earlier ++ l)
        (a.addUnits root modules module l p).value.2) := by
  induction l generalizing earlier p with
  | nil =>
    rw [List.append_nil]
    exact ⟨fun f h => (by cases h), fun _ => hf⟩
  | cons d rest ih =>
    obtain ⟨hfail, hgo⟩ := addUnit_follows (d := d) hf
    simp only [addUnits, Traced.bind_value]
    cases hd : (a.addUnit root modules module d p).value with
    | mk answer p₁ =>
      rw [hd] at hfail hgo
      cases answer with
      | some f =>
        refine ⟨fun g hg => ?_, fun h => (by cases h)⟩
        cases hg
        obtain ⟨⟨e, he, hneeds⟩, hask⟩ := hfail f rfl
        refine ⟨⟨e, ?_, hneeds⟩, hask⟩
        rw [List.append_cons]
        exact List.mem_append_left rest he
      | none =>
        rw [List.append_cons]
        exact ih (hgo rfl)

/-! ### The whole assembly -/

theorem finish_eq_ok_iff (a : Assembler σ) (q : Query) (now : Timestamp) (s : Scene σ)
    (c : Classpath) :
    (a.finish q now s).value.1 = .ok c ↔
      ∃ metadata tool roots, (a.tool.finishQuery q.request s.tool).value = (.ok metadata, tool) ∧
        (NeedsRoots (ownerName q.root s.workspace.modules) metadata.units →
          (a.tool.outputRoots tool).value.1 = .ok roots) ∧
        c = ⟨contributions (a.finder tool roots) (ownerName q.root s.workspace.modules)
          q.request.module [] metadata.units, now⟩ := by
  simp only [finish, Traced.bind_value]
  cases hq : (a.tool.finishQuery q.request s.tool).value with
  | mk answer tool =>
    cases answer with
    | error f =>
      constructor
      · intro h
        cases h
      · rintro ⟨metadata, tool', roots, h, _⟩
        cases h
    | ok metadata =>
      have hbegun := Follows.start a (ownerName q.root s.workspace.modules) q.request.module now
        { s with tool }
      obtain ⟨hfail, hgo⟩ := addUnits_follows metadata.units hbegun
      simp only [Traced.bind_value]
      cases hu : (a.addUnits q.root s.workspace.modules q.request.module metadata.units
          ⟨{ s with tool }, .empty now, none, false⟩).value with
      | mk answer p =>
        rw [hu] at hfail hgo
        cases answer with
        | some f =>
          obtain ⟨hneeds, hask⟩ := hfail f rfl
          constructor
          · intro h
            cases h
          · rintro ⟨metadata', tool', roots, h, hroots, _⟩
            cases h
            rw [hroots hneeds] at hask
            cases hask
        | none =>
          have hf := hgo rfl
          constructor
          · intro h
            cases h
            obtain ⟨roots, hroots⟩ := hf.exists_roots
            exact ⟨metadata, tool, roots, rfl, hroots, hf.classpath roots hroots⟩
          · rintro ⟨metadata', tool', roots, h, hroots, rfl⟩
            cases h
            exact congrArg Except.ok (hf.classpath roots hroots)

end Buildpath.Assembler
