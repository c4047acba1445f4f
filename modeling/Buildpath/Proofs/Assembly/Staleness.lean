import Buildpath.Proofs.Assembly.References

/-!
# When metadata is stale

An archive is missed when it is not declared, when its reference cannot be a path, and when nothing
is at its place. The loop over the dependencies ends with stale metadata exactly if a dependency
that no module owns misses an archive (`stale_addUnits`); what is owned and the archives with
sources have no part in it. A tool that keeps its state when it is asked for the output roots is
left alone by the loop (`tool_addUnits`).
-/

namespace Buildpath.Assembler

variable {σ : Type}

/-- There is no archive of the pair. -/
def misses (f : ArchiveFinder) (pair : ArchivePair) : Bool :=
  (locatePair f pair).value.all fun (primary, _) => !primary.present

/-- The dependency is owned by nobody and misses an archive. -/
def missesArchive (f : ArchiveFinder) (owner : Dependency → Option String) (d : Dependency) : Bool :=
  (owner d).isNone && d.archives.any (misses f)

theorem stale_addPair (f : ArchiveFinder) (module label : String) (pair : ArchivePair)
    (p : Progression σ) :
    (addPair f module label pair p).value.stale = (p.stale || misses f pair) := by
  simp only [addPair, misses, Traced.bind_value]
  cases hl : (locatePair f pair).value with
  | none => simp
  | some found =>
    obtain ⟨primary, sources⟩ := found
    cases hp : primary.present <;> simp [hp]

theorem stale_addPairs (f : ArchiveFinder) (module label : String) (pairs : List ArchivePair)
    (p : Progression σ) :
    (addPairs f module label pairs p).value.stale = (p.stale || pairs.any (misses f)) := by
  induction pairs generalizing p with
  | nil => simp [addPairs]
  | cons pair rest ih =>
    have hrest := ih (addPair f module label pair p).value
    rw [stale_addPair, Bool.or_assoc] at hrest
    exact hrest

theorem stale_addReference (module : String) (owner : Module) (p : Progression σ) :
    (addReference module owner p).value.stale = p.stale := by
  unfold addReference
  split <;> rfl

theorem stale_requireRoots (a : Assembler σ) (p : Progression σ) :
    (a.requireRoots p).value.2.stale = p.stale := by
  unfold requireRoots
  cases hr : p.roots with
  | some roots => rfl
  | none =>
    simp only [Traced.bind_value]
    cases ha : (a.tool.outputRoots p.scene.tool).value with
    | mk answer tool => cases answer <;> rfl

/-- The staleness of a progression is that of the dependencies behind it. -/
def Shows (a : Assembler σ) (owner : Dependency → Option String) (tool : σ)
    (earlier : List Dependency) (p : Progression σ) : Prop :=
  ∀ roots, (NeedsRoots owner earlier → (a.tool.outputRoots tool).value.1 = .ok roots) →
    p.stale = earlier.any (missesArchive (a.finder tool roots) owner)

variable {a : Assembler σ} {owner : Dependency → Option String} {module : String} {now : Timestamp}
  {tool : σ} {earlier : List Dependency} {p p' : Progression σ} {d : Dependency}

/-- A dependency that misses no archive, whatever the output roots are. -/
theorem Shows.concat (hs : Shows a owner tool earlier p) (hp : p'.stale = p.stale)
    (hd : ∀ f, missesArchive f owner d = false) : Shows a owner tool (earlier ++ [d]) p' := by
  intro roots hr
  have hbefore := hs roots fun hn => hr ((needsRoots_concat_iff owner earlier d).mpr (Or.inl hn))
  simp [hp, hbefore, hd]

theorem shows_addArchives (hf : Follows a owner module now tool earlier p)
    (hs : Shows a owner tool earlier p) (hd : owner d = none)
    (hgo : (a.addArchives module d p).value.1 = none) :
    Shows a owner tool (earlier ++ [d]) (a.addArchives module d p).value.2 := by
  revert hgo
  simp only [addArchives]
  by_cases ha : d.archives = []
  · simp only [ha, List.isEmpty_nil, if_true, Traced.pure_value]
    intro _
    exact hs.concat rfl fun f => by simp [missesArchive, ha]
  · obtain ⟨hanswer, -⟩ := hf.requireRoots
    have hstale := stale_requireRoots a p
    simp only [List.isEmpty_iff, ha, if_false, Traced.bind_value]
    cases hr : (a.requireRoots p).value with
    | mk answer p₁ =>
      rw [hr] at hanswer hstale
      cases answer with
      | error f =>
        intro h
        cases h
      | ok roots =>
        intro _ roots' hroots'
        -- The roots that were asked for are those of the statement.
        have hsame := hroots' ((needsRoots_concat_iff owner earlier d).mpr (Or.inr ⟨hd, ha⟩))
        rw [← hanswer] at hsame
        cases hsame
        have hbefore := hs roots fun hn =>
          hroots' ((needsRoots_concat_iff owner earlier d).mpr (Or.inl hn))
        have hstart : p₁.stale = earlier.any _ := hstale.trans hbefore
        simp only [hf.finder_eq hr, Traced.bind_value, Traced.pure_value, stale_addPairs, hstart, List.any_append,
          List.any_cons, List.any_nil, Bool.or_false, missesArchive, hd, Option.isNone_none,
          Bool.true_and]

variable {root : Path} {modules : List Module}

theorem shows_addUnit (hf : Follows a (ownerName root modules) module now tool earlier p)
    (hs : Shows a (ownerName root modules) tool earlier p)
    (hgo : (a.addUnit root modules module d p).value.1 = none) :
    Shows a (ownerName root modules) tool (earlier ++ [d])
      (a.addUnit root modules module d p).value.2 := by
  revert hgo
  simp only [addUnit, Traced.bind_value]
  cases ho : (ownerOfSources root d.sources modules).value with
  | none =>
    have hd : ownerName root modules d = none := by
      rw [ownerName, ho]
      rfl
    exact shows_addArchives hf hs hd
  | some owner =>
    have hd : ∀ f, missesArchive f (ownerName root modules) d = false := by
      intro f
      simp [missesArchive, ownerName, ho]
    by_cases hm : owner.name = module
    · simp only [hm, if_true, Traced.bind_value, Traced.pure_value]
      exact fun _ => hs.concat rfl hd
    · simp only [hm, if_false, Traced.bind_value, Traced.pure_value]
      exact fun _ => hs.concat (stale_addReference module owner p) hd

theorem stale_addUnits (l : List Dependency)
    (hf : Follows a (ownerName root modules) module now tool earlier p)
    (hs : Shows a (ownerName root modules) tool earlier p)
    (hgo : (a.addUnits root modules module l p).value.1 = none) :
    Shows a (ownerName root modules) tool (earlier ++ l)
      (a.addUnits root modules module l p).value.2 := by
  induction l generalizing earlier p with
  | nil =>
    rw [List.append_nil]
    exact hs
  | cons d rest ih =>
    have hfollows := (addUnit_follows (d := d) hf).2
    have hshows := shows_addUnit (d := d) hf hs
    revert hgo
    simp only [addUnits, Traced.bind_value]
    cases hd : (a.addUnit root modules module d p).value with
    | mk answer p₁ =>
      rw [hd] at hfollows hshows
      cases answer with
      | some f =>
        intro h
        cases h
      | none =>
        rw [List.append_cons]
        exact ih (hfollows rfl) (hshows rfl)

/-! ### The tool -/

section

variable (hkeep : ∀ t, (a.tool.outputRoots t).value.2 = t)

include hkeep

theorem tool_requireRoots (p : Progression σ) :
    (a.requireRoots p).value.2.scene.tool = p.scene.tool := by
  unfold requireRoots
  cases hr : p.roots with
  | some roots => rfl
  | none =>
    have hsame := hkeep p.scene.tool
    simp only [Traced.bind_value]
    cases ha : (a.tool.outputRoots p.scene.tool).value with
    | mk answer tool =>
      rw [ha] at hsame
      cases answer <;> exact hsame

theorem tool_addUnit (root : Path) (modules : List Module) (module : String) (d : Dependency)
    (p : Progression σ) : (a.addUnit root modules module d p).value.2.scene.tool = p.scene.tool := by
  simp only [addUnit, Traced.bind_value]
  cases ho : (ownerOfSources root d.sources modules).value with
  | none =>
    have hroots := tool_requireRoots hkeep p
    simp only [addArchives]
    split
    · rfl
    · simp only [Traced.bind_value]
      cases hr : (a.requireRoots p).value with
      | mk answer p₁ =>
        rw [hr] at hroots
        cases answer with
        | error f => exact hroots
        | ok roots =>
          simp only [Traced.bind_value, Traced.pure_value, scene_addPairs]
          exact hroots
  | some owner =>
    by_cases hm : owner.name = module
    · simp [hm]
    · simp only [hm, if_false, Traced.bind_value, Traced.pure_value]
      exact (addReference_extends module owner p).tool

theorem tool_addUnits (root : Path) (modules : List Module) (module : String)
    (l : List Dependency) (p : Progression σ) :
    (a.addUnits root modules module l p).value.2.scene.tool = p.scene.tool := by
  induction l generalizing p with
  | nil => rfl
  | cons d rest ih =>
    have hd := tool_addUnit hkeep root modules module d p
    simp only [addUnits, Traced.bind_value]
    cases hu : (a.addUnit root modules module d p).value with
    | mk answer p₁ =>
      rw [hu] at hd
      cases answer with
      | some f => exact hd
      | none => exact (ih p₁).trans hd

end

end Buildpath.Assembler
