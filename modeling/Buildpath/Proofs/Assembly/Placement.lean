import Buildpath.Proofs.Assembly.Staleness

/-!
# Archives that have a place

A pair whose primary reference is declared and well formed is placed: its archive has a path, and is
there or absent. Every placed pair becomes a library, and each one whose archive is absent is
reported, in the same order (`events_addPairs`). A pair misses its archive if it is not placed or
its archive is absent (`misses_iff`). Sources only ever add a path.
-/

namespace Buildpath

/-- A pair whose archive has a place. -/
structure Placed where
  archive : Located
  sources : Option Path
deriving DecidableEq, Repr

namespace Placed

def library (p : Placed) : Entry :=
  .library p.archive.path p.sources

/-- The event that reports the archive as absent. -/
def notice (module : String) (p : Placed) : Progress :=
  .archiveMissing module p.archive.path.toString

/-- The events that report the absent archives. -/
def notices (module : String) (l : List Placed) : List Progress :=
  (l.filter (!·.archive.present)).map (notice module)

@[simp] theorem notices_nil (module : String) : notices module [] = [] := rfl

@[simp] theorem notices_append (module : String) (l k : List Placed) :
    notices module (l ++ k) = notices module l ++ notices module k := by
  simp [notices]

end Placed

/-- The libraries of a classpath. -/
def Classpath.libraries (c : Classpath) : List Entry :=
  c.entries.filter fun e => e.modulePath?.isNone

namespace ArchiveFinder

variable (f : ArchiveFinder)

/-- Whether nothing is at the path. A link has to lead somewhere. -/
def isAbsent (p : Path) : Bool :=
  if f.files.isLink p then (f.files.resolve p).toOption.isNone else !f.files.isThere p

/-- The archive of a reference that is declared and well formed. -/
def archive? : Option String → Option Located
  | none => none
  | some declared =>
    if WellFormed declared then
      some ⟨f.linkEnd (f.spelled declared), !f.isAbsent (f.spelled declared)⟩
    else none

def placed? (pair : ArchivePair) : Option Placed :=
  (f.archive? pair.primary).map fun archive => ⟨archive, f.place? pair.sources⟩

theorem place?_eq (declared : Option String) :
    f.place? declared = (f.archive? declared).map (·.path) := by
  cases declared with
  | none => rfl
  | some declared =>
    simp only [place?, archive?]
    split <;> rfl

theorem library?_eq (pair : ArchivePair) : f.library? pair = (f.placed? pair).map Placed.library := by
  rw [library?, f.place?_eq pair.primary, placed?, Option.map_map, Option.map_map]
  rfl

theorem probe_value (p : Path) : (f.probe p).value = ⟨f.linkEnd p, !f.isAbsent p⟩ := by
  unfold probe linkEnd isAbsent
  cases hl : f.files.isLink p with
  | true => cases hr : f.files.resolve p <;> simp [Except.toOption]
  | false => cases ht : f.files.isThere p <;> simp

theorem events_probe (p : Path) : (f.probe p).events = [] := by
  unfold probe
  split
  · split <;> rfl
  · split <;> rfl

theorem locate_toOption (declared : String) :
    (f.locate declared).value.toOption = f.archive? (some declared) := by
  rw [locate, archive?]
  by_cases h : WellFormed declared
  · rw [pathOf_of_wellFormed f h, if_pos h]
    simp [Except.toOption, probe_value]
  · obtain ⟨e, -, -, he⟩ := pathOf_of_not_wellFormed f h
    rw [he, if_neg h]
    rfl

theorem events_locate (declared : String) : (f.locate declared).events = [] := by
  unfold locate
  split
  · rfl
  · simp [events_probe]

end ArchiveFinder

namespace Assembler

variable {σ : Type} (f : ArchiveFinder)

theorem locatePair_eq_placed? (pair : ArchivePair) :
    (locatePair f pair).value.map (fun (archive, sources) => Placed.mk archive sources) =
      f.placed? pair := by
  unfold locatePair ArchiveFinder.placed?
  cases hp : pair.primary with
  | none => rfl
  | some declared =>
    rw [← f.locate_toOption declared]
    simp only [Traced.bind_value]
    cases hl : (f.locate declared).value with
    | error e => rfl
    | ok archive =>
      simp only [Traced.bind_value, Traced.pure_value, locateSources_value]
      rfl

theorem events_locateSources (declared : Option String) :
    (locateSources f declared).events = [] := by
  cases declared with
  | none => rfl
  | some declared =>
    simp only [locateSources, Traced.events_bind, f.events_locate]
    split <;> rfl

theorem events_locatePair (pair : ArchivePair) : (locatePair f pair).events = [] := by
  unfold locatePair
  cases hp : pair.primary with
  | none => rfl
  | some declared =>
    simp only [Traced.events_bind, f.events_locate]
    split
    · rfl
    · simp [events_locateSources]

/-- An archive is missed if it is not declared, if its reference is malformed, or if nothing is at its
path. -/
theorem misses_iff (pair : ArchivePair) :
    misses f pair = true ↔ pair.primary = none ∨ ∃ declared, pair.primary = some declared ∧
      (¬ ArchiveFinder.WellFormed declared ∨ f.isAbsent (f.spelled declared) = true) := by
  have hplaced : misses f pair = (f.placed? pair).all (!·.archive.present) := by
    rw [← locatePair_eq_placed?, misses, Option.all_map]
  rw [hplaced, ArchiveFinder.placed?]
  cases hp : pair.primary with
  | none => simp [ArchiveFinder.archive?]
  | some declared =>
    by_cases h : ArchiveFinder.WellFormed declared <;> simp [ArchiveFinder.archive?, h]

theorem events_addPair (module label : String) (pair : ArchivePair) (p : Progression σ) :
    (addPair f module label pair p).events =
      Placed.notices module (f.placed? pair).toList := by
  rw [← locatePair_eq_placed?]
  simp only [addPair, Traced.events_bind, events_locatePair, List.nil_append]
  cases hl : (locatePair f pair).value with
  | none => rfl
  | some found =>
    obtain ⟨archive, sources⟩ := found
    cases hp : archive.present <;> simp [hp, Placed.notices, Placed.notice]

/-- The absent archives are reported, one event for each library, and nothing else is. -/
theorem events_addPairs (module label : String) (pairs : List ArchivePair) (p : Progression σ) :
    (addPairs f module label pairs p).events =
      Placed.notices module (pairs.filterMap f.placed?) := by
  induction pairs generalizing p with
  | nil => rfl
  | cons pair rest ih =>
    simp only [addPairs, Traced.events_bind, events_addPair, ih, ← Placed.notices_append]
    cases hp : f.placed? pair <;> simp [hp]

/-! ### The archives of dependencies -/

variable (owner : Dependency → Option String)

/-- The placed pairs of the dependencies that no module owns. -/
def placements (l : List Dependency) : List Placed :=
  (l.filter fun d => (owner d).isNone).flatMap fun d => d.archives.filterMap f.placed?

@[simp] theorem placements_nil : placements f owner [] = [] := rfl

theorem placements_cons_of_none {d : Dependency} (h : owner d = none) (l : List Dependency) :
    placements f owner (d :: l) = d.archives.filterMap f.placed? ++ placements f owner l := by
  simp [placements, h]

theorem placements_cons_of_some {d : Dependency} {o : String} (h : owner d = some o)
    (l : List Dependency) : placements f owner (d :: l) = placements f owner l := by
  simp [placements, h]

theorem placements_cons (d : Dependency) (l : List Dependency) :
    placements f owner (d :: l) = placements f owner [d] ++ placements f owner l := by
  cases hd : owner d <;> simp [placements, hd]

theorem placements_of_settled {l : List Dependency} (h : ¬ NeedsRoots owner l) :
    placements f owner l = [] := by
  simp only [placements, List.flatMap_eq_nil_iff, List.mem_filter, Option.isNone_iff_eq_none]
  rintro d ⟨hd, hnone⟩
  have hbare : d.archives = [] := Decidable.not_not.mp fun ha => h ⟨d, hd, hnone, ha⟩
  rw [hbare]
  rfl

theorem nothing_missed_of_settled {l : List Dependency} (h : ¬ NeedsRoots owner l) :
    l.any (missesArchive f owner) = false := by
  rw [List.any_eq_false]
  intro d hd hmissed
  obtain ⟨hnone, hany⟩ : (owner d).isNone = true ∧ d.archives.any (misses f) = true := by
    simpa [missesArchive] using hmissed
  obtain ⟨pair, hpair, -⟩ := List.any_eq_true.mp hany
  exact h ⟨d, hd, Option.isNone_iff_eq_none.mp hnone, List.ne_nil_of_mem hpair⟩

theorem libraries_contributions (module : String) (earlier l : List Dependency) :
    (contributions f owner module earlier l).filter (fun e => e.modulePath?.isNone) =
      (placements f owner l).map Placed.library := by
  induction l generalizing earlier with
  | nil => rfl
  | cons d rest ih =>
    rw [contributions, List.filter_append, ih]
    cases hd : owner d with
    | none =>
      have hlibraries : d.archives.filterMap f.library? =
          (d.archives.filterMap f.placed?).map Placed.library := by
        rw [List.map_filterMap]
        exact congrArg (List.filterMap · d.archives) (funext f.library?_eq)
      rw [contribution_of_none f owner module earlier hd, placements_cons_of_none f owner hd,
        List.map_append, hlibraries, List.filter_eq_self.mpr]
      intro e he
      obtain ⟨p, -, rfl⟩ := List.mem_map.mp he
      rfl
    | some o =>
      have hnone : (contribution f owner module earlier d).filter
          (fun e => e.modulePath?.isNone) = [] := by
        rw [contribution_of_some f owner module earlier hd]
        split <;> rfl
      rw [hnone, placements_cons_of_some f owner hd, List.nil_append]

end Assembler

end Buildpath
