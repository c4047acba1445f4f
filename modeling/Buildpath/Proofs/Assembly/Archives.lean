import Buildpath.Resolve.Assembly

/-!
# What an archive pair contributes

A declared reference that can be a path has a place: below its root, at the end of the link if there
is a link that leads somewhere. Whether anything is there does not matter. A pair contributes a
library if its primary reference has a place; the sources reference only adds its place, if it has
one.
-/

namespace Buildpath

namespace ArchiveFinder

variable (f : ArchiveFinder)

/-- The reference is not blank and can be a path. -/
def WellFormed (declared : String) : Prop :=
  Text.trim declared.toList ≠ [] ∧ '\x00' ∉ Text.trim declared.toList

instance (declared : String) : Decidable (WellFormed declared) :=
  inferInstanceAs (Decidable (_ ∧ _))

/-- The path below its root that a reference spells. -/
def spelled (declared : String) : Path :=
  let reference : Path := ⟨Text.trim declared.toList⟩
  (f.rootFor reference).join reference

/-- The end of the link, if the path is a link that leads somewhere; the path itself otherwise. -/
def linkEnd (p : Path) : Path :=
  match f.files.isLink p, f.files.resolve p with
  | true, .ok target => target
  | _, _ => p

/-- The place of a reference that is declared and well formed. -/
def place? : Option String → Option Path
  | none => none
  | some declared => if WellFormed declared then some (f.linkEnd (f.spelled declared)) else none

/-- The library of a pair. -/
def library? (pair : ArchivePair) : Option Entry :=
  (f.place? pair.primary).map fun archive => .library archive (f.place? pair.sources)

theorem pathOf_of_wellFormed {declared : String} (h : WellFormed declared) :
    f.pathOf declared = .ok (f.spelled declared) := by
  unfold pathOf spelled
  simp [h.1, h.2]

theorem pathOf_of_not_wellFormed {declared : String} (h : ¬ WellFormed declared) :
    ∃ e : ReferenceError, e.declared = declared ∧
      (e.fault = .blank ↔ Text.trim declared.toList = []) ∧ f.pathOf declared = .error e := by
  unfold pathOf
  by_cases hb : Text.trim declared.toList = []
  · exact ⟨⟨declared, .blank⟩, rfl, by simp [hb], by simp [hb]⟩
  · have hn : '\x00' ∈ Text.trim declared.toList := Decidable.not_not.mp fun hn => h ⟨hb, hn⟩
    exact ⟨⟨declared, .holdsNul⟩, rfl, by simp [hb], by simp [hb, hn]⟩

theorem path_probe (p : Path) : (f.probe p).value.path = f.linkEnd p := by
  unfold probe linkEnd
  cases hl : f.files.isLink p with
  | true =>
    cases hr : f.files.resolve p with
    | ok target => simp
    | error e => simp
  | false =>
    cases ht : f.files.isThere p with
    | true => simp
    | false => simp

theorem place?_some (declared : String) :
    f.place? (some declared) =
      if WellFormed declared then some (f.linkEnd (f.spelled declared)) else none := rfl

theorem locate_value (declared : String) :
    (f.locate declared).value.toOption.map (·.path) = f.place? (some declared) := by
  rw [place?_some, locate]
  by_cases h : WellFormed declared
  · rw [pathOf_of_wellFormed f h, if_pos h]
    simp [Except.toOption, path_probe]
  · obtain ⟨e, -, -, he⟩ := pathOf_of_not_wellFormed f h
    rw [he, if_neg h]
    rfl

end ArchiveFinder

namespace Assembler

variable {σ : Type} (f : ArchiveFinder)

theorem locateSources_value (declared : Option String) :
    (locateSources f declared).value = f.place? declared := by
  cases declared with
  | none => rfl
  | some declared =>
    rw [← f.locate_value declared]
    simp only [locateSources, Traced.bind_value]
    cases hl : (f.locate declared).value with
    | ok located => rfl
    | error e => rfl

theorem locatePair_value (pair : ArchivePair) :
    (locatePair f pair).value.map (fun (primary, sources) => Entry.library primary.path sources) =
      f.library? pair := by
  unfold locatePair ArchiveFinder.library?
  cases hp : pair.primary with
  | none => rfl
  | some declared =>
    rw [← f.locate_value declared]
    simp only [Traced.bind_value]
    cases hl : (f.locate declared).value with
    | error e => rfl
    | ok primary =>
      simp only [Traced.bind_value, Traced.pure_value, locateSources_value]
      rfl

/-- The progression with more entries; nothing else is looked at. -/
structure Extends (entries : List Entry) (p p' : Progression σ) : Prop where
  classpath : p'.classpath = { p.classpath with entries := p.classpath.entries ++ entries }
  roots : p'.roots = p.roots
  tool : p'.scene.tool = p.scene.tool

theorem addPair_extends (module label : String) (pair : ArchivePair) (p : Progression σ) :
    Extends (f.library? pair).toList p (addPair f module label pair p).value := by
  rw [← locatePair_value f pair]
  simp only [addPair, Traced.bind_value]
  cases hl : (locatePair f pair).value with
  | none => exact ⟨by simp, rfl, rfl⟩
  | some found =>
    obtain ⟨primary, sources⟩ := found
    cases hp : primary.present with
    | true =>
      simp only [hp, Bool.not_true, Bool.false_eq_true, if_false]
      exact ⟨rfl, rfl, rfl⟩
    | false =>
      simp only [hp, Bool.not_false, if_true]
      exact ⟨rfl, rfl, rfl⟩

theorem addPairs_extends (module label : String) (pairs : List ArchivePair) (p : Progression σ) :
    Extends (pairs.filterMap f.library?) p (addPairs f module label pairs p).value := by
  induction pairs generalizing p with
  | nil => exact ⟨by simp [addPairs], rfl, rfl⟩
  | cons pair rest ih =>
    have hpair := addPair_extends f module label pair p
    have hrest := ih (addPair f module label pair p).value
    refine ⟨?_, hrest.roots.trans hpair.roots, hrest.tool.trans hpair.tool⟩
    show (addPairs f module label rest (addPair f module label pair p).value).value.classpath = _
    rw [hrest.classpath, hpair.classpath]
    cases hlib : f.library? pair <;> simp [hlib]

end Assembler

end Buildpath
