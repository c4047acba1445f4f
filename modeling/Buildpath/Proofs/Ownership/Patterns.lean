import Buildpath.Workspace.Ownership

/-!
# What the patterns of a source root decide

A source root owns a file below it if no exclusion pattern covers what is left of the path and, where
there are inclusion patterns, one of them does (`SourceRoot.owns_value_iff`). So the lists count as
sets of those patterns that can be read (`SourceRoot.owns_mono`): exclusions only take files away and
win over inclusions, inclusions only add files once there is one, and it is the first inclusion that
takes files away, because no inclusions at all mean everything
(`SourceRoot.exclusion_dominates_inclusion`).
-/

namespace Buildpath

namespace SourceRoot

/-! ### Patterns -/

/-- The pattern, with what a trailing slash stands for, follows the rules for patterns. -/
def Readable (pattern : String) : Prop :=
  ∃ tokens, Glob.parse (expandPattern pattern) = .ok tokens

/-- The pattern can be read and matches the path below the root. -/
def Covers (pattern : String) (relative : Path) : Prop :=
  ∃ tokens, Glob.parse (expandPattern pattern) = .ok tokens ∧
    Glob.isMatch tokens relative.chars = true

theorem Covers.readable {pattern : String} {relative : Path} (h : Covers pattern relative) :
    Readable pattern := by
  obtain ⟨tokens, ht, -⟩ := h
  exact ⟨tokens, ht⟩

theorem matchesPattern_value_iff {pattern : String} {relative : Path} :
    (matchesPattern relative pattern).value = true ↔ Covers pattern relative := by
  unfold matchesPattern Covers
  cases Glob.parse (expandPattern pattern) with
  | ok tokens => simp
  | error e => simp

instance (pattern : String) (relative : Path) : Decidable (Covers pattern relative) :=
  decidable_of_iff _ matchesPattern_value_iff

instance (pattern : String) : Decidable (Readable pattern) :=
  match h : Glob.parse (expandPattern pattern) with
  | .ok tokens => isTrue ⟨tokens, h⟩
  | .error _ => isFalse fun ⟨_, ht⟩ => by rw [h] at ht; cases ht

/-! ### Roots -/

theorem admits_value_iff {r : SourceRoot} {relative : Path} :
    (r.admits relative).value = true ↔
      (∀ p ∈ r.excluded, ¬ Covers p relative) ∧
        (r.included = [] ∨ ∃ p ∈ r.included, Covers p relative) := by
  have hany : ∀ l : List String, (Traced.any (matchesPattern relative) l).value = true ↔
      ∃ p ∈ l, Covers p relative := by
    intro l
    simp only [Traced.any_value, List.any_eq_true, matchesPattern_value_iff]
  unfold admits
  rw [Traced.bind_value]
  by_cases he : ∃ p ∈ r.excluded, Covers p relative
  · have hnot : ¬ ∀ p ∈ r.excluded, ¬ Covers p relative := fun h =>
      he.elim fun p hp => h p hp.1 hp.2
    simp [(hany _).mpr he, hnot]
  · have hfalse : (Traced.any (matchesPattern relative) r.excluded).value = false :=
      Bool.eq_false_iff.mpr fun h => he ((hany _).mp h)
    rw [and_iff_right fun p hp hc => he ⟨p, hp, hc⟩]
    by_cases hi : r.included = []
    · simp [hfalse, hi]
    · simp [hfalse, hi, hany]

theorem owns_value_iff {r : SourceRoot} {file : Path} :
    (r.owns file).value = true ↔ ∃ relative, r.path.below? file = some relative ∧
      (∀ p ∈ r.excluded, ¬ Covers p relative) ∧
      (r.included = [] ∨ ∃ p ∈ r.included, Covers p relative) := by
  unfold owns
  cases r.path.below? file with
  | none => simp
  | some relative => simp [admits_value_iff]

/-- Of two roots of one path, the one with fewer exclusions and more inclusions owns more files. Only
patterns that can be read count, except that any inclusion makes the inclusions matter. -/
theorem owns_mono {r s : SourceRoot} {file : Path} (hpath : s.path = r.path)
    (hexcluded : ∀ p ∈ s.excluded, Readable p → p ∈ r.excluded)
    (hincluded : s.included = [] ∨
      r.included ≠ [] ∧ ∀ p ∈ r.included, Readable p → p ∈ s.included)
    (h : (r.owns file).value = true) : (s.owns file).value = true := by
  obtain ⟨relative, hbelow, hout, hin⟩ := owns_value_iff.mp h
  refine owns_value_iff.mpr ⟨relative, hpath ▸ hbelow, fun p hp hc => ?_, ?_⟩
  · exact hout p (hexcluded p hp hc.readable) hc
  · rcases hincluded with hnone | ⟨hsome, hmore⟩
    · exact Or.inl hnone
    · rcases hin with hnone | ⟨p, hp, hc⟩
      · exact absurd hnone hsome
      · exact Or.inr ⟨p, hmore p hp hc.readable, hc⟩

/-- The order of the patterns does not matter, nor how often one is there, nor which exclusions
cannot be read. -/
theorem owns_congr {r s : SourceRoot} (file : Path) (hpath : s.path = r.path)
    (hexcluded : ∀ p, Readable p → (p ∈ s.excluded ↔ p ∈ r.excluded))
    (hincluded : ∀ p, p ∈ s.included ↔ p ∈ r.included) :
    (s.owns file).value = (r.owns file).value := by
  have hempty : s.included = [] ↔ r.included = [] := by
    simp only [List.eq_nil_iff_forall_not_mem, hincluded]
  rw [Bool.eq_iff_iff]
  constructor
  · refine owns_mono hpath.symm (fun p hp hr => (hexcluded p hr).mpr hp) ?_
    by_cases h : r.included = []
    · exact Or.inl h
    · exact Or.inr ⟨fun hs => h (hempty.mp hs), fun p hp _ => (hincluded p).mp hp⟩
  · refine owns_mono hpath (fun p hp hr => (hexcluded p hr).mp hp) ?_
    by_cases h : s.included = []
    · exact Or.inl h
    · exact Or.inr ⟨fun hr => h (hempty.mpr hr), fun p hp _ => (hincluded p).mpr hp⟩

/-- The root has an exclusion pattern that covers the file. -/
def Excludes (r : SourceRoot) (file : Path) : Prop :=
  ∃ relative, r.path.below? file = some relative ∧ ∃ p ∈ r.excluded, Covers p relative

theorem owns_value_of_excludes {r : SourceRoot} {file : Path} (h : r.Excludes file) :
    (r.owns file).value = false := by
  obtain ⟨relative, hbelow, p, hp, hc⟩ := h
  rw [Bool.eq_false_iff]
  intro howns
  obtain ⟨relative', hbelow', hout, -⟩ := owns_value_iff.mp howns
  rw [hbelow] at hbelow'
  cases hbelow'
  exact hout p hp hc

end SourceRoot

namespace Module

theorem owns_value_iff {m : Module} {file : Path} :
    (m.owns file).value = true ↔ ∃ r ∈ m.sourceRoots, (r.owns file).value = true := by
  unfold owns
  rw [Traced.any_value, List.any_eq_true]

/-- A root that does not own the file has no part in what its module owns. -/
theorem owns_without_root {m : Module} {file : Path} {before after : List SourceRoot}
    {r : SourceRoot} (hroots : m.sourceRoots = before ++ r :: after)
    (h : (r.owns file).value = false) :
    (m.owns file).value = (({ m with sourceRoots := before ++ after } : Module).owns file).value := by
  unfold owns
  simp [Traced.any_value, hroots, h]

end Module

namespace SourceRoot

/-- One more pattern in a list of a root. An exclusion never makes the root own another file, and
makes no difference if it cannot be read. An inclusion beside others never makes it lose a file; the
first inclusion never makes it gain one, and if it cannot be read nothing is left. Lists with the same
members decide alike. A file that an exclusion covers is not owned through this root whatever the
inclusions are; whether the module owns it is up to the other roots. -/
theorem exclusion_dominates_inclusion (r : SourceRoot) (file : Path) (pattern : String) :
    (∀ before after, r.excluded = before ++ after →
      let s : SourceRoot := { r with excluded := before ++ pattern :: after }
      ((s.owns file).value = true → (r.owns file).value = true) ∧
        (¬ Readable pattern → (s.owns file).value = (r.owns file).value)) ∧
    (∀ before after, r.included = before ++ after → r.included ≠ [] →
      let s : SourceRoot := { r with included := before ++ pattern :: after }
      (r.owns file).value = true → (s.owns file).value = true) ∧
    (r.included = [] →
      let s : SourceRoot := { r with included := [pattern] }
      ((s.owns file).value = true → (r.owns file).value = true) ∧
        (¬ Readable pattern → (s.owns file).value = false)) ∧
    (∀ included excluded, (∀ p, p ∈ included ↔ p ∈ r.included) →
      (∀ p, p ∈ excluded ↔ p ∈ r.excluded) →
      let s : SourceRoot := { r with included, excluded }
      (s.owns file).value = (r.owns file).value) ∧
    (∀ relative, r.path.below? file = some relative → pattern ∈ r.excluded →
      Covers pattern relative →
      (∀ included, (({ r with included } : SourceRoot).owns file).value = false) ∧
      ∀ (m : Module) (before after : List SourceRoot), m.sourceRoots = before ++ r :: after →
        ((m.owns file).value = true ↔ ∃ other ∈ before ++ after, (other.owns file).value = true)) := by
  refine ⟨fun before after hr => ⟨?_, fun hbad => ?_⟩, fun before after hr hne => ?_,
    fun hr => ⟨?_, fun hbad => ?_⟩, fun included excluded hi he => ?_,
    fun relative hbelow hp hc => ⟨fun included => ?_, fun m before after hm => ?_⟩⟩
  · refine owns_mono rfl (fun p hp _ => ?_) ?_
    · rw [hr] at hp
      exact List.mem_append.mpr ((List.mem_append.mp hp).imp_right (List.mem_cons_of_mem pattern))
    · by_cases hi : r.included = []
      · exact Or.inl hi
      · exact Or.inr ⟨hi, fun p hp _ => hp⟩
  · refine owns_congr file rfl (fun p hp => ?_) fun p => Iff.rfl
    have hne : p ≠ pattern := fun heq => hbad (heq ▸ hp)
    simp [hr, hne]
  · refine owns_mono rfl (fun p hp _ => hp) (Or.inr ⟨hne, fun p hp _ => ?_⟩)
    rw [hr] at hp
    exact List.mem_append.mpr ((List.mem_append.mp hp).imp_right (List.mem_cons_of_mem pattern))
  · exact owns_mono rfl (fun p hp _ => hp) (Or.inl hr)
  · rw [Bool.eq_false_iff]
    intro howns
    obtain ⟨relative, -, -, hin⟩ := owns_value_iff.mp howns
    rcases hin with hnone | ⟨p, hp, hc⟩
    · cases hnone
    · rw [List.mem_singleton.mp hp] at hc
      exact hbad hc.readable
  · exact owns_congr file rfl (fun p _ => he p) hi
  · exact owns_value_of_excludes ⟨relative, hbelow, pattern, hp, hc⟩
  · have hfalse : (r.owns file).value = false :=
      owns_value_of_excludes ⟨relative, hbelow, pattern, hp, hc⟩
    rw [Module.owns_without_root hm hfalse, Module.owns_value_iff]

/-- A root of which one folder is left to others. -/
def partedRoot : SourceRoot :=
  ⟨.ofString "/ws/lib", ["src/**/*.code"], ["src/gen/"]⟩

theorem exclusion_dominates_inclusion_of_parted :
    let file : Path := .ofString "/ws/lib/src/gen/G.code"
    let plain : Path := .ofString "/ws/lib/src/A.code"
    let other : SourceRoot := ⟨.ofString "/ws/lib/src/gen", [], []⟩
    let m : Module := ⟨"lib", .ofString "/ws/lib", [partedRoot, other], []⟩
    (partedRoot.owns plain).value = true ∧
      (({ partedRoot with excluded := ["src/[", "src/gen/"] } : SourceRoot).owns plain).value =
        true ∧
      (({ partedRoot with included := ["src/**/*.code", "doc/*"] } : SourceRoot).owns plain).value =
        true ∧
      (({ partedRoot with included := ["src/**/*.code", "src/**/*.code"] } : SourceRoot).owns
        plain).value = true ∧
      (other.owns file).value = true ∧
      (({ other with included := ["src/["] } : SourceRoot).owns file).value = false ∧
      (∀ included, (({ partedRoot with included } : SourceRoot).owns file).value = false) ∧
      (m.owns file).value = true := by
  intro file plain other m
  have hbad : ¬ Readable "src/[" := by decide +kernel
  have hmore : (({ partedRoot with excluded := ["build/", "src/gen/"] } : SourceRoot).owns
      plain).value = true := by decide +kernel
  have hfile : (({ other with included := ["*.code"] } : SourceRoot).owns file).value = true := by
    decide +kernel
  have hcovers : Covers "src/gen/" (.ofString "src/gen/G.code") := by decide +kernel
  obtain ⟨hadded, -⟩ := exclusion_dominates_inclusion partedRoot plain "build/"
  obtain ⟨hbroken, -⟩ := exclusion_dominates_inclusion partedRoot plain "src/["
  obtain ⟨-, hbeside, -, hset, -⟩ := exclusion_dominates_inclusion partedRoot plain "doc/*"
  obtain ⟨-, -, hfirst, -⟩ := exclusion_dominates_inclusion other file "*.code"
  obtain ⟨-, -, hnothing, -⟩ := exclusion_dominates_inclusion other file "src/["
  obtain ⟨-, -, -, -, hexcluded⟩ := exclusion_dominates_inclusion partedRoot file "src/gen/"
  obtain ⟨hout, hmodule⟩ := hexcluded (.ofString "src/gen/G.code") rfl List.mem_cons_self hcovers
  have hplain : (partedRoot.owns plain).value = true := (hadded [] ["src/gen/"] rfl).1 hmore
  have hother : (other.owns file).value = true := (hfirst rfl).1 hfile
  refine ⟨hplain, ?_, ?_, ?_, hother, (hnothing rfl).2 hbad, hout, ?_⟩
  · exact ((hbroken [] ["src/gen/"] rfl).2 hbad).trans hplain
  · exact hbeside ["src/**/*.code"] [] rfl (List.cons_ne_nil _ _) hplain
  · refine (hset _ ["src/gen/"] (fun p => ?_) fun p => Iff.rfl).trans hplain
    simp [partedRoot]
  · exact (hmodule m [] [other] rfl).mpr ⟨other, List.mem_cons_self, hother⟩

end SourceRoot

end Buildpath
