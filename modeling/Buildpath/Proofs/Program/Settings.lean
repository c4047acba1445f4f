import Buildpath.Proofs.Text.Cutting
import Buildpath.Settings

/-!
# Settings that are valid

Settings are valid if the cache timeout is neither nothing nor longer than an hour, there is a tool
and an aspect, and the log level has one of five names (`validate_eq_ok_iff`). The shortest timeout
that is meant is a millisecond, and of settings from the environment, whose timeouts are whole
milliseconds, no others are valid; a shorter timeout that is set directly is valid as well
(`valid_settings_are_permitted`).
-/

namespace Buildpath.Settings

/-- The timeout lies between the shortest one and an hour, both included, the path of the tool is not
empty, the aspect is not blank and the log level is known. -/
structure Permitted (shortest : Duration) (s : Settings) : Prop where
  longEnough : shortest.nanos ≤ s.cacheTimeout.nanos
  shortEnough : s.cacheTimeout.nanos ≤ (Duration.ofMillis (60 * 60 * 1000)).nanos
  hasTool : s.toolPath.chars ≠ []
  hasAspect : Text.trim s.aspect.toList ≠ []
  knownLevel : s.logLevel ∈ ["trace", "debug", "info", "warn", "error"]

variable {s : Settings} {shortest longer : Duration}

theorem permitted_iff_of_le (h : shortest.nanos ≤ longer.nanos) :
    s.Permitted longer ↔ s.Permitted shortest ∧ longer.nanos ≤ s.cacheTimeout.nanos := by
  constructor
  · intro hs
    exact ⟨{ hs with longEnough := h.trans hs.longEnough }, hs.longEnough⟩
  · rintro ⟨hs, hlong⟩
    exact { hs with longEnough := hlong }

/-- Validation asks of the timeout only that there is one. -/
theorem validate_eq_ok_iff : s.validate = .ok () ↔ s.Permitted ⟨1⟩ := by
  have haspect : Text.isBlankText s.aspect.toList = true ↔ Text.trim s.aspect.toList = [] := by
    rw [Text.trim_eq_nil_iff, Text.isBlankText, List.all_eq_true]
  constructor
  · intro hvalid
    unfold validate at hvalid
    split_ifs at hvalid with hnone hlong htool hblank hlevel
    exact
      { longEnough := Nat.one_le_iff_ne_zero.mpr hnone
        shortEnough := Nat.le_of_not_lt hlong
        hasTool := htool
        hasAspect := fun h => hblank (haspect.mpr h)
        knownLevel := hlevel }
  · intro hs
    have hshort : ¬ (Duration.ofMillis maxTimeoutMillis).nanos < s.cacheTimeout.nanos :=
      Nat.not_lt_of_le hs.shortEnough
    have hlevel : ¬ s.logLevel ∉ levelNames := Decidable.not_not.mpr hs.knownLevel
    rw [validate, if_neg (Nat.one_le_iff_ne_zero.mp hs.longEnough), if_neg hshort,
      if_neg hs.hasTool, if_neg (fun h => hs.hasAspect (haspect.mp h)), if_neg hlevel]

theorem exists_millis_ofEnvironment (env : Environment) :
    ∃ n, (ofEnvironment env).cacheTimeout = .ofMillis n :=
  ⟨_, rfl⟩

/-- Settings are valid if and only if they are permitted with any timeout above zero. They are
permitted with timeouts from a millisecond on exactly if they are valid and the timeout is no shorter,
and the settings of an environment are valid exactly if they are permitted in this sense. -/
theorem valid_settings_are_permitted (s : Settings) :
    (s.validate = .ok () ↔ s.Permitted ⟨1⟩) ∧
    (s.Permitted (.ofMillis 1) ↔
      s.validate = .ok () ∧ (Duration.ofMillis 1).nanos ≤ s.cacheTimeout.nanos) ∧
    ∀ env, (ofEnvironment env).validate = .ok () ↔ (ofEnvironment env).Permitted (.ofMillis 1) := by
  have hle : (Duration.mk 1).nanos ≤ (Duration.ofMillis 1).nanos := by decide
  refine ⟨validate_eq_ok_iff, ?_, fun env => ?_⟩
  · rw [validate_eq_ok_iff]
    exact permitted_iff_of_le hle
  · rw [validate_eq_ok_iff, permitted_iff_of_le hle, iff_self_and]
    intro hs
    obtain ⟨n, hn⟩ := exists_millis_ofEnvironment env
    have hpositive := hs.longEnough
    rw [hn] at hpositive ⊢
    simp only [Duration.ofMillis] at hpositive ⊢
    omega

/-- The timeout is a microsecond; all else is as usual. -/
def hastySettings : Settings :=
  { ofEnvironment [] with cacheTimeout := .ofMicros 1 }

theorem hasty_settings_are_valid :
    hastySettings.validate = .ok () ∧ ¬ hastySettings.Permitted (.ofMillis 1) :=
  ⟨by decide +kernel, fun h => absurd h.longEnough (by decide)⟩

end Buildpath.Settings
