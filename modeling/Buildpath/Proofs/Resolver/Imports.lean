import Buildpath.Proofs.Resolver.Origins

/-!
# Imports and resolutions

A resolution asks whether an import is running when it looks its module up and again when it stores,
and at no other time. So nothing is served or stored while an import is running
(`imports_stop_stores_and_hits`), but a classpath is stored, and served later, that was computed
while an import was running, if the import has ended when it is stored
(`stored_after_import_ended`).
-/

namespace Buildpath.Interleaving

open Resolver

variable {σ : Type} {timeout : Duration} {h : List Event} {w : World σ}

/-- At some moment after the call took the slot an import guard was alive. -/
def ImportDuring (i : Nat) (m : String) (h : List Event) : Prop :=
  ∃ later earlier, h = later ++ earlier ∧ (∃ e ∈ earlier, e.what = .stepped i m .took) ∧
    Importing earlier

/-- In every run a store succeeds if and only if no import guard is alive at that moment and no
invalidation began since its call read the generation; what came before that moment does not
matter. A lookup serves nothing while an import guard is alive, and what it serves was put there by
the latest successful store on the module, at a moment when no import guard was alive. -/
theorem imports_stop_stores_and_hits (run : Run timeout h w) :
    (∀ after x i m cp kept before, h = after ++ ⟨x, .stepped i m (.stored cp kept)⟩ :: before →
      (kept = true ↔ ¬ Importing before ∧ CurrentCall i m before)) ∧
    (∀ after x q m cp before, h = after ++ ⟨x, .stepped q m (.lookedUp (.hit cp))⟩ :: before →
      ¬ Importing before ∧
      ∃ p later y earlier, before = later ++ ⟨y, .stepped p m (.stored cp true)⟩ :: earlier ∧
        (∀ e ∈ later, NotStored m e) ∧ ¬ Importing earlier) := by
  constructor
  · rintro after x i m cp kept before rfl
    obtain ⟨w', run'⟩ := run.earlier
    exact stored_iff run'
  · rintro after x q m cp before rfl
    obtain ⟨w', run'⟩ := run.earlier
    obtain ⟨hidle, p, hp⟩ := standing_of_hit run'
    refine ⟨hidle, ?_⟩
    obtain ⟨later, ⟨y, what⟩, earlier, rfl, hstore, hlater⟩ := Since.iff_split.mp hp
    cases hstore
    obtain ⟨w₀, before⟩ := run'.before
    obtain ⟨w₁, run₁⟩ := before.earlier
    exact ⟨p, later, y, earlier, rfl, fun e he => (hlater e he).notStored,
      ((stored_iff run₁).mp rfl).1⟩

/-- An import is running when a call looks its module up, and ends while the query is under way. -/
def importEndsHistory : List Event :=
  [⟨0, .stepped 0 "app" (.assembled default)⟩, ⟨0, .importEnded 0⟩, ⟨0, .stepped 0 "app" .queried⟩,
    ⟨0, .stepped 0 "app" (.lookedUp (.miss .empty))⟩, ⟨0, .stepped 0 "app" .entered⟩,
    ⟨0, .stepped 0 "app" .took⟩, ⟨0, .asked 0 "app"⟩, ⟨0, .importBegan 0⟩]

/-- Then the call stores, and another call is served. -/
def importEndedHistory : List Event :=
  [⟨0, .stepped 1 "app" (.lookedUp (.hit default))⟩, ⟨0, .stepped 1 "app" .entered⟩,
    ⟨0, .stepped 1 "app" .took⟩, ⟨0, .asked 1 "app"⟩, ⟨0, .stepped 0 "app" (.left default)⟩,
    ⟨0, .stepped 0 "app" (.stored default true)⟩] ++ importEndsHistory

theorem run_importEndedHistory :
    ∃ w, Run ⟨5⟩ importEndedHistory (w : World Scripted) := by
  have hplay : ∃ w, World.quiet.performAll [] ([.beginImport, .ask 0 "app"] ++
      List.replicate 4 (.advance 0) ++ .endImport 0 :: List.replicate 3 (.advance 0) ++
      .ask 1 "app" :: List.replicate 3 (.advance 1)) = some (importEndedHistory, w) := ⟨_, rfl⟩
  obtain ⟨w, hp⟩ := hplay
  exact ⟨w, (Run.start _ _ _).performAll hp⟩

theorem imports_stop_stores_and_hits_after_import :
    ∃ before, importEndedHistory = ⟨0, .stepped 1 "app" (.lookedUp (.hit default))⟩ :: before ∧
      (¬ Importing importEndsHistory ∧ CurrentCall 0 "app" importEndsHistory) ∧
      ¬ Importing before ∧
      ∃ p later y earlier,
        before = later ++ ⟨y, .stepped p "app" (.stored default true)⟩ :: earlier ∧
        (∀ e ∈ later, NotStored "app" e) ∧ ¬ Importing earlier := by
  obtain ⟨w, run⟩ := run_importEndedHistory
  obtain ⟨hstores, hhits⟩ := imports_stop_stores_and_hits run
  exact ⟨_, rfl, (hstores (importEndedHistory.take 5) 0 0 "app" default true _ rfl).mp rfl,
    hhits [] 0 1 "app" default _ rfl⟩

/- A classpath that was computed during an import is stored after the import, and another call is
served with it. -/
theorem stored_after_import_ended :
    ImportDuring 0 "app" importEndsHistory ∧
      ∃ w later, Run ⟨5⟩ (⟨0, .stepped 1 "app" (.lookedUp (.hit default))⟩ :: later ++
          ⟨0, .stepped 0 "app" (.stored default true)⟩ :: importEndsHistory) (w : World Scripted) ∧
        ∀ e ∈ later, NotStored "app" e := by
  constructor
  · refine ⟨importEndsHistory.take 2, importEndsHistory.drop 2, rfl, ?_, 0, ?_⟩
    · exact ⟨⟨0, .stepped 0 "app" .took⟩, by simp [importEndsHistory], rfl⟩
    · simp [importEndsHistory, Alive, Since.cons_iff]
  · obtain ⟨w, run⟩ := run_importEndedHistory
    refine ⟨w, [⟨0, .stepped 1 "app" .entered⟩, ⟨0, .stepped 1 "app" .took⟩, ⟨0, .asked 1 "app"⟩,
      ⟨0, .stepped 0 "app" (.left default)⟩], run, ?_⟩
    simp [NotStored]

end Buildpath.Interleaving
