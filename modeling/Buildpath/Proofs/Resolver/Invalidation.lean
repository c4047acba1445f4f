import Buildpath.Proofs.Resolver.Origins

/-!
# Invalidations are not lost

An invalidation leaves the slots alone that are held while it goes on, and a slot may be taken and
given back between its first and its last attempt. Still no lookup serves what was computed before
it: the resolution behind a served classpath read the generation after the latest invalidation had
begun (`hit_follows_invalidations`).
-/

namespace Buildpath

namespace Cache

/-! ### An invalidation in pieces -/

theorem clearIfFree_clearIfFree (s : CacheSlot) : clearIfFree (clearIfFree s) = clearIfFree s := by
  unfold clearIfFree
  cases hs : s.held <;> simp [hs]

theorem slots_foldl_clearSlot (keys : List String) (c : Cache) :
    keys.foldl clearSlot c =
      { c with slots := c.slots.map fun (t, s) => (t, if t ∈ keys then clearIfFree s else s) } := by
  induction keys generalizing c with
  | nil => simp
  | cons k keys ih =>
    rw [List.foldl_cons, ih]
    simp only [clearSlot, List.map_map]
    congr 2
    funext ⟨t, s⟩
    by_cases hk : t = k
    · by_cases ht : t ∈ keys
      · simp [← hk, ht, clearIfFree_clearIfFree]
      · simp [← hk, ht]
    · simp [hk]

/-- With nothing in between, the attempts clear what a sweep clears. -/
theorem foldl_clearSlot_eq_sweep (c : Cache) :
    (c.slots.map fun (t, _) => t).foldl clearSlot c = c.sweep := by
  rw [slots_foldl_clearSlot, sweep]
  congr 1
  refine List.map_congr_left fun p hp => ?_
  obtain ⟨t, s⟩ := p
  have ht : t ∈ c.slots.map fun (t, _) => t := List.mem_map.mpr ⟨(t, s), hp, rfl⟩
  simp only [ht, if_true]

end Cache

namespace Interleaving

open Resolver

variable {σ : Type} {timeout : Duration} {h : List Event} {w : World σ} {x : Instant} {q : Nat}
  {m : String} {cp : Classpath}

/-- What stands was computed by a call that read the generation after the latest invalidation. -/
theorem Standing.current (run : Run timeout h w) {p : Nat} (hs : Standing p m cp h) :
    CurrentCall p m h ∧ Since NotRenewed (fun e => e.what = .stepped p m (.assembled cp)) h := by
  obtain ⟨after, store, before, rfl, hstore, hafter⟩ := Since.iff_split.mp hs
  obtain ⟨y, what⟩ := store
  cases hstore
  obtain ⟨w', run'⟩ := run.earlier
  have hkeep : NotRenewed ⟨y, .stepped p m (.stored cp true)⟩ := by simp [NotRenewed]
  have hcurrent : CurrentCall p m before := ((stored_iff run').mp rfl).2
  have hassembled := assembled_of_stored rfl run'
  exact ⟨.append (fun e he => (hafter e he).notRenewed) (.still hkeep hcurrent),
    .append (fun e he => (hafter e he).notRenewed) (.still hkeep hassembled)⟩

/-- A call takes its slot, everything is invalidated, and only then the call goes on; then another
call takes the slot. -/
def heldSlotHistory : List Event :=
  [⟨0, .stepped 1 "app" .entered⟩, ⟨0, .stepped 1 "app" .took⟩, ⟨0, .asked 1 "app"⟩,
    ⟨0, .stepped 0 "app" (.left default)⟩, ⟨0, .stepped 0 "app" (.stored default true)⟩,
    ⟨0, .stepped 0 "app" (.assembled default)⟩, ⟨0, .stepped 0 "app" .queried⟩,
    ⟨0, .stepped 0 "app" (.lookedUp (.miss .empty))⟩, ⟨0, .stepped 0 "app" .entered⟩,
    ⟨0, .tried 1 "app"⟩, ⟨0, .renewed 1⟩, ⟨0, .stepped 0 "app" .took⟩, ⟨0, .asked 0 "app"⟩]

/-- Whatever a lookup serves was put there by the latest successful store on the module, and the
call that made this store read the generation, and computed what it stored, after every
invalidation that began before the lookup. -/
theorem hit_follows_invalidations
    (run : Run timeout (⟨x, .stepped q m (.lookedUp (.hit cp))⟩ :: h) w) :
    ∃ p, LatestStore p m cp h ∧
      ∀ later y k earlier, h = later ++ ⟨y, .renewed k⟩ :: earlier →
        (∃ e ∈ later, e.what = .stepped p m .entered) ∧
        (∀ e ∈ earlier, e.what ≠ .stepped p m .entered) ∧
        ∃ e ∈ later, e.what = .stepped p m (.assembled cp) := by
  obtain ⟨_, p, hp⟩ := standing_of_hit run
  obtain ⟨w', before⟩ := run.before
  refine ⟨p, hp.mono (fun _ hu => hu.notStored) fun _ hm => hm, ?_⟩
  rintro later y k earlier rfl
  obtain ⟨hcurrent, hassembled⟩ := hp.current before
  have hbreak : ¬ NotRenewed ⟨y, .renewed k⟩ := fun hn => hn k rfl
  obtain ⟨e, he, hread⟩ := (hcurrent.mark_after hbreak (by simp)).exists_mem
  refine ⟨⟨e, he, hread⟩, fun e' he' => ?_, (hassembled.mark_after hbreak (by simp)).exists_mem⟩
  have honce := (List.pairwise_append.mp (Sound.of_run before).reads.once).2.2
  exact honce e he e' (List.mem_cons_of_mem _ he') p m hread m

/- The slot is held while the invalidation comes by; its holder reads the generation afterwards. -/
theorem hit_follows_invalidation_of_held_slot :
    ∃ w, Run ⟨5⟩ (⟨0, .stepped 1 "app" (.lookedUp (.hit default))⟩ :: heldSlotHistory)
        (w : World Scripted) ∧
      ∃ p, LatestStore p "app" default heldSlotHistory ∧
        ∀ later y k earlier, heldSlotHistory = later ++ ⟨y, .renewed k⟩ :: earlier →
          (∃ e ∈ later, e.what = .stepped p "app" .entered) ∧
          (∀ e ∈ earlier, e.what ≠ .stepped p "app" .entered) ∧
          ∃ e ∈ later, e.what = .stepped p "app" (.assembled default) := by
  have hplay : ∃ w, World.quiet.performAll [] ([.ask 0 "app", .advance 0, .renew,
      .tryClear 1 "app"] ++ List.replicate 6 (.advance 0) ++ .ask 1 "app" ::
      List.replicate 3 (.advance 1)) =
      some (⟨0, .stepped 1 "app" (.lookedUp (.hit default))⟩ :: heldSlotHistory, w) := ⟨_, rfl⟩
  obtain ⟨w, hp⟩ := hplay
  have run := (Run.start _ _ _).performAll hp
  exact ⟨w, run, hit_follows_invalidations run⟩

end Interleaving

end Buildpath
