import Buildpath.Proofs.Resolver.Omission

/-!
# What a failure costs

A resolution that fails answers an empty classpath and stores nothing. It costs no other resolution
a hit, on any module: without it the same lookups would be served with the same classpaths
(`failed_call_costs_no_hit`). There is one exception, which does not come from the failure. A lookup
during an import drops the record that it finds, so a call that looks its module up during an import
and then fails leaves the module without a record that would have been served after the import
(`hit_lost_by_failed_call`).
-/

namespace Buildpath

namespace Resolver

/-- Who has failed answers an empty classpath, stores nothing and has not been served. -/
theorem Course.of_failed {ds : List Deed} {stage : Stage} (hc : Course ds stage) {f : Failure}
    (hf : .failed f ∈ ds) :
    (∃ a, a.entries = [] ∧ ((∃ e, stage = .leaving e a) ∨ stage = .answered a) ∧
      ∀ b, .left b ∈ ds → b = a) ∧
    (∀ cp kept, .stored cp kept ∉ ds) ∧ ∀ cp, .lookedUp (.hit cp) ∉ ds := by
  cases hc with
  | unasked e g reason blank => exact ⟨⟨_, blank, Or.inl ⟨e, rfl⟩, by simp⟩, by simp, by simp⟩
  | failed e g reason blank => exact ⟨⟨_, blank, Or.inl ⟨e, rfl⟩, by simp⟩, by simp, by simp⟩
  | left before =>
    cases before with
    | unasked e g reason blank => exact ⟨⟨_, blank, Or.inr rfl, by simp⟩, by simp, by simp⟩
    | failed e g reason blank => exact ⟨⟨_, blank, Or.inr rfl, by simp⟩, by simp, by simp⟩
    | served e cp => simp at hf
    | stored e cp kept reason => simp at hf
  | _ => simp at hf

theorem Deed.eq_of_blur_eq_hit {deed : Deed} {cp : Classpath}
    (h : deed.blur = .lookedUp (.hit cp)) : deed = .lookedUp (.hit cp) := by
  unfold blur at h
  split at h
  · cases h
  · exact h

end Resolver

namespace Interleaving

open Resolver

variable {σ : Type} {timeout : Duration} {h h' : List Event} {w : World σ}
  {out : Nat → String → Bool}

theorem Occurrence.eq_of_without_eq_hit {what : Occurrence} {j : Nat} {t : String} {cp : Classpath}
    (hw : what.without out = .stepped j t (.lookedUp (.hit cp))) :
    what = .stepped j t (.lookedUp (.hit cp)) := by
  cases what with
  | asked i m =>
    simp only [without] at hw
    split at hw <;> cases hw
  | stepped i m deed =>
    simp only [without] at hw
    split at hw
    · cases hw
    · injection hw with hi hm hdeed
      rw [hi, hm, Deed.eq_of_blur_eq_hit hdeed]
  | _ => cases hw

/-- Every lookup that is served in the first history is served the same in the second one. -/
def HitsRemain (g h : List Event) : Prop :=
  ∀ (k : Nat) (e : Event) (j : Nat) (t : String) (cp : Classpath), g[k]? = some e →
    e.what = .stepped j t (.lookedUp (.hit cp)) → h[k]? = some e

theorem hitsRemain_of_map (hmap : h'.map Event.blur = h.map (Event.without out)) :
    HitsRemain h' h := by
  intro k e j t cp hk hw
  have hget : (h'.map Event.blur)[k]? = (h.map (Event.without out))[k]? := by rw [hmap]
  rw [List.getElem?_map, List.getElem?_map, hk] at hget
  obtain ⟨⟨time, what⟩, he, heq⟩ := Option.map_eq_some_iff.mp hget.symm
  obtain ⟨y, what'⟩ := e
  have htime : time = y := congrArg Event.time heq
  have hwhat : what.without out = what'.blur := congrArg Event.what heq
  have hw' : what' = .stepped j t (.lookedUp (.hit cp)) := hw
  subst hw'
  rw [he, htime, Occurrence.eq_of_without_eq_hit hwhat]

/-- In every run a call on a module that fails answers an empty classpath and stores nothing. If it
spoils no record, there is a run without the call in which the surroundings change as they do with
it and all other calls do the same, up to the reasons for misses; so whatever lookup is served in
that run is served the same in this one. Even if it spoils a record, that is so for the run without
any call on the module. -/
theorem failed_call_costs_no_hit {e : Event} {i : Nat} {m : String} {f : Failure}
    (run : Run timeout h w) (he : e ∈ h) (hfail : e.what = .stepped i m (.failed f)) :
    (∃ a, a.entries = [] ∧
      ((∃ entry, w.calls i = some ⟨m, .leaving entry a⟩) ∨ w.calls i = some ⟨m, .answered a⟩) ∧
      ∀ e ∈ h, ∀ u b, e.what = .stepped i u (.left b) → b = a) ∧
    (∀ e ∈ h, ∀ u cp kept, e.what ≠ .stepped i u (.stored cp kept)) ∧
    (Throughout (fun past e => ¬ Spoils timeout i m past e) [] h →
      ∃ h' v, Run timeout h' (v : World σ) ∧
        h'.map Event.blur = h.map (Event.without fun j _ => j == i) ∧ HitsRemain h' h) ∧
    ∃ h' v, Run timeout h' (v : World σ) ∧
      h'.map Event.blur = h.map (Event.without fun _ t => t == m) ∧ HitsRemain h' h := by
  have hc := Courses.of_run run
  obtain ⟨call, hi, hmod⟩ := hc.module_eq e he i m _ hfail
  obtain ⟨⟨a, hblank, hstage, hleft⟩, hstored, hserved⟩ :=
    (hc.course i call hi).of_failed (mem_deeds he hfail)
  refine ⟨⟨a, hblank, ?_, fun e he u b hw => hleft b (mem_deeds he hw)⟩,
    fun e he u cp kept hw => hstored cp kept (mem_deeds he hw), fun hspoil => ?_, ?_⟩
  · subst hmod
    rcases hstage with ⟨e, hs⟩ | hs
    · exact Or.inl ⟨e, by rw [hi, ← hs]⟩
    · exact Or.inr (by rw [hi, ← hs])
  -- The call is left out. It fails, so it neither stores nor is served.
  · have hblame : Throughout (fun past e => ∀ j u, (j == i) = true → True →
        Blameless timeout j u past e) [] h := by
      refine hspoil.mono fun e he past hns j u hj _ => ?_
      have hji : j = i := eq_of_beq hj
      subst hji
      refine ⟨fun cp hw => hstored cp true (mem_deeds he hw),
        fun cp hw => hserved cp (mem_deeds he hw), fun ⟨hw, hrecord⟩ => hns ?_⟩
      obtain ⟨call', hi', hmod'⟩ := hc.module_eq e he j u _ hw
      rw [hi] at hi'
      cases hi'
      rw [hmod] at hmod'
      subst hmod'
      exact ⟨hw, hrecord⟩
    obtain ⟨h', v, run', hmap, -⟩ :=
      exists_run_without (fun j _ => j == i) (fun _ => True) run (fun _ _ _ => trivial) hblame
    exact ⟨h', v, run', hmap, hitsRemain_of_map hmap⟩
  -- All calls on the module are left out, and its record is none of the others' business.
  · have hblame : Throughout (fun past e => ∀ j u, (u == m) = true → u ≠ m →
        Blameless timeout j u past e) [] h :=
      .of_forall fun past e j u hu hne => absurd (eq_of_beq hu) hne
    obtain ⟨h', v, run', hmap, -⟩ := exists_run_without (fun _ u => u == m) (fun u => u ≠ m) run
      (fun _ _ hu => ne_of_beq_false hu) hblame
    exact ⟨h', v, run', hmap, hitsRemain_of_map hmap⟩

/-- The surroundings of the quiet world when the tool fails every query. -/
def World.failing (queries : Nat) : Scene Scripted :=
  let root : Path := ⟨['/']⟩
  ⟨{ Scripted.ofRoots ⟨root, root⟩ with queryFailure := some (.queryFailed "gone"), queries },
    .empty⟩

/-- The record of one module has expired and the other one has a young record when a call on the
first module fails during an import; afterwards the other module is served. -/
def harmlessHistory : List Event :=
  [⟨6, .stepped 3 "lib" (.lookedUp (.hit default))⟩, ⟨6, .stepped 3 "lib" .entered⟩,
    ⟨6, .stepped 3 "lib" .took⟩, ⟨6, .asked 3 "lib"⟩, ⟨6, .importEnded 0⟩,
    ⟨6, .stepped 2 "app" (.left default)⟩,
    ⟨6, .stepped 2 "app" (.failed (.queryFailed "gone"))⟩, ⟨6, .stepped 2 "app" .queried⟩,
    ⟨6, .stepped 2 "app" (.lookedUp (.miss .importing))⟩, ⟨6, .stepped 2 "app" .entered⟩,
    ⟨6, .stepped 2 "app" .took⟩, ⟨6, .asked 2 "app"⟩, ⟨6, .changed⟩, ⟨6, .importBegan 0⟩,
    ⟨6, .stepped 1 "lib" (.left default)⟩, ⟨6, .stepped 1 "lib" (.stored default true)⟩,
    ⟨6, .stepped 1 "lib" (.assembled default)⟩, ⟨6, .stepped 1 "lib" .queried⟩,
    ⟨6, .stepped 1 "lib" (.lookedUp (.miss .empty))⟩, ⟨6, .stepped 1 "lib" .entered⟩,
    ⟨6, .stepped 1 "lib" .took⟩, ⟨6, .asked 1 "lib"⟩, ⟨0, .waited 6⟩,
    ⟨0, .stepped 0 "app" (.left default)⟩, ⟨0, .stepped 0 "app" (.stored default true)⟩,
    ⟨0, .stepped 0 "app" (.assembled default)⟩, ⟨0, .stepped 0 "app" .queried⟩,
    ⟨0, .stepped 0 "app" (.lookedUp (.miss .empty))⟩, ⟨0, .stepped 0 "app" .entered⟩,
    ⟨0, .stepped 0 "app" .took⟩, ⟨0, .asked 0 "app"⟩]

theorem failed_call_costs_no_hit_of_expired :
    ∃ w, Run ⟨5⟩ harmlessHistory (w : World Scripted) ∧
      (∃ e ∈ harmlessHistory, e.what = .stepped 2 "app" (.failed (.queryFailed "gone"))) ∧
      Throughout (fun past e => ¬ Spoils ⟨5⟩ 2 "app" past e) [] harmlessHistory ∧
      (∀ e ∈ harmlessHistory, ∀ u cp kept, e.what ≠ .stepped 2 u (.stored cp kept)) ∧
      ∃ h' v, Run ⟨5⟩ h' (v : World Scripted) ∧
        h'.map Event.blur = harmlessHistory.map (Event.without fun j _ => j == 2) ∧
        HitsRemain h' harmlessHistory := by
  have hplay : ∃ w, World.quiet.performAll [] (.ask 0 "app" :: List.replicate 7 (.advance 0) ++
      [.wait 6 default, .ask 1 "lib"] ++ List.replicate 7 (.advance 1) ++
      [.beginImport, .change World.quiet.resolver (World.failing 0), .ask 2 "app"] ++
      List.replicate 6 (.advance 2) ++ [.endImport 0, .ask 3 "lib"] ++
      List.replicate 3 (.advance 3)) = some (harmlessHistory, w) := ⟨_, rfl⟩
  obtain ⟨w, hp⟩ := hplay
  have run := (Run.start _ _ _).performAll hp
  have hspoil : Throughout (fun past e => ¬ Spoils ⟨5⟩ 2 "app" past e) [] harmlessHistory := by
    have hold : ∀ cp x, StoredAt "app" cp x (harmlessHistory.drop 9) → 5 + x < 6 := by
      intro cp x hs
      have hx : (0 : Nat) = x := by
        simp [harmlessHistory, StoredAt, Since.cons_iff] at hs
        grind
      subst hx
      decide
    simpa [harmlessHistory, Throughout, Spoils] using hold
  have hmem : ⟨6, .stepped 2 "app" (.failed (.queryFailed "gone"))⟩ ∈ harmlessHistory := by
    simp [harmlessHistory]
  obtain ⟨-, hstored, hwithout, -⟩ := failed_call_costs_no_hit run hmem rfl
  exact ⟨w, run, ⟨_, hmem, rfl⟩, hspoil, hstored, hwithout hspoil⟩

/-- A call stores, and another one looks the module up during an import and fails. -/
def spoiledHistory : List Event :=
  [⟨0, .stepped 2 "app" .entered⟩, ⟨0, .stepped 2 "app" .took⟩, ⟨0, .asked 2 "app"⟩, ⟨0, .changed⟩,
    ⟨0, .importEnded 0⟩, ⟨0, .stepped 1 "app" (.left default)⟩,
    ⟨0, .stepped 1 "app" (.failed (.queryFailed "gone"))⟩, ⟨0, .stepped 1 "app" .queried⟩,
    ⟨0, .stepped 1 "app" (.lookedUp (.miss .importing))⟩, ⟨0, .stepped 1 "app" .entered⟩,
    ⟨0, .stepped 1 "app" .took⟩, ⟨0, .asked 1 "app"⟩, ⟨0, .changed⟩, ⟨0, .importBegan 0⟩,
    ⟨0, .stepped 0 "app" (.left default)⟩, ⟨0, .stepped 0 "app" (.stored default true)⟩,
    ⟨0, .stepped 0 "app" (.assembled default)⟩, ⟨0, .stepped 0 "app" .queried⟩,
    ⟨0, .stepped 0 "app" (.lookedUp (.miss .empty))⟩, ⟨0, .stepped 0 "app" .entered⟩,
    ⟨0, .stepped 0 "app" .took⟩, ⟨0, .asked 0 "app"⟩]

/- The record is young, and nothing is invalidated. After the import the module is looked up once
more: with the call that failed the lookup misses, and without it it would have been served. -/
theorem hit_lost_by_failed_call :
    (∃ e ∈ spoiledHistory, e.what = .stepped 1 "app" (.failed (.queryFailed "gone"))) ∧
      (∃ w, Run ⟨5⟩ (⟨0, .stepped 2 "app" (.lookedUp (.miss .empty))⟩ :: spoiledHistory)
        (w : World Scripted)) ∧
      ∃ h' v,
        Run ⟨5⟩ (⟨0, .stepped 2 "app" (.lookedUp (.hit default))⟩ :: h') (v : World Scripted) ∧
        h'.map Event.blur = spoiledHistory.map (Event.without fun j _ => j == 1) := by
  have hwith : ∃ w, World.quiet.performAll [] (.ask 0 "app" :: List.replicate 7 (.advance 0) ++
      [.beginImport, .change World.quiet.resolver (World.failing 0), .ask 1 "app"] ++
      List.replicate 6 (.advance 1) ++
      [.endImport 0, .change World.quiet.resolver World.quiet.session.scene, .ask 2 "app"] ++
      List.replicate 3 (.advance 2)) =
      some (⟨0, .stepped 2 "app" (.lookedUp (.miss .empty))⟩ :: spoiledHistory, w) := ⟨_, rfl⟩
  -- Where the call steps, the surroundings change to what its step makes of them.
  have hwithout : ∃ w, World.quiet.performAll [] (.ask 0 "app" :: List.replicate 7 (.advance 0) ++
      .beginImport :: List.replicate 5 (.change World.quiet.resolver (World.failing 0)) ++
      List.replicate 3 (.change World.quiet.resolver (World.failing 1)) ++
      [.endImport 0, .change World.quiet.resolver World.quiet.session.scene, .ask 2 "app"] ++
      List.replicate 3 (.advance 2)) =
      some (⟨0, .stepped 2 "app" (.lookedUp (.hit default))⟩ ::
        spoiledHistory.map (Event.without fun j _ => j == 1), w) := ⟨_, rfl⟩
  obtain ⟨w, hw⟩ := hwith
  obtain ⟨v, hv⟩ := hwithout
  refine ⟨⟨⟨0, .stepped 1 "app" (.failed (.queryFailed "gone"))⟩, by simp [spoiledHistory], rfl⟩,
    ⟨w, (Run.start _ _ _).performAll hw⟩, _, v, (Run.start _ _ _).performAll hv, rfl⟩

end Interleaving

end Buildpath
