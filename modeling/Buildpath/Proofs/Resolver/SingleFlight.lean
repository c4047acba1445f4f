import Buildpath.Proofs.Resolver.Stability

/-!
# One query for all who ask

At most one call on a module is at work at a time, and whoever waited for it is served what it
stored. So while nothing disturbs the module, the calls that read the generation after the latest
invalidation make at most one query between them (`single_flight`). A call that was inside already
when the invalidation began does not count: it goes on to make its query, what it assembles is not
stored, and the next call queries again (`two_queries_after_invalidation`).
-/

namespace Buildpath

namespace Resolver.Stage

/-- The entry of a resolution that has yet to query. -/
def early? : Stage → Option CacheEntry
  | .entered e | .missed e _ _ => some e
  | _ => none

/-- The entry of a resolution that has queried and has yet to store. -/
def flight? : Stage → Option CacheEntry
  | .waiting p => some p.entry
  | .assembled e _ => some e
  | _ => none

theorem isInside_of_flight {stage : Stage} {e : CacheEntry} (h : stage.flight? = some e) :
    stage.isInside = true := by
  cases stage <;> first | rfl | cases h

theorem isInside_of_early {stage : Stage} {e : CacheEntry} (h : stage.early? = some e) :
    stage.isInside = true := by
  cases stage <;> first | rfl | cases h

end Resolver.Stage

namespace Interleaving

open Resolver

variable {σ : Type} {timeout : Duration} {h : List Event} {w w' : World σ} {m : String}
  {cp : Classpath} {what : Occurrence}

/-! ### Disturbing events -/

/-- While the event lasts, the record that the module has becomes older than the timeout. -/
def Expires (timeout : Duration) (m : String) (h : List Event) (e : Event) : Prop :=
  ∃ cp x span, StoredAt m cp x h ∧ e.what = .waited span ∧ e.time - x ≤ timeout.nanos ∧
    timeout.nanos < e.time + span - x

/-- The event is part of an invalidation that concerns the module, happens while an import guard is
alive, lets the record of the module expire, or is the failure of a call on the module. -/
@[mk_iff] inductive Disturbing (timeout : Duration) (m : String) (h : List Event) (e : Event) :
    Prop where
  | renewed (k : Nat) (begun : e.what = .renewed k)
  | tried (k : Nat) (cleared : e.what = .tried k m)
  | importing (running : Importing h)
  | expired (outlived : Expires timeout m h e)
  | failed (i : Nat) (f : Failure) (gone : e.what = .stepped i m (.failed f))

theorem calm_of_not_disturbing {e : Event} (hd : ¬ Disturbing timeout m h e) : Calm m h e :=
  ⟨fun k he => hd (.renewed k he), fun k he => hd (.tried k he),
    fun _ _ _ hi => hd (.importing hi)⟩

/-! ### After a store -/

theorem Happening.instant_eq (hh : Happening w what w') :
    w'.now.instant = w.now.instant ∨
      ∃ span, what = .waited span ∧ w'.now.instant = w.now.instant + span := by
  cases hh with
  | waited span time => exact Or.inr ⟨span, rfl, rfl⟩
  | _ => exact Or.inl rfl

/-- The module has a record that is served, and the history shows since when. -/
structure Kept (timeout : Duration) (m : String) (cp : Classpath) (x : Instant) (h : List Event)
    (w : World σ) : Prop where
  settled : Settled m cp x w
  stored : StoredAt m cp x h
  young : w.now.instant - x ≤ timeout.nanos

namespace Kept

variable {x : Instant}

theorem of_stored {p : Nat} (run : Run timeout (⟨x, .stepped p m (.stored cp true)⟩ :: h) w) :
    Kept timeout m cp x (⟨x, .stepped p m (.stored cp true)⟩ :: h) w := by
  refine ⟨.of_stored run, .now ⟨rfl, p, rfl⟩, ?_⟩
  obtain ⟨w₀, -, htime, hh⟩ := run.cons_inv
  have hx : x = w₀.now.instant := htime
  rcases hh.instant_eq with hnow | ⟨span, heq, -⟩
  · rw [hnow, hx, Nat.sub_self]
    exact Nat.zero_le _
  · cases heq

theorem happen (hk : Kept timeout m cp x h w) (run : Run timeout h w) (hh : Happening w what w')
    (hd : ¬ Disturbing timeout m h ⟨w.now.instant, what⟩) :
    Kept timeout m cp x (⟨w.now.instant, what⟩ :: h) w' ∧
      ∀ i deed, what = .stepped i m deed → ∃ notices, Served m cp deed notices := by
  have calm := calm_of_not_disturbing hd
  obtain ⟨hsettled, hserved⟩ := hk.settled.happen run hh calm hk.young
  have undisturbing : Undisturbing m ⟨w.now.instant, what⟩ := by
    refine ⟨fun i d he => ?_, fun i reason he => ?_, calm.notRenewed⟩
    · obtain ⟨notices, served⟩ := hserved i _ he
      exact served.not_stored d true rfl
    · obtain ⟨notices, served⟩ := hserved i _ he
      exact served.not_missed reason rfl
  refine ⟨⟨hsettled, .still undisturbing hk.stored, ?_⟩, hserved⟩
  rcases hh.instant_eq with hnow | ⟨span, hwhat, hnow⟩
  · rw [hnow]
    exact hk.young
  · rw [hnow]
    exact Nat.le_of_not_lt fun hlong =>
      hd (.expired ⟨cp, x, span, hk.stored, hwhat, hk.young, hlong⟩)

end Kept

/-! ### After a query of the present generation -/

/-- A call on the module has queried and will store what it assembles. -/
def Flying (m : String) (w : World σ) : Prop :=
  ∃ i call e, w.calls i = some call ∧ call.module = m ∧ call.stage.flight? = some e ∧
    e.generation = w.cache.generation

/-- No call on the module has to query any more. -/
def Covered (timeout : Duration) (m : String) (h : List Event) (w : World σ) : Prop :=
  Flying m w ∨ ∃ cp x, Kept timeout m cp x h w

theorem Step.of_flight {now : Instant} {stage stage' : Stage} {c c' : Cache} {deed : Deed}
    {e : CacheEntry} (hs : Step now stage c deed stage' c') (hf : stage.flight? = some e) :
    (∃ cp, deed = .assembled cp ∧ stage'.flight? = some e) ∨ (∃ f, deed = .failed f) ∨
      ∃ cp, deed = .stored cp (c.store e cp now).value.1 := by
  cases hs with
  | assembled cp =>
    cases hf
    exact Or.inl ⟨cp, rfl, rfl⟩
  | failed f blank => exact Or.inr (Or.inl ⟨f, rfl⟩)
  | stored cp =>
    cases hf
    exact Or.inr (Or.inr ⟨cp, rfl⟩)
  | _ => cases hf

/-- Whoever is in flight stores with its next steps, unless something disturbs the module. -/
theorem covered_of_flight {i : Nat} {call : Call} {e : CacheEntry} (run : Run timeout h w)
    {step : Traced (Deed × Stage × Session σ)} (here : w.calls i = some call)
    (next : advance w.resolver w.now w.session call.stage = some step)
    (hf : call.stage.flight? = some e) (hgen : e.generation = w.cache.generation)
    (hd : ¬ Disturbing timeout call.module h
      ⟨w.now.instant, .stepped i call.module step.value.1⟩) :
    Covered timeout call.module (⟨w.now.instant, .stepped i call.module step.value.1⟩ :: h)
      (w.afterStep i call.module step.value.2.1 step.value.2.2) := by
  have hst := step_of_advance next
  rcases hst.of_flight hf with ⟨cp, hdeed, hstill⟩ | ⟨f, hdeed⟩ | ⟨cp, hdeed⟩
  · refine Or.inl ⟨i, _, e, (World.calls_setCall _ _ _ _).trans (if_pos rfl), rfl, hstill, ?_⟩
    exact hgen.trans hst.generation.symm
  · exact absurd (.failed i f (by rw [hdeed])) hd
  · have hidle : w.cache.isImporting = false :=
      (Sound.of_run run).guards.isImporting_eq_false_iff.mpr fun hi => hd (.importing hi)
    have hkept := (Cache.stored_iff w.cache e cp w.now.instant).mpr ⟨hidle, hgen⟩
    rw [hkept] at hdeed
    have run' := run.happen (.stepped here next)
    rw [hdeed] at run' ⊢
    exact Or.inr ⟨cp, _, .of_stored run'⟩

theorem Flying.happen (hf : Flying m w) (run : Run timeout h w) (hh : Happening w what w')
    (hd : ¬ Disturbing timeout m h ⟨w.now.instant, what⟩) :
    Covered timeout m (⟨w.now.instant, what⟩ :: h) w' := by
  obtain ⟨i, call, e, hi, rfl, hflight, hgen⟩ := hf
  cases hh with
  | @asked j u new =>
    have hne : i ≠ j := by
      rintro rfl
      rw [new] at hi
      cases hi
    refine Or.inl ⟨i, call, e, ?_, rfl, hflight, hgen⟩
    rw [World.calls_setCall, if_neg hne, hi]
  | @stepped j k step here next =>
    by_cases hij : i = j
    · subst hij
      rw [hi] at here
      cases here
      exact covered_of_flight run hi next hflight hgen hd
    · have hsame := (step_of_advance next).generation
      refine Or.inl ⟨i, call, e, ?_, rfl, hflight, hgen.trans hsame.symm⟩
      rw [World.calls_setCall, if_neg hij]
      exact hi
  | renewed => exact absurd (.renewed _ rfl) hd
  | _ => exact Or.inl ⟨i, call, e, hi, rfl, hflight, hgen⟩

theorem Step.queried_inv {now : Instant} {stage stage' : Stage} {c c' : Cache}
    (hs : Step now stage c .queried stage' c') :
    ∃ e hadRecord reason q, stage = .missed e hadRecord reason ∧ stage' = .waiting ⟨e, q⟩ := by
  cases hs with
  | queried q => exact ⟨_, _, _, q, rfl, rfl⟩

theorem happening_queried {i : Nat} (hh : Happening w (.stepped i m .queried) w') :
    ∃ e hadRecord reason q, w.calls i = some ⟨m, .missed e hadRecord reason⟩ ∧
      w'.calls i = some ⟨m, .waiting ⟨e, q⟩⟩ ∧ w'.cache.generation = w.cache.generation := by
  obtain ⟨call, step, hi, rfl, hdeed, next, rfl⟩ := happening_stepped hh
  have hst := step_of_advance next
  have hgen := hst.generation
  rw [hdeed] at hst
  obtain ⟨e, hadRecord, reason, q, hbefore, hafter⟩ := hst.queried_inv
  refine ⟨e, hadRecord, reason, q, ?_, ?_, hgen⟩
  · rw [hi, ← hbefore]
  · rw [World.calls_setCall, if_pos rfl, hafter]

theorem Flying.not_queried (hf : Flying m w) (run : Run timeout h w) {j : Nat}
    (hh : Happening w (.stepped j m .queried) w') : False := by
  obtain ⟨i, call, e, hi, hmod, hflight, -⟩ := hf
  obtain ⟨e', hadRecord, reason, q, hj, -, -⟩ := happening_queried hh
  have hij := (Exclusive.of_run run).unique i j m
    ⟨call, hi, hmod, Stage.isInside_of_flight hflight⟩ ⟨_, hj, rfl, rfl⟩
  subst hij
  rw [hi] at hj
  cases hj
  cases hflight

theorem Covered.happen (hc : Covered timeout m h w) (run : Run timeout h w)
    (hh : Happening w what w') (hd : ¬ Disturbing timeout m h ⟨w.now.instant, what⟩) :
    Covered timeout m (⟨w.now.instant, what⟩ :: h) w' ∧ ∀ i, what ≠ .stepped i m .queried := by
  rcases hc with hf | ⟨cp, x, hk⟩
  · refine ⟨hf.happen run hh hd, fun i heq => ?_⟩
    subst heq
    exact hf.not_queried run hh
  · obtain ⟨hk', hserved⟩ := hk.happen run hh hd
    refine ⟨Or.inr ⟨cp, x, hk'⟩, fun i heq => ?_⟩
    obtain ⟨notices, served⟩ := hserved i _ heq
    cases served

theorem covered_of_queried {x : Instant} {i : Nat}
    (run : Run timeout (⟨x, .stepped i m .queried⟩ :: h) w) (hcurrent : CurrentCall i m h) :
    Covered timeout m (⟨x, .stepped i m .queried⟩ :: h) w := by
  obtain ⟨w₀, run₀, -, hh⟩ := run.cons_inv
  obtain ⟨e, hadRecord, reason, q, hi, hi', hgen⟩ := happening_queried hh
  have hread := ((Sound.of_run run₀).calls i _ hi).current_iff e rfl
  exact Or.inl ⟨i, _, e, hi', rfl, rfl, (hread.mpr hcurrent).trans hgen.symm⟩

/-! ### After a query of an earlier generation -/

/-- Every call on the module that has yet to query has the present generation. -/
def Late (m : String) (w : World σ) : Prop :=
  ∀ i call e, w.calls i = some call → call.module = m → call.stage.early? = some e →
    e.generation = w.cache.generation

theorem late_of_queried {x : Instant} {i : Nat}
    (run : Run timeout (⟨x, .stepped i m .queried⟩ :: h) w) : Late m w := by
  obtain ⟨w₀, -, -, hh⟩ := run.cons_inv
  obtain ⟨e, hadRecord, reason, q, -, hi, -⟩ := happening_queried hh
  intro j call e' hj hmod hearly
  have hij := (Exclusive.of_run run).unique i j m ⟨_, hi, rfl, rfl⟩
    ⟨call, hj, hmod, Stage.isInside_of_early hearly⟩
  subst hij
  rw [hi] at hj
  cases hj
  cases hearly

theorem Step.early {now : Instant} {stage stage' : Stage} {c c' : Cache} {deed : Deed}
    {e : CacheEntry} (hs : Step now stage c deed stage' c') (he : stage'.early? = some e) :
    stage.early? = some e ∨ e.generation = c.generation := by
  cases hs with
  | entered =>
    cases he
    exact Or.inr rfl
  | missed _ _ =>
    cases he
    exact Or.inl rfl
  | _ => cases he

theorem Late.happen (hl : Late m w) (hh : Happening w what w') (hn : ∀ k, what ≠ .renewed k) :
    Late m w' := by
  intro i call e hi hmod he
  cases hh with
  | asked u new =>
    rcases World.calls_setCall_eq_some hi with ⟨-, rfl⟩ | ⟨-, hi⟩
    · cases he
    · exact hl i call e hi hmod he
  | @stepped j k step here next =>
    have hst := step_of_advance next
    have hgen : e.generation = w.cache.generation := by
      rcases World.calls_setCall_eq_some hi with ⟨rfl, rfl⟩ | ⟨-, hi⟩
      · rcases hst.early he with he | hgen
        · exact hl i k e here hmod he
        · exact hgen
      · exact hl i call e hi hmod he
    exact hgen.trans hst.generation.symm
  | renewed => exact absurd rfl (hn _)
  | _ => exact hl i call e hi hmod he

theorem Late.current (hl : Late m w) (run : Run timeout h w) {i : Nat}
    (hh : Happening w (.stepped i m .queried) w') : CurrentCall i m h := by
  obtain ⟨e, hadRecord, reason, q, hi, -, -⟩ := happening_queried hh
  exact (((Sound.of_run run).calls i _ hi).current_iff e rfl).mp (hl i _ e hi rfl rfl)

/-! ### Stretches without a disturbance -/

variable {before stretch : List Event}

theorem queries_of_undisturbed {later between earlier : List Event} {x y : Instant} {i j : Nat}
    (run : Run timeout (stretch ++ before) w)
    (calm : Throughout (fun h e => ¬ Disturbing timeout m h e) before stretch)
    (hs : stretch = later ++ ⟨y, .stepped j m .queried⟩ ::
      (between ++ ⟨x, .stepped i m .queried⟩ :: earlier)) :
    ¬ CurrentCall i m (earlier ++ before) ∧
      CurrentCall j m (between ++ ⟨x, .stepped i m .queried⟩ :: (earlier ++ before)) := by
  subst hs
  obtain ⟨hsecond, hbetween⟩ := (Throughout.append_iff.mp calm).2
  have hrest := (Throughout.append_iff.mp hbetween).1
  rw [List.append_assoc] at run hsecond
  obtain ⟨w', run'⟩ := run.earlier
  rw [List.cons_append, List.append_assoc] at run'
  obtain ⟨w₀, run₀, htime, hh⟩ := run'.cons_inv
  have hy : y = w₀.now.instant := htime
  subst hy
  constructor
  · intro hcurrent
    -- The call of the first query would store, and nobody queries before it does or afterwards.
    obtain ⟨hcovered, -⟩ := Run.throughout (I := Covered timeout m) (C := fun _ => True)
      (fun _ _ _ _ run hc hh hd => ⟨(hc.happen run hh hd).1, trivial⟩) run₀
      (fun _ run => covered_of_queried run hcurrent) hrest
    exact (hcovered.happen run₀ hh hsecond).2 j rfl
  -- When the first query is made nobody else is inside, and who comes after it reads the generation
  -- that is still the present one at the second query.
  · obtain ⟨hlate, -⟩ := Run.throughout (I := fun _ w => Late m w) (C := fun _ => True)
      (fun _ _ _ _ _ hl hh hd => ⟨hl.happen hh fun k hk => hd (.renewed k hk), trivial⟩) run₀
      (fun _ run => late_of_queried run) hrest
    exact hlate.current run₀ hh

theorem served_of_undisturbed {later earlier : List Event} {x : Instant} {i : Nat}
    (run : Run timeout (stretch ++ before) w)
    (calm : Throughout (fun h e => ¬ Disturbing timeout m h e) before stretch)
    (hs : stretch = later ++ ⟨x, .stepped i m (.stored cp true)⟩ :: earlier) :
    ∀ e ∈ later, ∀ j deed, e.what = .stepped j m deed → ∃ notices, Served m cp deed notices := by
  subst hs
  rw [List.append_assoc] at run
  exact (Run.throughout (I := Kept timeout m cp x)
    (fun _ _ _ _ run hk hh hd => hk.happen run hh hd) run (fun _ run => .of_stored run)
    (Throughout.append_iff.mp calm).1).2

/-- Of all calls on a module at most one is between its lookup and its leaving, in every run. In a
stretch of a run in which nothing disturbs the module, of two queries for it the first is made by a
call that read the generation before the latest invalidation and the second by one that read it
afterwards, so that neither kind of call makes more than one; and after a store every call on the
module is served what was stored. -/
theorem single_flight (run : Run timeout (stretch ++ before) w)
    (calm : Throughout (fun h e => ¬ Disturbing timeout m h e) before stretch) :
    (∀ i j, Working i m (stretch ++ before) → Working j m (stretch ++ before) → i = j) ∧
    (∀ later y j between x i earlier,
      stretch = later ++ ⟨y, .stepped j m .queried⟩ ::
        (between ++ ⟨x, .stepped i m .queried⟩ :: earlier) →
      ¬ CurrentCall i m (earlier ++ before) ∧
        CurrentCall j m (between ++ ⟨x, .stepped i m .queried⟩ :: (earlier ++ before))) ∧
    (∀ later x i cp earlier, stretch = later ++ ⟨x, .stepped i m (.stored cp true)⟩ :: earlier →
      ∀ e ∈ later, ∀ j deed, e.what = .stepped j m deed →
        ∃ notices, Served m cp deed notices) := by
  refine ⟨fun i j hi hj => ?_, fun later y j between x i earlier hs => ?_,
    fun later x i cp earlier hs => ?_⟩
  · exact (Exclusive.of_run run).unique i j m (inside_of_working run hi) (inside_of_working run hj)
  · exact queries_of_undisturbed run calm hs
  · exact served_of_undisturbed run calm hs

/-- Three calls are waiting for one module, and the first of them has missed when everything is
invalidated. -/
def invalidatedInside : List Event :=
  [⟨0, .tried 1 "app"⟩, ⟨0, .renewed 1⟩, ⟨0, .stepped 0 "app" (.lookedUp (.miss .empty))⟩,
    ⟨0, .stepped 0 "app" .entered⟩, ⟨0, .stepped 0 "app" .took⟩, ⟨0, .asked 2 "app"⟩,
    ⟨0, .asked 1 "app"⟩, ⟨0, .asked 0 "app"⟩]

/-- The first call queries in vain, the second one queries and stores, the third one is served. -/
def flightHistory : List Event :=
  [⟨0, .stepped 2 "app" (.left default)⟩, ⟨0, .stepped 2 "app" (.lookedUp (.hit default))⟩,
    ⟨0, .stepped 2 "app" .entered⟩, ⟨0, .stepped 2 "app" .took⟩,
    ⟨0, .stepped 1 "app" (.left default)⟩, ⟨0, .stepped 1 "app" (.stored default true)⟩,
    ⟨0, .stepped 1 "app" (.assembled default)⟩, ⟨0, .stepped 1 "app" .queried⟩,
    ⟨0, .stepped 1 "app" (.lookedUp (.miss .empty))⟩, ⟨0, .stepped 1 "app" .entered⟩,
    ⟨0, .stepped 1 "app" .took⟩, ⟨0, .stepped 0 "app" (.left default)⟩,
    ⟨0, .stepped 0 "app" (.stored default false)⟩, ⟨0, .stepped 0 "app" (.assembled default)⟩,
    ⟨0, .stepped 0 "app" .queried⟩]

theorem run_flightHistory :
    ∃ w, Run ⟨5⟩ (⟨0, .renewed 2⟩ :: flightHistory ++ invalidatedInside) (w : World Scripted) := by
  have hplay : ∃ w, World.quiet.performAll [] ([.ask 0 "app", .ask 1 "app", .ask 2 "app"] ++
      List.replicate 3 (.advance 0) ++ [.renew, .tryClear 1 "app"] ++
      List.replicate 4 (.advance 0) ++ List.replicate 7 (.advance 1) ++
      List.replicate 4 (.advance 2) ++ [.renew]) =
      some (⟨0, .renewed 2⟩ :: flightHistory ++ invalidatedInside, w) := ⟨_, rfl⟩
  obtain ⟨w, hp⟩ := hplay
  exact ⟨w, (Run.start _ _ _).performAll hp⟩

theorem flightHistory_undisturbed :
    Throughout (fun h e => ¬ Disturbing ⟨5⟩ "app" h e) invalidatedInside flightHistory := by
  simp [flightHistory, invalidatedInside, Throughout, disturbing_iff, Expires, Importing, Alive,
    Since.cons_iff]

theorem single_flight_across_invalidation :
    ∃ w, Run ⟨5⟩ (flightHistory ++ invalidatedInside) (w : World Scripted) ∧
      Throughout (fun h e => ¬ Disturbing ⟨5⟩ "app" h e) invalidatedInside flightHistory ∧
      (∀ i j, Working i "app" (flightHistory ++ invalidatedInside) →
        Working j "app" (flightHistory ++ invalidatedInside) → i = j) ∧
      (¬ CurrentCall 0 "app" invalidatedInside ∧
        CurrentCall 1 "app" (flightHistory.drop 8 ++ invalidatedInside)) ∧
      ∀ e ∈ flightHistory.take 5, ∀ j deed, e.what = .stepped j "app" deed →
        ∃ notices, Served "app" default deed notices := by
  obtain ⟨w, run⟩ := run_flightHistory
  obtain ⟨w₀, run₀, -⟩ := run.cons_inv
  obtain ⟨honly, hqueries, hserved⟩ := single_flight run₀ flightHistory_undisturbed
  refine ⟨w₀, run₀, flightHistory_undisturbed, honly, ?_, ?_⟩
  · exact hqueries (flightHistory.take 7) 0 1 ((flightHistory.drop 8).take 6) 0 0 [] rfl
  · exact hserved (flightHistory.take 5) 0 1 default _ rfl

/- The attempt to clear the slot ends the first invalidation, and the second one has yet to begin.
Nothing else disturbs the module in between, and it is queried twice. -/
theorem two_queries_after_invalidation :
    ∃ w, Run ⟨5⟩ (⟨0, .renewed 2⟩ :: flightHistory ++ invalidatedInside) (w : World Scripted) ∧
      Throughout (fun h e => ¬ Disturbing ⟨5⟩ "app" h e) invalidatedInside flightHistory ∧
      ∃ later between, flightHistory = later ++ ⟨0, .stepped 1 "app" .queried⟩ ::
        (between ++ [⟨0, .stepped 0 "app" .queried⟩]) := by
  obtain ⟨w, run⟩ := run_flightHistory
  exact ⟨w, run, flightHistory_undisturbed, flightHistory.take 7, (flightHistory.drop 8).take 6,
    rfl⟩

end Interleaving

end Buildpath
