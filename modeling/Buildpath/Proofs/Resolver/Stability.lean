import Buildpath.Proofs.Resolver.Sections
import Mathlib.Tactic.MkIffOfInductiveProp

/-!
# A stored classpath stays

Once a resolution has stored a classpath, it is what every resolution of the module answers until
the record expires, an invalidation begins or clears the slot, or somebody looks the module up
during an import (`stored_classpath_is_served`). In between everything else may change: a resolution
that is served asks neither the tool nor the workspace, and no step of a resolution of another
module concerns the record (`Settled`).
-/

namespace Buildpath

/-- Whether a resolution at this stage has yet to look, or has been served `cp`. -/
def Resolver.Stage.Admits (cp : Classpath) : Resolver.Stage → Prop
  | .asked _ | .holding _ | .entered _ | .answered _ => True
  | .leaving _ a => a = cp
  | .missed _ _ _ | .waiting _ | .assembled _ _ => False

namespace Interleaving

open Resolver

variable {σ : Type} {timeout : Duration} {h later : List Event} {w w' : World σ} {m : String}
  {cp : Classpath} {x : Instant}

/-! ### Steps of a call that is served -/

/-- What a call does, and what it reports, when it is served from the cache. -/
inductive Served (m : String) (cp : Classpath) : Deed → List Notice → Prop where
  | took : Served m cp .took []
  | entered : Served m cp .entered []
  | lookedUp : Served m cp (.lookedUp (.hit cp)) [.progress (.cacheHit m)]
  | left : Served m cp (.left cp) []

theorem Served.not_missed {deed : Deed} {notices : List Notice} (hs : Served m cp deed notices)
    (reason : Miss) : deed ≠ .lookedUp (.miss reason) := by
  cases hs <;> simp

theorem Served.not_stored {deed : Deed} {notices : List Notice} (hs : Served m cp deed notices)
    (d : Classpath) (kept : Bool) : deed ≠ .stored d kept := by
  cases hs <;> simp

theorem advance_served {r : Resolver σ} {now : Moment} {s : Session σ} {stage : Stage}
    {step : Traced (Deed × Stage × Session σ)} (next : advance r now s stage = some step)
    (hm : stage.module? = some m) (ordinary : Module.isWorkspaceName m = false)
    (admits : stage.Admits cp)
    (hit : ∀ e, stage = .entered e → (s.cache.lookup e now.instant).1 = .hit cp) :
    Served m cp step.value.1 step.notices ∧ step.value.2.1.Admits cp ∧
      step.value.2.2.scene = s.scene := by
  cases stage with
  | asked u =>
    cases hm
    simp only [advance, ordinary, Bool.false_eq_true, if_false] at next
    split at next
    · cases next
    · cases next
      exact ⟨.took, trivial, rfl⟩
  | holding u =>
    cases next
    exact ⟨.entered, trivial, rfl⟩
  | entered e =>
    cases hm
    have hl := hit e rfl
    simp only [advance] at next
    split at next
    · rename_i d cache heq
      rw [heq] at hl
      cases hl
      cases next
      exact ⟨.lookedUp, rfl, rfl⟩
    · rename_i reason cache heq
      rw [heq] at hl
      cases hl
  | leaving e a =>
    cases admits
    cases next
    exact ⟨.left, trivial, rfl⟩
  | answered a => cases next
  | missed _ _ _ => exact admits.elim
  | waiting _ => exact admits.elim
  | assembled _ _ => exact admits.elim

/-! ### The record stays -/

/-- The module has a record of the present generation, stored at `x`, and no call is about to store
or to answer anything else. -/
structure Settled (m : String) (cp : Classpath) (x : Instant) (w : World σ) : Prop where
  record : w.cache.record? m = some ⟨cp, x, w.cache.generation⟩
  ordinary : Module.isWorkspaceName m = false
  admits : ∀ i call, w.calls i = some call → call.module = m → call.stage.Admits cp

/-- The event is no part of an invalidation that concerns the module, and it is no lookup on it
while an import guard is alive. -/
@[mk_iff] structure Calm (m : String) (h : List Event) (e : Event) : Prop where
  notRenewed : NotRenewed e
  notTried : ∀ k, e.what ≠ .tried k m
  idle : ∀ i answer, e.what = .stepped i m (.lookedUp answer) → ¬ Importing h

/-- The clock never goes back. -/
theorem Happening.instant_le {what : Occurrence} (hh : Happening w what w') :
    w.now.instant ≤ w'.now.instant := by
  cases hh with
  | waited span time => exact Nat.le_add_right _ _
  | _ => exact Nat.le_refl _

theorem time_le_of_run (run : Run timeout h w) : ∀ e ∈ h, e.time ≤ w.now.instant := by
  refine Run.invariant (P := fun h w => ∀ e ∈ h, e.time ≤ w.now.instant)
    (fun _ _ _ _ he => absurd he List.not_mem_nil) (fun h w what w' _ ih hh e he => ?_) run
  rcases List.mem_cons.mp he with rfl | he
  · exact hh.instant_le
  · exact Nat.le_trans (ih e he) hh.instant_le

namespace Settled

theorem of_stored {p : Nat} (run : Run timeout (⟨x, .stepped p m (.stored cp true)⟩ :: h) w) :
    Settled m cp x w := by
  obtain ⟨w₀, run₀, htime, hh⟩ := run.cons_inv
  have hx : x = w₀.now.instant := htime
  obtain ⟨call, step, hi, rfl, hdeed, next, rfl⟩ := happening_stepped hh
  have hst := step_of_advance next
  have hmod := (Sound.of_run run₀).module?_of_step hi hst
  rw [hdeed] at hst
  obtain ⟨e, hbefore, hafter, hkept, hcache⟩ := hst.stored_inv
  have htarget : e.target = call.module := by
    rw [hbefore] at hmod
    exact Option.some.inj hmod
  have hin : Inside w₀ p call.module := ⟨call, hi, rfl, by rw [hbefore]; rfl⟩
  have hex := Exclusive.of_run run₀
  refine ⟨?_, hex.ordinary p _ hin, fun j k hj hmodule => ?_⟩
  · show step.value.2.2.cache.record? call.module = some ⟨cp, x, step.value.2.2.cache.generation⟩
    rw [hst.generation, hcache, Cache.record?_store_of_stored _ _ e cp _ hkept.symm, htarget,
      if_pos rfl, hx]
  · rcases World.calls_setCall_eq_some hj with ⟨-, rfl⟩ | ⟨hne, hj⟩
    · rw [hafter]
      exact rfl
    -- Whoever stores is inside, so every other call on the module is not.
    have hout : k.stage.isInside = false :=
      eq_false_of_ne_true fun hk => hne (hex.unique j p _ ⟨k, hj, hmodule, hk⟩ hin)
    cases hstage : k.stage <;> first | trivial | (rw [hstage] at hout; cases hout)

theorem lookup_eq (hs : Settled m cp x w) (himports : w.cache.isImporting = false)
    (young : w.now.instant - x ≤ w.cache.timeout.nanos) {e : CacheEntry} (he : e.target = m) :
    (w.cache.lookup e w.now.instant).1 = .hit cp := by
  refine (Cache.lookup_hit_iff _ e cp _).mpr ⟨⟨cp, x, w.cache.generation⟩, ?_, rfl, himports, rfl,
    young⟩
  rw [he, hs.record]

theorem advance (hs : Settled m cp x w) {i : Nat} {call : Call} (hi : w.calls i = some call)
    (hmod : call.module = m) (hm : call.stage.module? = some call.module)
    {step : Traced (Deed × Stage × Session σ)}
    (next : Resolver.advance w.resolver w.now w.session call.stage = some step)
    (idle : ∀ answer, step.value.1 = .lookedUp answer → w.cache.isImporting = false)
    (young : w.now.instant - x ≤ w.cache.timeout.nanos) :
    Served m cp step.value.1 step.notices ∧ step.value.2.1.Admits cp ∧
      step.value.2.2.scene = w.session.scene := by
  subst hmod
  refine advance_served next hm hs.ordinary (hs.admits i call hi rfl) fun e he => ?_
  have hst := step_of_advance next
  rw [he] at hst
  obtain ⟨answer, hanswer⟩ := hst.lookedUp_of_entered
  refine hs.lookup_eq (idle answer hanswer) young ?_
  rw [he] at hm
  exact Option.some.inj hm

theorem stepped_self (hs : Settled m cp x w) {i : Nat} {call : Call}
    {step : Traced (Deed × Stage × Session σ)}
    (next : Resolver.advance w.resolver w.now w.session call.stage = some step)
    {notices : List Notice} (served : Served m cp step.value.1 notices)
    (admits : step.value.2.1.Admits cp) :
    Settled m cp x (w.afterStep i call.module step.value.2.1 step.value.2.2) := by
  have hst := step_of_advance next
  refine ⟨?_, hs.ordinary, fun j k hj hk => ?_⟩
  · show step.value.2.2.cache.record? m = some ⟨cp, x, step.value.2.2.cache.generation⟩
    rw [hst.record?_eq m served.not_missed fun d => served.not_stored d true, hst.generation,
      hs.record]
  · rcases World.calls_setCall_eq_some hj with ⟨-, rfl⟩ | ⟨-, hj⟩
    · exact admits
    · exact hs.admits j k hj hk

theorem stepped_other (hs : Settled m cp x w) {i : Nat} {call : Call} (hmod : call.module ≠ m)
    (hm : call.stage.module? = some call.module) {step : Traced (Deed × Stage × Session σ)}
    (next : Resolver.advance w.resolver w.now w.session call.stage = some step) :
    Settled m cp x (w.afterStep i call.module step.value.2.1 step.value.2.2) := by
  have hst := step_of_advance next
  refine ⟨?_, hs.ordinary, fun j k hj hk => ?_⟩
  · show step.value.2.2.cache.record? m = some ⟨cp, x, step.value.2.2.cache.generation⟩
    rw [hst.record?_of_ne hm (Ne.symm hmod), hst.generation, hs.record]
  · rcases World.calls_setCall_eq_some hj with ⟨-, rfl⟩ | ⟨-, hj⟩
    · exact absurd hk hmod
    · exact hs.admits j k hj hk

theorem happen (hs : Settled m cp x w) (run : Run timeout h w) {what : Occurrence}
    (hh : Happening w what w') (calm : Calm m h ⟨w.now.instant, what⟩)
    (young : w.now.instant - x ≤ timeout.nanos) :
    Settled m cp x w' ∧
      ∀ i deed, what = .stepped i m deed → ∃ notices, Served m cp deed notices := by
  cases hh with
  | asked u new =>
    refine ⟨⟨hs.record, hs.ordinary, fun j k hj hk => ?_⟩, by simp⟩
    rcases World.calls_setCall_eq_some hj with ⟨-, rfl⟩ | ⟨-, hj⟩
    · trivial
    · exact hs.admits j k hj hk
  | @stepped i call step here next =>
    have hm := (Sound.of_run run).module?_of_step here (step_of_advance next)
    by_cases hmod : call.module = m
    · have himports : ∀ answer, step.value.1 = .lookedUp answer → w.cache.isImporting = false := by
        intro answer hanswer
        refine (Sound.of_run run).guards.isImporting_eq_false_iff.mpr ?_
        exact calm.idle i answer (by rw [hmod, hanswer])
      rw [← timeout_of_run run] at young
      obtain ⟨served, admits, -⟩ := hs.advance here hmod hm next himports young
      refine ⟨hs.stepped_self next served admits, fun j deed heq => ⟨step.notices, ?_⟩⟩
      cases heq
      exact served
    · refine ⟨hs.stepped_other hmod hm next, fun j deed heq => ?_⟩
      cases heq
      exact absurd rfl hmod
  | renewed => exact absurd rfl (calm.notRenewed _)
  | @tried k _ t begun new =>
    have ht : m ≠ t := by
      rintro rfl
      exact calm.notTried k rfl
    refine ⟨⟨?_, hs.ordinary, hs.admits⟩, by simp⟩
    show (w.cache.clearSlot t).record? m = _
    rw [w.cache.record?_clearSlot t m, if_neg fun hc => ht hc.1]
    exact hs.record
  | _ => exact ⟨⟨hs.record, hs.ordinary, hs.admits⟩, by simp⟩

theorem throughout {p : Nat}
    (run : Run timeout (later ++ ⟨x, .stepped p m (.stored cp true)⟩ :: h) w)
    (calm : Throughout (Calm m) (⟨x, .stepped p m (.stored cp true)⟩ :: h) later)
    (young : w.now.instant - x ≤ timeout.nanos) :
    Settled m cp x w ∧ ∀ e ∈ later, ∀ i deed, e.what = .stepped i m deed →
      ∃ notices, Served m cp deed notices := by
  -- The record was younger at every earlier moment.
  have hyoung : ∀ e ∈ later, e.time - x ≤ timeout.nanos := by
    intro e he
    have hle := time_le_of_run run e (List.mem_append_left _ he)
    exact Nat.le_trans (Nat.sub_le_sub_right hle x) young
  exact Run.throughout (P := fun h e => Calm m h e ∧ e.time - x ≤ timeout.nanos)
    (I := fun _ w => Settled m cp x w)
    (fun _ _ _ _ run hs hh hP => hs.happen run hh hP.1 hP.2) run (fun _ => of_stored)
    (calm.mono fun e he _ hcalm => ⟨hcalm, hyoung e he⟩)

/-- A resolution with nothing in between is served and leaves everything as it was. -/
theorem resolve_eq (hs : Settled m cp x w) (himports : w.cache.isImporting = false)
    (hfree : w.cache.isHeld m = false) (young : w.now.instant - x ≤ w.cache.timeout.nanos) :
    resolve w.resolver m w.now w.session = ⟨(cp, w.session), [.progress (.cacheHit m)]⟩ := by
  have hhit : ((w.session.cache.hold m).lookup (w.session.cache.entry m) w.now.instant).1 =
      .hit cp := by
    refine (Cache.lookup_hit_iff _ _ cp _).mpr ⟨⟨cp, x, w.cache.generation⟩, ?_, rfl, himports,
      rfl, young⟩
    exact (w.session.cache.record?_hold m m).trans hs.record
  have hsame := Cache.lookup_of_hit _ _ cp _ hhit
  have hback : (w.session.cache.hold m).release m = w.session.cache :=
    w.session.cache.release_hold m hs.record hfree
  have hlookup : (w.session.cache.hold m).lookup (w.session.cache.entry m) w.now.instant =
      (.hit cp, w.session.cache.hold m) := Prod.ext hhit hsame
  unfold resolve begin
  simp only [hs.ordinary, Bool.false_eq_true, if_false, Cache.enter, hlookup]
  refine Traced.ext ?_ rfl
  show (cp, leave (w.session.cache.entry m) { w.session with cache := w.session.cache.hold m }) = _
  rw [leave]
  show (cp, { w.session with cache := (w.session.cache.hold m).release m }) = _
  rw [hback]

end Settled

/-! ### What follows a store -/

/-- After a store on a module let no invalidation begin or clear the slot, let nobody look the
module up while an import guard is alive, and let no more time pass than the timeout allows. Then
whatever calls on the module have done since is what calls do that are served the stored classpath.
So is any step that a call on the module can take now, unless it is a lookup during an import, and
it leaves the tool and the workspace alone. A resolution of the module that starts and ends now
answers the stored classpath, leaves everything as it was and reports one event. -/
theorem stored_classpath_is_served {p : Nat}
    (run : Run timeout (later ++ ⟨x, .stepped p m (.stored cp true)⟩ :: h) w)
    (calm : Throughout (Calm m) (⟨x, .stepped p m (.stored cp true)⟩ :: h) later)
    (young : w.now.instant - x ≤ timeout.nanos) :
    (∀ e ∈ later, ∀ i deed, e.what = .stepped i m deed →
      ∃ notices, Served m cp deed notices) ∧
    (∀ i call step, w.calls i = some call → call.module = m →
      advance w.resolver w.now w.session call.stage = some step →
      ((∃ answer, step.value.1 = .lookedUp answer) →
        ¬ Importing (later ++ ⟨x, .stepped p m (.stored cp true)⟩ :: h)) →
      Served m cp step.value.1 step.notices ∧ step.value.2.2.scene = w.session.scene) ∧
    (¬ Importing (later ++ ⟨x, .stepped p m (.stored cp true)⟩ :: h) →
      w.cache.isHeld m = false →
      resolve w.resolver m w.now w.session = ⟨(cp, w.session), [.progress (.cacheHit m)]⟩) := by
  obtain ⟨hsettled, hserved⟩ := Settled.throughout run calm young
  have hguards := (Sound.of_run run).guards
  rw [← timeout_of_run run] at young
  refine ⟨hserved, fun i call step hi hmod next idle => ?_, fun idle hfree => ?_⟩
  · have hm := (Sound.of_run run).module?_of_step hi (step_of_advance next)
    have himports : ∀ answer, step.value.1 = .lookedUp answer → w.cache.isImporting = false :=
      fun answer hanswer => hguards.isImporting_eq_false_iff.mpr (idle ⟨answer, hanswer⟩)
    obtain ⟨served, -, scene⟩ := hsettled.advance hi hmod hm next himports young
    exact ⟨served, scene⟩
  · exact hsettled.resolve_eq (hguards.isImporting_eq_false_iff.mpr idle) hfree young

/-- A call has stored what it assembled. -/
def storedHistory : List Event :=
  [⟨0, .stepped 0 "app" (.stored default true)⟩, ⟨0, .stepped 0 "app" (.assembled default)⟩,
    ⟨0, .stepped 0 "app" .queried⟩, ⟨0, .stepped 0 "app" (.lookedUp (.miss .empty))⟩,
    ⟨0, .stepped 0 "app" .entered⟩, ⟨0, .stepped 0 "app" .took⟩, ⟨0, .asked 0 "app"⟩]

/-- The tool becomes unavailable during an import, and when the import is over and the timeout has
come another call is served. -/
def servedHistory : List Event :=
  [⟨5, .stepped 1 "app" (.left default)⟩, ⟨5, .stepped 1 "app" (.lookedUp (.hit default))⟩,
    ⟨5, .importEnded 0⟩, ⟨5, .stepped 1 "app" .entered⟩, ⟨5, .stepped 1 "app" .took⟩,
    ⟨5, .asked 1 "app"⟩, ⟨0, .waited 5⟩, ⟨0, .changed⟩, ⟨0, .importBegan 0⟩,
    ⟨0, .stepped 0 "app" (.left default)⟩]

/-- A tool that fails every query and does not know its workspace. -/
def World.broken : Scene Scripted :=
  let root : Path := ⟨['/']⟩
  ⟨{ Scripted.ofRoots ⟨root, root⟩ with
      workspaceRoot := none, queryFailure := some (.toolUnavailable "gone"), available := false },
    .empty⟩

/- The record is exactly as old as the timeout when it is served. -/
theorem stored_classpath_is_served_at_timeout :
    ∃ w, Run ⟨5⟩ (servedHistory ++ storedHistory) (w : World Scripted) ∧
      Throughout (Calm "app") storedHistory servedHistory ∧ w.now.instant - 0 ≤ 5 ∧
      (∀ e ∈ servedHistory, ∀ i deed, e.what = .stepped i "app" deed →
        ∃ notices, Served "app" default deed notices) ∧
      resolve w.resolver "app" w.now w.session =
        ⟨(default, w.session), [.progress (.cacheHit "app")]⟩ := by
  have hplay : ∃ w, World.quiet.performAll [] (.ask 0 "app" :: List.replicate 7 (.advance 0) ++
      [.beginImport, .change World.quiet.resolver World.broken, .wait 5 default, .ask 1 "app",
        .advance 1, .advance 1, .endImport 0, .advance 1, .advance 1]) =
        some (servedHistory ++ storedHistory, w) ∧
      w.now.instant = 5 ∧ w.cache.isHeld "app" = false := ⟨_, rfl, rfl, rfl⟩
  obtain ⟨w, hp, hnow, hfree⟩ := hplay
  have run := (Run.start _ _ _).performAll hp
  have calm : Throughout (Calm "app") storedHistory servedHistory := by
    simp [servedHistory, storedHistory, Throughout, calm_iff, NotRenewed, Importing, Alive,
      Since.cons_iff]
  have young : w.now.instant - 0 ≤ 5 := Nat.le_of_eq hnow
  obtain ⟨hserved, -, hresolve⟩ := stored_classpath_is_served run calm young
  refine ⟨w, run, calm, young, hserved, hresolve ?_ hfree⟩
  simp [servedHistory, Importing, Alive, Since.cons_iff]

end Interleaving

end Buildpath
