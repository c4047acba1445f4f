import Buildpath.Proofs.Resolver.Blur
import Buildpath.Proofs.Resolver.Sections

/-!
# A run without some of its calls

What would have happened without a call is a run of its own: the same actions at the same times,
with changes of the surroundings where the call took its steps, so that the tool, the files and the
workspace are the same in both runs at every moment. If the call stores nothing and drops no record
that could have been served, every lookup of the other calls comes to the same in both runs
(`exists_run_without`); only the reasons for misses may differ.
-/

namespace Buildpath

namespace Cache

/-- The target has the record, and it is neither invalidated nor too old. -/
def Live (c : Cache) (now : Instant) (t : String) (r : CacheRecord) : Prop :=
  c.record? t = some r ∧ r.generation = c.generation ∧ now - r.storedAt ≤ c.timeout.nanos

theorem lookup_hit_iff_live {c : Cache} {e : CacheEntry} {cp : Classpath} {now : Instant} :
    (c.lookup e now).1 = .hit cp ↔
      c.isImporting = false ∧ ∃ r, c.Live now e.target r ∧ r.classpath = cp := by
  rw [lookup_hit_iff]
  constructor
  · rintro ⟨r, hr, hcp, himports, hgen, hage⟩
    exact ⟨himports, r, ⟨hr, hgen, hage⟩, hcp⟩
  · rintro ⟨himports, r, ⟨hr, hgen, hage⟩, hcp⟩
    exact ⟨r, hr, hcp, himports, hgen, hage⟩

theorem live_later {c : Cache} {now later : Instant} (h : now ≤ later) {t : String}
    {r : CacheRecord} :
    c.Live later t r ↔ c.Live now t r ∧ later - r.storedAt ≤ c.timeout.nanos := by
  constructor
  · rintro ⟨hr, hgen, hage⟩
    exact ⟨⟨hr, hgen, Nat.le_trans (Nat.sub_le_sub_right h _) hage⟩, hage⟩
  · rintro ⟨⟨hr, hgen, -⟩, hage⟩
    exact ⟨hr, hgen, hage⟩

theorem live_clearSlot {c : Cache} {now : Instant} {t u : String} {r : CacheRecord} :
    (c.clearSlot t).Live now u r ↔ c.Live now u r ∧ ¬ (u = t ∧ c.isHeld t = false) := by
  unfold Live
  rw [record?_clearSlot]
  by_cases h : u = t ∧ c.isHeld t = false
  · simp [h]
  · rw [if_neg h]
    exact ⟨fun hr => ⟨hr, h⟩, fun hr => hr.1⟩

/-- Only an import makes a lookup miss a record that is neither invalidated nor too old. -/
theorem importing_of_live {c : Cache} {e : CacheEntry} {now : Instant} {r : CacheRecord}
    {reason : Miss} (hr : c.Live now e.target r) (hm : (c.lookup e now).1 = .miss reason) :
    reason = .importing := by
  rcases lookup_cases c e now with ⟨hnone, -⟩ | ⟨s, -, -, hl⟩ | ⟨s, why, hs, hstale, hl⟩
  · rw [hr.1] at hnone
    cases hnone
  · rw [hl] at hm
    cases hm
  · rw [hl] at hm
    cases hm
    rw [hr.1] at hs
    cases hs
    obtain ⟨-, hgen, hage⟩ := hr
    simp only [staleness, hgen, ne_eq, not_true_eq_false, if_false, Nat.not_lt.mpr hage] at hstale
    split at hstale <;> cases hstale
    rfl

end Cache

namespace Resolver

/-- Whether the resolution has looked into the cache and has yet to give the slot back. -/
def Stage.hasLooked : Stage → Bool
  | .missed _ _ _ | .waiting _ | .assembled _ _ | .leaving _ _ => true
  | _ => false

theorem Stage.isInside_of_hasLooked {stage : Stage} (h : stage.hasLooked = true) :
    stage.isInside = true := by
  cases stage <;> first | rfl | cases h

end Resolver

namespace Interleaving

open Resolver

variable {σ : Type} {timeout : Duration} {h h' : List Event} {w w' v : World σ}
  {out : Nat → String → Bool} {shared : String → Prop}

namespace Step

variable {now : Instant} {stage stage' twin twin' : Stage} {c c' d d' : Cache} {deed deed' : Deed}
  {m t : String}

theorem isHeld_eq (hs : Step now stage c deed stage' c') (hm : stage.module? = some m)
    (t : String) : c'.isHeld t = if t = m then deed.heldAfter (c.isHeld t) else c.isHeld t := by
  have same : c'.isHeld t = c.isHeld t →
      c'.isHeld t = if t = m then c.isHeld t else c.isHeld t := fun hheld => by
    rw [ite_self, hheld]
  cases hs with
  | took _ _ =>
    cases hm
    exact c.isHeld_hold m t
  | left =>
    cases hm
    exact c.isHeld_release _ t
  | missed _ _ => exact same ((c.onlyRecords_lookup _ now).isHeld t)
  | stored _ => exact same ((c.onlyRecords_store _ _ now).isHeld t)
  | _ => exact same rfl

theorem live_of_ne (hs : Step now stage c deed stage' c') (hm : stage.module? = some m)
    (ht : t ≠ m) (r : CacheRecord) : c'.Live now t r ↔ c.Live now t r := by
  unfold Cache.Live
  rw [hs.record?_of_ne hm ht, hs.generation, hs.timeout_eq]

theorem live_blur (hs : Step now stage c deed stage' c') (hs' : Step now twin d deed' twin' d')
    (hm : stage.module? = some m) (hm' : twin.module? = some m) (hdeed : deed'.blur = deed.blur)
    (hgen : d.generation = c.generation) (htimeout : d.timeout = c.timeout)
    (hlive : ∀ r, d.Live now m r ↔ c.Live now m r) (r : CacheRecord) :
    d'.Live now m r ↔ c'.Live now m r := by
  have hrec := hs.record?_eq_recordAfter hm m
  have hrec' := hs'.record?_eq_recordAfter hm' m
  rw [if_pos rfl] at hrec hrec'
  rw [← Deed.recordAfter_blur, hdeed, hgen, Deed.recordAfter_blur] at hrec'
  unfold Cache.Live at hlive ⊢
  rw [hrec, hrec', hs.generation, hs'.generation, hs.timeout_eq, hs'.timeout_eq, hgen, htimeout]
  rw [hgen, htimeout] at hlive
  rcases deed.recordAfter_const_or now c.generation with ⟨o, hconst⟩ | hsame
  · rw [hconst, hconst]
  · rw [hsame, hsame]
    exact hlive r

theorem missed_inv {reason : Miss} (hs : Step now stage c (.lookedUp (.miss reason)) stage' c') :
    ∃ e, stage = .entered e ∧ (c.lookup e now).1 = .miss reason := by
  cases hs with
  | missed _ unserved => exact ⟨_, rfl, unserved⟩

theorem hasLooked_of_left {a : Classpath} (hs : Step now stage c (.left a) stage' c') :
    stage.hasLooked = true := by
  cases hs with
  | left => rfl

theorem hasLooked (hs : Step now stage c deed stage' c') (hl : stage'.hasLooked = true) :
    stage.hasLooked = true ∨ ∃ answer, deed = .lookedUp answer := by
  cases hs with
  | hit _ => exact Or.inr ⟨_, rfl⟩
  | missed _ _ => exact Or.inr ⟨_, rfl⟩
  | took _ _ => cases hl
  | entered => cases hl
  | skipped _ _ => cases hl
  | left => cases hl
  | _ => exact Or.inl rfl

end Step

/-- The deed stores nothing, is not served, and drops no record that is live. -/
structure Harmless (c : Cache) (now : Instant) (m : String) (deed : Deed) : Prop where
  notStored : ∀ cp, deed ≠ .stored cp true
  notServed : ∀ cp, deed ≠ .lookedUp (.hit cp)
  nothingLive : ∀ reason, deed = .lookedUp (.miss reason) → ∀ r, ¬ c.Live now m r

theorem Step.live_iff_of_harmless {now : Instant} {stage stage' : Stage} {c c' : Cache}
    {deed : Deed} {m : String} (hs : Step now stage c deed stage' c') (hm : stage.module? = some m)
    (hharm : Harmless c now m deed) (r : CacheRecord) : c'.Live now m r ↔ c.Live now m r := by
  by_cases hmissed : ∃ reason, deed = .lookedUp (.miss reason)
  · obtain ⟨reason, rfl⟩ := hmissed
    refine ⟨fun hr => ?_, fun hr => absurd hr (hharm.nothingLive reason rfl r)⟩
    have hrec := hs.record?_eq_recordAfter hm m
    rw [if_pos rfl, hr.1] at hrec
    cases hrec
  · unfold Cache.Live
    rw [hs.record?_eq m (fun reason hd => hmissed ⟨reason, hd⟩) hharm.notStored, hs.generation,
      hs.timeout_eq]

/-! ### Histories without some calls -/

def Occurrence.blur : Occurrence → Occurrence
  | .stepped i m deed => .stepped i m deed.blur
  | what => what

/-- What happens instead when the calls for which `out` holds are left out. -/
def Occurrence.without (out : Nat → String → Bool) : Occurrence → Occurrence
  | .asked i m => if out i m then .changed else .asked i m
  | .stepped i m deed => if out i m then .changed else .stepped i m deed.blur
  | what => what

def Event.blur (e : Event) : Event :=
  { e with what := e.what.blur }

def Event.without (out : Nat → String → Bool) (e : Event) : Event :=
  { e with what := e.what.without out }

def Call.blur (call : Call) : Call :=
  { call with stage := call.stage.blur }

/-- A call that is left out is for the target, at a stage of the kind. -/
def Omitted (out : Nat → String → Bool) (w : World σ) (kind : Stage → Bool) (t : String) : Prop :=
  ∃ i, out i t = true ∧ CallAt w kind i t

/-- While a call that is left out is inside at the target, the slot is free in `v` and may have been
cleared there. When such a call has looked the target up, no record of it is live in `w`. -/
structure SlotMirrors (out : Nat → String → Bool) (shared : String → Prop) (w v : World σ)
    (t : String) : Prop where
  held : ¬ Omitted out w Stage.isInside t → v.cache.isHeld t = w.cache.isHeld t
  free : Omitted out w Stage.isInside t → v.cache.isHeld t = false
  live_le : shared t → ∀ r, v.cache.Live w.now.instant t r → w.cache.Live w.now.instant t r
  live_ge : shared t → ¬ Omitted out w Stage.isInside t → ∀ r,
    w.cache.Live w.now.instant t r → v.cache.Live w.now.instant t r
  spent : shared t → Omitted out w Stage.hasLooked t → ∀ r, ¬ w.cache.Live w.now.instant t r

/-- The world `v` is what `w` would be without the calls for which `out` holds, as far as the
modules for which `shared` holds are concerned. -/
structure Mirrors (out : Nat → String → Bool) (shared : String → Prop) (w v : World σ) : Prop where
  resolver : v.resolver = w.resolver
  scene : v.session.scene = w.session.scene
  now : v.now = w.now
  guards : v.guards = w.guards
  sweeps : v.sweeps = w.sweeps
  timeout : v.cache.timeout = w.cache.timeout
  generation : v.cache.generation = w.cache.generation
  imports : v.cache.imports = w.cache.imports
  calls : ∀ i, (v.calls i).map Call.blur =
    ((w.calls i).filter fun call => !out i call.module).map Call.blur
  slots : ∀ t, SlotMirrors out shared w v t

/-- Because of an import the call drops a record of the module that could be served otherwise. -/
def Spoils (timeout : Duration) (i : Nat) (m : String) (past : List Event) (e : Event) : Prop :=
  e.what = .stepped i m (.lookedUp (.miss .importing)) ∧
    ∃ cp x, StoredAt m cp x past ∧ e.time - x ≤ timeout.nanos

/-- With the event the call stores nothing on the module, is not served, and does not spoil a
record. -/
structure Blameless (timeout : Duration) (i : Nat) (m : String) (past : List Event) (e : Event) :
    Prop where
  notStored : ∀ cp, e.what ≠ .stepped i m (.stored cp true)
  notServed : ∀ cp, e.what ≠ .stepped i m (.lookedUp (.hit cp))
  notSpoiled : ¬ Spoils timeout i m past e

theorem harmless_of_blameless (run : Run timeout h w) {i : Nat} {call : Call}
    {step : Traced (Deed × Stage × Session σ)} (here : w.calls i = some call)
    (next : advance w.resolver w.now w.session call.stage = some step)
    (hb : Blameless timeout i call.module h
      ⟨w.now.instant, .stepped i call.module step.value.1⟩) :
    Harmless w.cache w.now.instant call.module step.value.1 := by
  refine ⟨fun cp hd => hb.notStored cp (congrArg _ hd),
    fun cp hd => hb.notServed cp (congrArg _ hd), fun reason hd r hr => ?_⟩
  have hs := Sound.of_run run
  have hst := step_of_advance next
  have hmod := hs.module?_of_step here hst
  rw [hd] at hst
  obtain ⟨e, hstage, hmiss⟩ := hst.missed_inv
  have htarget : e.target = call.module := by
    rw [hstage] at hmod
    exact Option.some.inj hmod
  have himporting : reason = .importing := Cache.importing_of_live (htarget ▸ hr) hmiss
  obtain ⟨hrec, hgen, hage⟩ := hr
  rw [timeout_of_run run] at hage
  exact hb.notSpoiled ⟨by rw [hd, himporting], r.classpath, r.storedAt,
    hs.records.storedAt _ r hrec hgen, hage⟩

namespace Mirrors

theorem initial (r : Resolver σ) (scene : Scene σ) (timeout : Duration) (now : Moment) :
    Mirrors out shared (.initial r scene timeout now) (.initial r scene timeout now) :=
  ⟨rfl, rfl, rfl, rfl, rfl, rfl, rfl, rfl, fun _ => rfl, fun _ =>
    ⟨fun _ => rfl, fun _ => rfl, fun _ _ hr => hr, fun _ _ _ hr => hr,
      fun _ ⟨_, _, _, hi, _⟩ => (by cases hi)⟩⟩

theorem exists_twin (hm : Mirrors out shared w v) {i : Nat} {call : Call}
    (here : w.calls i = some call) (hin : out i call.module = false) :
    ∃ twin, v.calls i = some ⟨call.module, twin⟩ ∧ twin.blur = call.stage.blur := by
  have hcalls := hm.calls i
  rw [here, Option.filter_some] at hcalls
  simp only [hin, Bool.not_false, if_true, Option.map_some] at hcalls
  obtain ⟨⟨m, twin⟩, hi, hblur⟩ := Option.map_eq_some_iff.mp hcalls
  cases call with
  | mk m' stage =>
    injection hblur with hmod hstage
    subst hmod
    exact ⟨twin, hi, hstage⟩

theorem calls_eq_none (hm : Mirrors out shared w v) {i : Nat} (hi : w.calls i = none) :
    v.calls i = none := by
  have hcalls := hm.calls i
  rw [hi] at hcalls
  exact Option.map_eq_none_iff.mp hcalls

end Mirrors

/-! ### Calls that are left out -/

section

variable {kind : Stage → Bool} {i : Nat} {call : Call} {t : String} {stage : Stage}
  {session : Session σ}

theorem omitted_setCall_iff
    (hiff : out i t = true → (CallAt (w.setCall i call) kind i t ↔ CallAt w kind i t)) :
    Omitted out (w.setCall i call) kind t ↔ Omitted out w kind t := by
  refine exists_congr fun j => and_congr_right fun hout => ?_
  by_cases hji : j = i
  · subst hji
    exact hiff hout
  · exact CallAt.setCall_iff_of_ne hji

theorem omitted_setCall_of_new {m : String} (new : w.calls i = none) (hkind : kind stage = false) :
    Omitted out (w.setCall i ⟨m, stage⟩) kind t ↔ Omitted out w kind t := by
  refine omitted_setCall_iff fun _ => ?_
  rw [CallAt.setCall_iff, hkind]
  exact iff_of_false (fun hat => (by cases hat.2)) fun hat => hat.ne_of_new new rfl

theorem omitted_afterStep_iff (here : w.calls i = some call)
    (hin : t = call.module → out i t = false) :
    Omitted out (w.afterStep i call.module stage session) kind t ↔ Omitted out w kind t := by
  refine omitted_setCall_iff fun hout => ?_
  have hne : call.module ≠ t := by
    intro heq
    rw [hin heq.symm] at hout
    cases hout
  rw [CallAt.setCall_iff]
  exact iff_of_false (fun hat => hne hat.1) fun hat => hne ((CallAt.iff_of_calls_eq here).mp hat).1

theorem omitted_afterStep_of_kind (here : w.calls i = some call)
    (hkind : kind stage = kind call.stage) :
    Omitted out (w.afterStep i call.module stage session) kind t ↔ Omitted out w kind t := by
  refine omitted_setCall_iff fun _ => CallAt.setCall_iff.trans ?_
  rw [hkind]
  exact (CallAt.iff_of_calls_eq here).symm

theorem Omitted.isInside_of_hasLooked (ho : Omitted out w Stage.hasLooked t) :
    Omitted out w Stage.isInside t := by
  obtain ⟨i, hout, call, hi, hm, hlooked⟩ := ho
  exact ⟨i, hout, call, hi, hm, Stage.isInside_of_hasLooked hlooked⟩

theorem not_omitted_of_free (run : Run timeout h w) (hfree : w.cache.isHeld t = false) :
    ¬ Omitted out w Stage.isInside t :=
  fun ⟨i, _, hin⟩ => (Exclusive.of_run run).nobody hfree i hin

/-- Who takes a step and is not left out keeps the left-out calls outside. -/
theorem not_omitted_of_step (run : Run timeout h w) (here : w.calls i = some call)
    (hin : out i call.module = false) {deed : Deed} {c : Cache}
    (hst : Step w.now.instant call.stage w.cache deed stage c) :
    ¬ Omitted out w Stage.isInside call.module := by
  have hex := Exclusive.of_run run
  have hinside : call.stage.isInside = true → ¬ Omitted out w Stage.isInside call.module := by
    rintro hwas ⟨j, hout, hj⟩
    have hij := hex.unique j i call.module hj ⟨call, here, rfl, hwas⟩
    subst hij
    rw [hin] at hout
    cases hout
  rcases hst.section_cases ((Sound.of_run run).module?_of_step here hst) with
    ⟨-, hpass, -⟩ | ⟨-, -, hfree, -⟩ | ⟨-, hwas, -⟩
  · cases hwas : call.stage.isInside with
    | true => exact hinside hwas
    | false =>
      rintro ⟨j, -, hj⟩
      have hordinary := hex.ordinary j call.module hj
      rw [hpass hwas] at hordinary
      cases hordinary
  · exact not_omitted_of_free run hfree
  · exact hinside hwas

end

/-! ### One slot in both worlds -/

namespace SlotMirrors

variable {t : String} {w' v' : World σ}

/-- Both worlds lose the records for which `kept` does not hold. -/
theorem shrink (hm : SlotMirrors out shared w v t) (kept : CacheRecord → Prop)
    (hinside : Omitted out w' Stage.isInside t ↔ Omitted out w Stage.isInside t)
    (hlooked : Omitted out w' Stage.hasLooked t ↔ Omitted out w Stage.hasLooked t)
    (hheld : w'.cache.isHeld t = w.cache.isHeld t) (hheld' : v'.cache.isHeld t = v.cache.isHeld t)
    (hlive : ∀ r, w'.cache.Live w'.now.instant t r ↔ w.cache.Live w.now.instant t r ∧ kept r)
    (hle : ∀ r, v'.cache.Live w'.now.instant t r → v.cache.Live w.now.instant t r ∧ kept r)
    (hge : ¬ Omitted out w Stage.isInside t → ∀ r, v.cache.Live w.now.instant t r → kept r →
      v'.cache.Live w'.now.instant t r) : SlotMirrors out shared w' v' t := by
  refine ⟨fun hout => ?_, fun hin => ?_, fun ht r hr => ?_, fun ht hout r hr => ?_,
    fun ht hl r hr => ?_⟩
  · rw [hheld, hheld', hm.held (hinside.not.mp hout)]
  · rw [hheld', hm.free (hinside.mp hin)]
  · obtain ⟨hr, hkept⟩ := hle r hr
    exact (hlive r).mpr ⟨hm.live_le ht r hr, hkept⟩
  · obtain ⟨hr, hkept⟩ := (hlive r).mp hr
    have hgone := hinside.not.mp hout
    exact hge hgone r (hm.live_ge ht hgone r hr) hkept
  · exact hm.spent ht (hlooked.mp hl) r ((hlive r).mp hr).1

theorem same (hm : SlotMirrors out shared w v t)
    (hinside : Omitted out w' Stage.isInside t ↔ Omitted out w Stage.isInside t)
    (hlooked : Omitted out w' Stage.hasLooked t ↔ Omitted out w Stage.hasLooked t)
    (hheld : w'.cache.isHeld t = w.cache.isHeld t) (hheld' : v'.cache.isHeld t = v.cache.isHeld t)
    (hlive : ∀ r, w'.cache.Live w'.now.instant t r ↔ w.cache.Live w.now.instant t r)
    (hlive' : ∀ r, v'.cache.Live w'.now.instant t r ↔ v.cache.Live w.now.instant t r) :
    SlotMirrors out shared w' v' t :=
  hm.shrink (fun _ => True) hinside hlooked hheld hheld'
    (fun r => (hlive r).trans (and_iff_left trivial).symm)
    (fun r hr => ⟨(hlive' r).mp hr, trivial⟩) fun _ r hr _ => (hlive' r).mpr hr

variable {i : Nat} {call : Call} {deed deed' : Deed} {stage twin twin' : Stage}
  {session session' : Session σ}

theorem kept (hm : SlotMirrors out shared w v call.module) (run : Run timeout h w)
    (here : w.calls i = some call) (hin : out i call.module = false) (ht : shared call.module)
    (hst : Step w.now.instant call.stage w.cache deed stage session.cache)
    (hst' : Step w.now.instant twin v.cache deed' twin' session'.cache)
    (hmod' : twin.module? = some call.module) (hdeed : deed'.blur = deed.blur)
    (hgen : v.cache.generation = w.cache.generation)
    (htimeout : v.cache.timeout = w.cache.timeout) :
    SlotMirrors out shared (w.afterStep i call.module stage session)
      (v.afterStep i call.module twin' session') call.module := by
  have hmod := (Sound.of_run run).module?_of_step here hst
  have hout := not_omitted_of_step run here hin hst
  have hgone : ¬ Omitted out (w.afterStep i call.module stage session) Stage.isInside
      call.module := (omitted_afterStep_iff here fun _ => hin).not.mpr hout
  have hlive := hst.live_blur hst' hmod hmod' hdeed hgen htimeout fun r =>
    ⟨hm.live_le ht r, hm.live_ge ht hout r⟩
  refine ⟨fun _ => ?_, fun hinside => absurd hinside hgone, fun _ r => (hlive r).mp,
    fun _ _ r => (hlive r).mpr, fun _ hl => absurd hl.isInside_of_hasLooked hgone⟩
  show session'.cache.isHeld call.module = session.cache.isHeld call.module
  rw [hst'.isHeld_eq hmod', hst.isHeld_eq hmod, ← Deed.heldAfter_blur, hdeed,
    Deed.heldAfter_blur, hm.held hout]

theorem leftOut (hm : SlotMirrors out shared w v call.module) (run : Run timeout h w)
    (here : w.calls i = some call) (hout : out i call.module = true)
    (hst : Step w.now.instant call.stage w.cache deed stage session.cache)
    (hharm : shared call.module → Harmless w.cache w.now.instant call.module deed) :
    SlotMirrors out shared (w.afterStep i call.module stage session) v call.module := by
  have hmod := (Sound.of_run run).module?_of_step here hst
  have hlive : shared call.module → ∀ r, session.cache.Live w.now.instant call.module r ↔
      w.cache.Live w.now.instant call.module r := fun ht r =>
    hst.live_iff_of_harmless hmod (hharm ht) r
  have hle : shared call.module → ∀ r, v.cache.Live w.now.instant call.module r →
      session.cache.Live w.now.instant call.module r := fun ht r hr =>
    (hlive ht r).mpr (hm.live_le ht r hr)
  have hspent : shared call.module →
      Omitted out (w.afterStep i call.module stage session) Stage.hasLooked call.module →
      ∀ r, ¬ session.cache.Live w.now.instant call.module r := by
    rintro ht ⟨j, hj, hat⟩ r hr
    have hr := (hlive ht r).mp hr
    rcases hat.of_setCall with ⟨rfl, -, hl⟩ | ⟨-, hat⟩
    · rcases hst.hasLooked hl with hlooked | ⟨answer, hanswer⟩
      · exact hm.spent ht ⟨j, hj, call, here, rfl, hlooked⟩ r hr
      · cases answer with
        | hit cp => exact (hharm ht).notServed cp hanswer
        | miss reason => exact (hharm ht).nothingLive reason hanswer r hr
    · exact hm.spent ht ⟨j, hj, hat⟩ r hr
  -- The call stays where it is, goes inside, or comes out.
  rcases hst.section_cases hmod with ⟨hsame, -, -, hheld⟩ | ⟨hin, -, hfree, -⟩ |
    ⟨⟨a, hleft⟩, hwas, hgone, hheld⟩
  · have hinside : Omitted out (w.afterStep i call.module stage session) Stage.isInside
        call.module ↔ Omitted out w Stage.isInside call.module :=
      omitted_afterStep_of_kind here hsame
    refine ⟨fun h => ?_, fun h => hm.free (hinside.mp h), hle, fun ht h r hr => ?_, hspent⟩
    · exact (hm.held (hinside.not.mp h)).trans (hheld _).symm
    · exact hm.live_ge ht (hinside.not.mp h) r ((hlive ht r).mp hr)
  · have hinside : Omitted out (w.afterStep i call.module stage session) Stage.isInside
        call.module := ⟨i, hout, CallAt.setCall_iff.mpr ⟨rfl, hin⟩⟩
    have hfree' := (hm.held (not_omitted_of_free run hfree)).trans hfree
    exact ⟨fun h => absurd hinside h, fun _ => hfree', hle, fun _ h => absurd hinside h, hspent⟩
  · have hinside : Inside w i call.module := ⟨call, here, rfl, hwas⟩
    have houtside : ¬ Omitted out (w.afterStep i call.module stage session) Stage.isInside
        call.module := by
      rintro ⟨j, -, hat⟩
      rcases hat.of_setCall with ⟨-, -, hk⟩ | ⟨hne, hat⟩
      · exact absurd (hgone.symm.trans hk) Bool.false_ne_true
      · exact hne ((Exclusive.of_run run).unique j i call.module hat hinside)
    refine ⟨fun _ => ?_, fun h => absurd h houtside, hle, fun ht _ r hr => ?_, hspent⟩
    · show v.cache.isHeld call.module = session.cache.isHeld call.module
      rw [hheld, if_pos rfl]
      exact hm.free ⟨i, hout, hinside⟩
    · rw [hleft] at hst
      have hlooked : CallAt w Stage.hasLooked i call.module :=
        ⟨call, here, rfl, hst.hasLooked_of_left⟩
      exact absurd ((hlive ht r).mp hr) (hm.spent ht ⟨i, hout, hlooked⟩ r)

end SlotMirrors

/-! ### Both worlds after one event -/

namespace Mirrors

/-- A call that is not left out takes its step in both worlds. -/
theorem exists_step (hm : Mirrors out shared w v) (run : Run timeout h w) {i : Nat} {call : Call}
    {step : Traced (Deed × Stage × Session σ)} (here : w.calls i = some call)
    (next : advance w.resolver w.now w.session call.stage = some step)
    (hin : out i call.module = false) (hshared : shared call.module) :
    ∃ twin step', v.calls i = some ⟨call.module, twin⟩ ∧ twin.module? = some call.module ∧
      advance v.resolver v.now v.session twin = some step' ∧ StepsAlike step step' := by
  obtain ⟨twin, here', hblur⟩ := hm.exists_twin here hin
  have hst := step_of_advance next
  have hmod := (Sound.of_run run).module?_of_step here hst
  have hslot := hm.slots call.module
  have hout := not_omitted_of_step run here hin hst
  have himports : v.cache.isImporting = w.cache.isImporting := by
    unfold Cache.isImporting
    rw [hm.imports]
  have halike : AnswersAlike w.cache v.cache w.now.instant call.stage := by
    refine ⟨fun m he => ?_, hm.generation, himports, fun e cp he => ?_⟩
    · rw [he] at hmod
      cases hmod
      exact hslot.held hout
    · have htarget : e.target = call.module := by
        rw [he] at hmod
        exact Option.some.inj hmod
      rw [Cache.lookup_hit_iff_live, Cache.lookup_hit_iff_live, himports, htarget]
      exact and_congr_right fun _ => exists_congr fun r => and_congr_left fun _ =>
        ⟨hslot.live_le hshared r, hslot.live_ge hshared hout r⟩
  obtain ⟨step', next', hsteps⟩ := advance_alike hblur next halike
  rw [← hm.resolver, ← hm.now, ← hm.scene] at next'
  exact ⟨twin, step', here', (Stage.module?_of_blur hblur).trans hmod, next', hsteps⟩

theorem kept (hm : Mirrors out shared w v) (run : Run timeout h w) {i : Nat} {call : Call}
    {step : Traced (Deed × Stage × Session σ)} (here : w.calls i = some call)
    (next : advance w.resolver w.now w.session call.stage = some step)
    (hin : out i call.module = false) (hshared : shared call.module) :
    ∃ what v', Happening v what v' ∧ what.blur = .stepped i call.module step.value.1.blur ∧
      Mirrors out shared (w.afterStep i call.module step.value.2.1 step.value.2.2) v' := by
  obtain ⟨twin, step', here', hmod', next', hsteps⟩ := hm.exists_step run here next hin hshared
  have hst := step_of_advance next
  have hst' := step_of_advance next'
  rw [hm.now] at hst'
  have hmod := (Sound.of_run run).module?_of_step here hst
  refine ⟨_, _, .stepped here' next', congrArg (Occurrence.stepped i call.module) hsteps.deed,
    hm.resolver, hsteps.scene, hm.now, hm.guards, hm.sweeps,
    hst'.timeout_eq.trans (hm.timeout.trans hst.timeout_eq.symm),
    hst'.generation.trans (hm.generation.trans hst.generation.symm),
    hst'.imports.trans (hm.imports.trans hst.imports.symm), fun j => ?_, fun t => ?_⟩
  · rw [World.calls_setCall, World.calls_setCall]
    by_cases hj : j = i
    · subst hj
      rw [if_pos rfl, if_pos rfl, Option.filter_some]
      simp [Call.blur, hsteps.stage, hin]
    · rw [if_neg hj, if_neg hj]
      exact hm.calls j
  · by_cases ht : t = call.module
    · subst ht
      exact (hm.slots _).kept run here hin hshared hst hst' hmod' hsteps.deed hm.generation
        hm.timeout
    · have hsame : t = call.module → out i t = false := fun heq => absurd heq ht
      exact (hm.slots t).same (omitted_afterStep_iff here hsame) (omitted_afterStep_iff here hsame)
        ((hst.isHeld_eq hmod t).trans (if_neg ht)) ((hst'.isHeld_eq hmod' t).trans (if_neg ht))
        (hst.live_of_ne hmod ht) (hst'.live_of_ne hmod' ht)

/-- Where a call that is left out takes its step, the surroundings change. -/
theorem leftOut (hm : Mirrors out shared w v) (run : Run timeout h w) {i : Nat} {call : Call}
    {step : Traced (Deed × Stage × Session σ)} (here : w.calls i = some call)
    (next : advance w.resolver w.now w.session call.stage = some step)
    (hout : out i call.module = true)
    (hharm : shared call.module → Harmless w.cache w.now.instant call.module step.value.1) :
    ∃ v', Happening v .changed v' ∧
      Mirrors out shared (w.afterStep i call.module step.value.2.1 step.value.2.2) v' := by
  have hst := step_of_advance next
  have hmod := (Sound.of_run run).module?_of_step here hst
  refine ⟨_, .changed v.resolver step.value.2.2.scene, hm.resolver, rfl, hm.now, hm.guards,
    hm.sweeps, hm.timeout.trans hst.timeout_eq.symm, hm.generation.trans hst.generation.symm,
    hm.imports.trans hst.imports.symm, fun j => ?_, fun t => ?_⟩
  · have hcalls := hm.calls j
    rw [World.calls_setCall]
    by_cases hj : j = i
    · subst hj
      rw [here, Option.filter_some] at hcalls
      rw [if_pos rfl, Option.filter_some]
      simpa [hout] using hcalls
    · rw [if_neg hj]
      exact hcalls
  · by_cases ht : t = call.module
    · subst ht
      obtain ⟨held, free, live_le, live_ge, spent⟩ := (hm.slots _).leftOut run here hout hst hharm
      exact ⟨held, free, live_le, live_ge, spent⟩
    · have hsame : t = call.module → out i t = false := fun heq => absurd heq ht
      exact (hm.slots t).same (omitted_afterStep_iff here hsame) (omitted_afterStep_iff here hsame)
        ((hst.isHeld_eq hmod t).trans (if_neg ht)) rfl (hst.live_of_ne hmod ht) fun _ => .rfl

variable {i : Nat} {m : String}

theorem ask (hm : Mirrors out shared w v) (new : w.calls i = none) {calls : Nat → Option Call}
    (hcalls : ∀ j, (calls j).map Call.blur =
      (((w.setCall i ⟨m, .asked m⟩).calls j).filter fun call => !out j call.module).map Call.blur) :
    Mirrors out shared (w.setCall i ⟨m, .asked m⟩) { v with calls } :=
  { hm with
    calls := hcalls
    slots := fun t => (hm.slots t).same (omitted_setCall_of_new new rfl)
      (omitted_setCall_of_new new rfl) rfl rfl (fun _ => .rfl) fun _ => .rfl }

theorem ask_leftOut (hm : Mirrors out shared w v) (new : w.calls i = none)
    (hout : out i m = true) : Mirrors out shared (w.setCall i ⟨m, .asked m⟩) v := by
  refine hm.ask new fun j => ?_
  have hcalls := hm.calls j
  rw [World.calls_setCall]
  by_cases hj : j = i
  · subst hj
    rw [hm.calls_eq_none new, if_pos rfl, Option.filter_some]
    simp [hout]
  · rw [if_neg hj]
    exact hcalls

theorem ask_kept (hm : Mirrors out shared w v) (new : w.calls i = none) (hin : out i m = false) :
    Mirrors out shared (w.setCall i ⟨m, .asked m⟩) (v.setCall i ⟨m, .asked m⟩) := by
  refine hm.ask new fun j => ?_
  show ((v.setCall i ⟨m, .asked m⟩).calls j).map Call.blur = _
  rw [World.calls_setCall, World.calls_setCall]
  by_cases hj : j = i
  · subst hj
    rw [if_pos rfl, if_pos rfl, Option.filter_some]
    simp [hin]
  · rw [if_neg hj, if_neg hj]
    exact hm.calls j

theorem renew (hm : Mirrors out shared w v) (run : Run timeout h w) (run' : Run timeout h' v) :
    Mirrors out shared
      { w.setCache w.cache.newGeneration with
        sweeps := Function.update w.sweeps w.cache.newGeneration.generation (some []) }
      { v.setCache v.cache.newGeneration with
        sweeps := Function.update v.sweeps v.cache.newGeneration.generation (some []) } := by
  have hdead : ∀ {h : List Event} {u : World σ}, Run timeout h u → ∀ t r,
      ¬ u.cache.newGeneration.Live w.now.instant t r := by
    rintro h u run t r ⟨hr, hgen, -⟩
    have hle := (Sound.of_run run).records.le_generation t r hr
    have hnew : r.generation = u.cache.generation + 1 := hgen
    omega
  have hgen : v.cache.newGeneration.generation = w.cache.newGeneration.generation :=
    congrArg (· + 1) hm.generation
  exact { hm with
    sweeps := by
      show Function.update _ _ _ = Function.update _ _ _
      rw [hgen, hm.sweeps]
    generation := hgen
    slots := fun t => (hm.slots t).shrink (fun _ => False) .rfl .rfl rfl rfl
      (fun r => iff_of_false (hdead run t r) (·.2)) (fun r hr => absurd hr (hdead run' t r))
      fun _ _ _ hkept => hkept.elim }

theorem tryClear (hm : Mirrors out shared w v) (run : Run timeout h w) (k : Nat) (t : String)
    (tried : List String) :
    Mirrors out shared
      { w.setCache (w.cache.clearSlot t) with
        sweeps := Function.update w.sweeps k (some (t :: tried)) }
      { v.setCache (v.cache.clearSlot t) with
        sweeps := Function.update v.sweeps k (some (t :: tried)) } := by
  have hw := w.cache.onlyRecords_clearSlot t
  have hv := v.cache.onlyRecords_clearSlot t
  -- A slot that is free in `w` is free in `v`, but not the other way round.
  have hfree : w.cache.isHeld t = false → v.cache.isHeld t = false := fun hfree =>
    ((hm.slots t).held (not_omitted_of_free run hfree)).trans hfree
  exact { hm with
    sweeps := congrArg (Function.update · k (some (t :: tried))) hm.sweeps
    slots := fun u => (hm.slots u).shrink (fun _ => ¬ (u = t ∧ w.cache.isHeld t = false)) .rfl .rfl
      (hw.isHeld u) (hv.isHeld u) (fun r => Cache.live_clearSlot)
      (fun r hr => by
        obtain ⟨hr, hkept⟩ := Cache.live_clearSlot.mp hr
        exact ⟨hr, fun ⟨heq, hwas⟩ => hkept ⟨heq, hfree hwas⟩⟩)
      fun hout r hr hkept => by
        refine Cache.live_clearSlot.mpr ⟨hr, fun ⟨heq, hwas⟩ => hkept ⟨heq, ?_⟩⟩
        subst heq
        exact ((hm.slots u).held hout).symm.trans hwas }

theorem wait (hm : Mirrors out shared w v) (span : Nat) (time : Timestamp) :
    Mirrors out shared { w with now := ⟨w.now.instant + span, time⟩ }
      { v with now := ⟨v.now.instant + span, time⟩ } := by
  have hle : w.now.instant ≤ w.now.instant + span := Nat.le_add_right _ _
  exact { hm with
    now := by
      show (⟨_, _⟩ : Moment) = ⟨_, _⟩
      rw [hm.now]
    slots := fun t => (hm.slots t).shrink
      (fun r => w.now.instant + span - r.storedAt ≤ w.cache.timeout.nanos) .rfl .rfl rfl rfl
      (fun r => Cache.live_later hle) (fun r hr => hm.timeout ▸ (Cache.live_later hle).mp hr)
      fun _ r hr hage => (Cache.live_later hle).mpr ⟨hr, hm.timeout ▸ hage⟩ }

theorem happen (hm : Mirrors out shared w v) (run : Run timeout h w) (run' : Run timeout h' v)
    (hshared : ∀ i m, out i m = false → shared m) {what : Occurrence} (hh : Happening w what w')
    (hblame : ∀ i m, out i m = true → shared m →
      Blameless timeout i m h ⟨w.now.instant, what⟩) :
    ∃ what' v', Happening v what' v' ∧ what'.blur = what.without out ∧
      Mirrors out shared w' v' := by
  cases hh with
  | @asked i m new =>
    cases hout : out i m with
    | true =>
      refine ⟨_, _, .changed v.resolver v.session.scene, ?_, hm.ask_leftOut new hout⟩
      simp [Occurrence.blur, Occurrence.without, hout]
    | false =>
      refine ⟨_, _, .asked m (hm.calls_eq_none new), ?_, hm.ask_kept new hout⟩
      simp [Occurrence.blur, Occurrence.without, hout]
  | @stepped i call step here next =>
    cases hout : out i call.module with
    | true =>
      obtain ⟨v', hchange, hm'⟩ := hm.leftOut run here next hout fun hmod =>
        harmless_of_blameless run here next (hblame i call.module hout hmod)
      refine ⟨_, v', hchange, ?_, hm'⟩
      simp [Occurrence.blur, Occurrence.without, hout]
    | false =>
      obtain ⟨what', v', hstep, hblur, hm'⟩ := hm.kept run here next hout (hshared _ _ hout)
      refine ⟨what', v', hstep, ?_, hm'⟩
      simp [hblur, Occurrence.without, hout]
  | renewed =>
    refine ⟨_, _, .renewed, ?_, hm.renew run run'⟩
    exact congrArg (fun g => Occurrence.renewed (g + 1)) hm.generation
  | @tried k tried t begun new =>
    exact ⟨_, _, .tried t (hm.sweeps ▸ begun) new, rfl, hm.tryClear run k t tried⟩
  | importBegan =>
    refine ⟨_, _, .importBegan, ?_, { hm with
      guards := congrArg ImportGuards.issue hm.guards
      imports := congrArg (· + 1) hm.imports
      slots := fun t => (hm.slots t).same .rfl .rfl rfl rfl (fun _ => .rfl) fun _ => .rfl }⟩
    exact congrArg (fun g : ImportGuards => Occurrence.importBegan g.issued) hm.guards
  | @importEnded n live =>
    exact ⟨_, _, .importEnded (hm.guards ▸ live), rfl, { hm with
      guards := congrArg (ImportGuards.drop · n) hm.guards
      imports := congrArg (· - 1) hm.imports
      slots := fun t => (hm.slots t).same .rfl .rfl rfl rfl (fun _ => .rfl) fun _ => .rfl }⟩
  | waited span time => exact ⟨_, _, .waited span time, rfl, hm.wait span time⟩
  | changed resolver scene =>
    exact ⟨_, _, .changed resolver scene, rfl, { hm with
      resolver := rfl
      scene := rfl
      slots := fun t => (hm.slots t).same .rfl .rfl rfl rfl (fun _ => .rfl) fun _ => .rfl }⟩

end Mirrors

/-- Calls can be left out of a run if on the modules of interest they store nothing, are not served
and spoil no record. The surroundings change as they did before, and all that the other calls do
stays the same up to the reasons for misses. -/
theorem exists_run_without (out : Nat → String → Bool) (shared : String → Prop)
    (run : Run timeout h w) (hshared : ∀ i m, out i m = false → shared m)
    (hblame : Throughout (fun past e => ∀ i m, out i m = true → shared m →
      Blameless timeout i m past e) [] h) :
    ∃ h' v, Run timeout h' (v : World σ) ∧ h'.map Event.blur = h.map (Event.without out) ∧
      Mirrors out shared w v := by
  -- The second run is built along the first one; `Mirrors` is what every event keeps.
  induction run with
  | start r scene now => exact ⟨[], _, .start r scene now, rfl, .initial r scene timeout now⟩
  | @step h w w' _ what run hp ih =>
    rw [Throughout, List.append_nil] at hblame
    obtain ⟨h', v, run', hmap, hm⟩ := ih hblame.2
    obtain ⟨what', v', hh', hblur, hm'⟩ :=
      hm.happen run run' hshared (happening_of_perform hp) hblame.1
    refine ⟨_, v', run'.happen hh', ?_, hm'⟩
    rw [List.map_cons, List.map_cons, hmap]
    congr 1
    rw [Event.blur, Event.without, hblur, hm.now]

end Interleaving

end Buildpath
