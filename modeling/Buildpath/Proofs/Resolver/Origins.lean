import Buildpath.Proofs.Cache.Views
import Buildpath.Proofs.Resolver.Interleaving

/-!
# Where a served classpath comes from

A record of the present generation was stored by some resolution, and since that store nothing was
invalidated and nobody stored or missed on its module. An entry has the present generation exactly
when no invalidation began since its resolution read the generation. These two facts survive every
step of every resolution and every piece of an invalidation (`Sound`), and they say what each store
and each lookup of a run comes to.
-/

namespace Buildpath.Interleaving

open Resolver

variable {σ : Type} {timeout : Duration} {h : List Event} {w w' : World σ} {c c' : Cache}

/-! ### What a history says -/

/-- The guard was issued and has not been dropped since. -/
def Alive (n : Nat) (h : List Event) : Prop :=
  Since (fun e => e.what ≠ .importEnded n) (fun e => e.what = .importBegan n) h

def Importing (h : List Event) : Prop :=
  ∃ n, Alive n h

def NotRenewed (e : Event) : Prop :=
  ∀ k, e.what ≠ .renewed k

/-- No invalidation began since the call read the generation. -/
def CurrentCall (i : Nat) (m : String) (h : List Event) : Prop :=
  Since NotRenewed (fun e => e.what = .stepped i m .entered) h

def NotStored (m : String) (e : Event) : Prop :=
  ∀ i cp, e.what ≠ .stepped i m (.stored cp true)

/-- The latest successful store on the module was the call's, and it stored `cp`. -/
def LatestStore (p : Nat) (m : String) (cp : Classpath) (h : List Event) : Prop :=
  Since (NotStored m) (fun e => e.what = .stepped p m (.stored cp true)) h

/-- The event is no successful store on the module, no missing lookup on it and begins no
invalidation. -/
structure Undisturbing (m : String) (e : Event) : Prop where
  notStored : NotStored m e
  notMissed : ∀ i reason, e.what ≠ .stepped i m (.lookedUp (.miss reason))
  notRenewed : NotRenewed e

theorem undisturbing_of_ne {e : Event} {i : Nat} {m t : String} {deed : Deed}
    (he : e.what = .stepped i m deed) (ht : t ≠ m) : Undisturbing t e := by
  refine ⟨fun j cp hj => ?_, fun j reason hj => ?_, fun k hk => ?_⟩
  · rw [he] at hj
    cases hj
    exact ht rfl
  · rw [he] at hj
    cases hj
    exact ht rfl
  · rw [he] at hk
    cases hk

theorem undisturbing_of_deed {e : Event} {i : Nat} {m : String} {deed : Deed}
    (he : e.what = .stepped i m deed) (hstored : ∀ cp, deed ≠ .stored cp true)
    (hmissed : ∀ reason, deed ≠ .lookedUp (.miss reason)) (t : String) : Undisturbing t e := by
  refine ⟨fun j cp hj => ?_, fun j reason hj => ?_, fun k hk => ?_⟩
  · rw [he] at hj
    cases hj
    exact hstored cp rfl
  · rw [he] at hj
    cases hj
    exact hmissed reason rfl
  · rw [he] at hk
    cases hk

/-- The call stored `cp`, and nothing has disturbed it since. -/
def Standing (p : Nat) (m : String) (cp : Classpath) (h : List Event) : Prop :=
  Since (Undisturbing m) (fun e => e.what = .stepped p m (.stored cp true)) h

/-- Some call stored `cp` at `x`, and nothing has disturbed it since. -/
def StoredAt (m : String) (cp : Classpath) (x : Instant) (h : List Event) : Prop :=
  Since (Undisturbing m) (fun e => e.time = x ∧ ∃ p, e.what = .stepped p m (.stored cp true)) h

theorem StoredAt.standing {m : String} {cp : Classpath} {x : Instant} (hs : StoredAt m cp x h) :
    ∃ p, Standing p m cp h := by
  obtain ⟨later, e, earlier, rfl, ⟨-, p, he⟩, hlater⟩ := Since.iff_split.mp hs
  exact ⟨p, Since.iff_split.mpr ⟨later, e, earlier, rfl, he, hlater⟩⟩

/-! ### Records -/

structure RecordsFollow (h : List Event) (c : Cache) : Prop where
  le_generation : ∀ t r, c.record? t = some r → r.generation ≤ c.generation
  storedAt : ∀ t r, c.record? t = some r → r.generation = c.generation →
    StoredAt t r.classpath r.storedAt h

namespace RecordsFollow

variable {e : Event}

theorem initial (timeout : Duration) : RecordsFollow [] (.empty timeout) :=
  ⟨fun _ _ hr => (by cases hr), fun _ _ hr => (by cases hr)⟩

-- Clearing and dropping records only take records away, so every other event is of this kind.
theorem quiet (hf : RecordsFollow h c) (hgen : c'.generation = c.generation)
    (hrec : ∀ t r, c'.record? t = some r → c.record? t = some r ∧ Undisturbing t e) :
    RecordsFollow (e :: h) c' := by
  refine ⟨fun t r hr => ?_, fun t r hr hg => ?_⟩
  · rw [hgen]
    exact hf.le_generation t r (hrec t r hr).1
  · rw [hgen] at hg
    obtain ⟨hold, hu⟩ := hrec t r hr
    exact .still hu (hf.storedAt t r hold hg)

theorem stored (hf : RecordsFollow h c) {p : Nat} {m : String} {cp : Classpath}
    (he : e.what = .stepped p m (.stored cp true)) (hgen : c'.generation = c.generation)
    (hrec : ∀ t, c'.record? t = if t = m then some ⟨cp, e.time, c.generation⟩ else c.record? t) :
    RecordsFollow (e :: h) c' := by
  refine ⟨fun t r hr => ?_, fun t r hr hg => ?_⟩
  · rw [hrec] at hr
    rw [hgen]
    split at hr
    · cases hr
      exact Nat.le_refl _
    · exact hf.le_generation t r hr
  · rw [hrec] at hr
    rw [hgen] at hg
    by_cases ht : t = m
    · rw [if_pos ht] at hr
      cases hr
      exact .now ⟨rfl, p, ht ▸ he⟩
    · rw [if_neg ht] at hr
      exact .still (undisturbing_of_ne he ht) (hf.storedAt t r hr hg)

theorem renewed (hf : RecordsFollow h c) : RecordsFollow (e :: h) c.newGeneration := by
  have older : ∀ t r, c.newGeneration.record? t = some r →
      r.generation < c.newGeneration.generation :=
    fun t r hr => Nat.lt_succ_of_le (hf.le_generation t r hr)
  refine ⟨fun t r hr => Nat.le_of_lt (older t r hr), fun t r hr hg => ?_⟩
  exact absurd hg (Nat.ne_of_lt (older t r hr))

end RecordsFollow

/-! ### Calls -/

structure CallFollows (h : List Event) (generation i : Nat) (call : Call) : Prop where
  module_eq : ∀ m, call.stage.module? = some m → m = call.module
  le_generation : ∀ e, call.stage.entry? = some e → e.generation ≤ generation
  current_iff : ∀ e, call.stage.entry? = some e →
    (e.generation = generation ↔ CurrentCall i call.module h)
  assembled : ∀ e cp, call.stage = .assembled e cp → e.generation = generation →
    Since NotRenewed (fun ev => ev.what = .stepped i call.module (.assembled cp)) h

namespace CallFollows

variable {generation i : Nat} {call : Call} {ev : Event}

theorem asked (m : String) : CallFollows h generation i ⟨m, .asked m⟩ :=
  ⟨fun _ hm => (Option.some.inj hm).symm, fun _ he => (by cases he), fun _ he => (by cases he),
    fun _ _ hs => (by cases hs)⟩

theorem quiet (hf : CallFollows h generation i call) (hn : NotRenewed ev)
    (hi : ∀ m deed, ev.what ≠ .stepped i m deed) : CallFollows (ev :: h) generation i call := by
  refine ⟨hf.module_eq, hf.le_generation, fun e he => ?_, fun e cp hs hg => ?_⟩
  · rw [hf.current_iff e he]
    exact (Since.cons_iff_of_hold hn (hi _ _)).symm
  · exact .still hn (hf.assembled e cp hs hg)

theorem renewed (hf : CallFollows h generation i call) {k : Nat} (he : ev.what = .renewed k) :
    CallFollows (ev :: h) (generation + 1) i call := by
  refine ⟨hf.module_eq, fun e hc => ?_, fun e hc => ?_, fun e cp hs hg => ?_⟩
  · exact Nat.le_succ_of_le (hf.le_generation e hc)
  · have hle := hf.le_generation e hc
    constructor
    · intro hg
      omega
    · intro hs
      rcases Since.cons_iff.mp hs with hm | ⟨hn, _⟩
      · rw [he] at hm
        cases hm
      · exact absurd he (hn k)
  · have hle := hf.le_generation e (by rw [hs]; rfl)
    omega

theorem stepped (hf : CallFollows h c.generation i call) {now : Instant} {deed : Deed}
    {stage : Stage} (hst : Step now call.stage c deed stage c')
    (he : ev.what = .stepped i call.module deed) :
    CallFollows (ev :: h) c'.generation i ⟨call.module, stage⟩ := by
  have hn : NotRenewed ev := fun k hk => by
    rw [he] at hk
    cases hk
  rw [hst.generation]
  rcases hst.entered_or with ⟨rfl, m, hm, rfl⟩ | ⟨hd, hmod, hentry, hass⟩
  · refine ⟨fun u hu => ?_, fun e hc => ?_, fun e hc => ?_, fun e cp hs => ?_⟩
    · cases hu
      exact hf.module_eq m (by rw [hm]; rfl)
    · cases hc
      exact Nat.le_refl _
    · cases hc
      exact ⟨fun _ => .now he, fun _ => rfl⟩
    · cases hs
  · refine ⟨fun m hm => hf.module_eq m (hmod m hm), fun e hc => hf.le_generation e (hentry e hc),
      fun e hc => ?_, fun e cp hs _ => ?_⟩
    · rw [hf.current_iff e (hentry e hc)]
      refine (Since.cons_iff_of_hold hn fun hm => hd ?_).symm
      rw [he] at hm
      cases hm
      rfl
    · refine .now ?_
      rw [he, hass e cp hs]

end CallFollows

/-! ### The generation is read once -/

/-- No call of this number has read the generation. -/
def Unread (w : World σ) (i : Nat) : Prop :=
  ∀ call, w.calls i = some call → call.stage.isUnread = true

structure ReadsOnce (h : List Event) (w : World σ) : Prop where
  unread : ∀ i, Unread w i → ∀ e ∈ h, ∀ m, e.what ≠ .stepped i m .entered
  once : h.Pairwise fun later earlier =>
    ∀ i m, later.what = .stepped i m .entered → ∀ u, earlier.what ≠ .stepped i u .entered

namespace ReadsOnce

variable {ev : Event}

theorem other (hr : ReadsOnce h w) (he : ∀ i m, ev.what ≠ .stepped i m .entered)
    (hu : ∀ i, Unread w' i → Unread w i) : ReadsOnce (ev :: h) w' := by
  refine ⟨fun i hi e hm m => ?_, List.pairwise_cons.mpr ⟨fun e _ i m hi => ?_, hr.once⟩⟩
  · rcases List.mem_cons.mp hm with rfl | hm
    · exact he i m
    · exact hr.unread i (hu i hi) e hm m
  · exact absurd hi (he i m)

theorem entered (hr : ReadsOnce h w) {i : Nat} {m : String}
    (he : ev.what = .stepped i m .entered) (hi : Unread w i)
    (hu : ∀ j, Unread w' j → j ≠ i ∧ Unread w j) : ReadsOnce (ev :: h) w' := by
  refine ⟨fun j hj e hm u => ?_, List.pairwise_cons.mpr ⟨fun e hm j u hj v => ?_, hr.once⟩⟩
  · obtain ⟨hne, hj⟩ := hu j hj
    rcases List.mem_cons.mp hm with rfl | hm
    · rw [he]
      intro heq
      cases heq
      exact hne rfl
    · exact hr.unread j hj e hm u
  · rw [he] at hj
    cases hj
    exact hr.unread i hi e hm v

theorem unread_of_setCall {i j : Nat} {call : Call} (hj : Unread (w.setCall i call) j) :
    (j = i ∧ call.stage.isUnread = true) ∨ (j ≠ i ∧ Unread w j) := by
  by_cases h : j = i
  · subst h
    exact Or.inl ⟨rfl, hj call (by rw [World.calls_setCall, if_pos rfl])⟩
  · exact Or.inr ⟨h, fun k hk => hj k (by rw [World.calls_setCall, if_neg h, hk])⟩

theorem stepped (hr : ReadsOnce h w) {i : Nat} {call : Call} {now : Instant} {deed : Deed}
    {stage : Stage} {session : Session σ} (hi : w.calls i = some call)
    (hst : Step now call.stage c deed stage c') (he : ev.what = .stepped i call.module deed) :
    ReadsOnce (ev :: h) (w.afterStep i call.module stage session) := by
  have was : call.stage.isUnread = true → Unread w i := by
    intro hu k hk
    rw [hi] at hk
    cases hk
    exact hu
  rcases hst.entered_or with ⟨rfl, m, hm, hstage⟩ | ⟨hd, _⟩
  · refine hr.entered he (was (by rw [hm]; rfl)) fun j hj => ?_
    rcases unread_of_setCall hj with ⟨_, hu⟩ | hj
    · rw [hstage] at hu
      cases hu
    · exact hj
  · refine hr.other (fun j m hj => hd ?_) fun j hj => ?_
    · rw [he] at hj
      cases hj
      rfl
    · rcases unread_of_setCall hj with ⟨rfl, hu⟩ | ⟨_, hj⟩
      · exact was (hst.isUnread hu)
      · exact hj

end ReadsOnce

/-! ### Every action keeps the relation -/

structure Sound (h : List Event) (w : World σ) : Prop where
  guards : w.guards.Tracks w.cache fun n => Alive n h
  records : RecordsFollow h w.cache
  calls : ∀ i call, w.calls i = some call → CallFollows h w.cache.generation i call
  reads : ReadsOnce h w

/-- The event belongs to no resolution and begins no invalidation. -/
structure Outside (e : Event) : Prop where
  notStepped : ∀ i m deed, e.what ≠ .stepped i m deed
  notRenewed : NotRenewed e

theorem Outside.undisturbing {e : Event} (ho : Outside e) (m : String) : Undisturbing m e :=
  ⟨fun i _ => ho.notStepped i m _, fun i _ => ho.notStepped i m _, ho.notRenewed⟩

theorem alive_cons_iff {n : Nat} {e : Event} (hb : e.what ≠ .importBegan n)
    (he : e.what ≠ .importEnded n) : Alive n (e :: h) ↔ Alive n h :=
  Since.cons_iff_of_hold he hb

namespace Sound

variable {ev : Event}

theorem initial (r : Resolver σ) (scene : Scene σ) (timeout : Duration) (now : Moment) :
    Sound [] (.initial r scene timeout now) :=
  ⟨ImportGuards.tracks_empty rfl fun _ => Since.not_nil, .initial timeout,
    fun _ _ hc => (by cases hc), fun _ _ _ he => absurd he List.not_mem_nil, .nil⟩

/- Nothing but the guards can change in the eyes of the history; records may be taken away. -/
theorem outside (hs : Sound h w) (ho : Outside ev)
    (hguards : w'.guards.Tracks w'.cache fun n => Alive n (ev :: h))
    (hgen : w'.cache.generation = w.cache.generation)
    (hrec : ∀ t r, w'.cache.record? t = some r → w.cache.record? t = some r)
    (hcalls : w'.calls = w.calls) : Sound (ev :: h) w' := by
  refine ⟨hguards, hs.records.quiet hgen fun t r hr => ⟨hrec t r hr, ho.undisturbing t⟩,
    fun i call hc => ?_, hs.reads.other (fun i m => ho.notStepped i m _) fun i hu => ?_⟩
  · rw [hcalls] at hc
    rw [hgen]
    exact (hs.calls i call hc).quiet ho.notRenewed fun m deed => ho.notStepped i m deed
  · unfold Unread at hu
    rwa [hcalls] at hu

theorem idle (hs : Sound h w) (ho : Outside ev)
    (hg : ∀ n, ev.what ≠ .importBegan n ∧ ev.what ≠ .importEnded n) (hguards : w'.guards = w.guards)
    (hgen : w'.cache.generation = w.cache.generation)
    (hrec : ∀ t r, w'.cache.record? t = some r → w.cache.record? t = some r)
    (himports : w'.cache.imports = w.cache.imports) (hcalls : w'.calls = w.calls) :
    Sound (ev :: h) w' := by
  refine hs.outside ho ?_ hgen hrec hcalls
  rw [hguards]
  exact hs.guards.congr himports fun n => alive_cons_iff (hg n).1 (hg n).2

theorem asked (hs : Sound h w) {i : Nat} {m : String} (hi : w.calls i = none)
    (he : ev.what = .asked i m) : Sound (ev :: h) (w.setCall i ⟨m, .asked m⟩) := by
  have ho : Outside ev := ⟨by simp [he], by simp [NotRenewed, he]⟩
  refine ⟨hs.guards.congr rfl fun n => alive_cons_iff (by simp [he]) (by simp [he]),
    hs.records.quiet rfl fun t r hr => ⟨hr, ho.undisturbing t⟩, fun j call hc => ?_,
    hs.reads.other (fun j u => ho.notStepped j u _) fun j hu => ?_⟩
  · rcases World.calls_setCall_eq_some hc with ⟨rfl, rfl⟩ | ⟨_, hc⟩
    · exact .asked m
    · exact (hs.calls j call hc).quiet ho.notRenewed fun m deed => ho.notStepped j m deed
  · rcases ReadsOnce.unread_of_setCall hu with ⟨rfl, _⟩ | ⟨_, hj⟩
    · intro k hk
      rw [hi] at hk
      cases hk
    · exact hj

theorem renewed (hs : Sound h w) {k : Nat} (he : ev.what = .renewed k)
    (sweeps : Nat → Option (List String)) :
    Sound (ev :: h) { w.setCache w.cache.newGeneration with sweeps } :=
  ⟨hs.guards.congr rfl fun n => alive_cons_iff (by simp [he]) (by simp [he]), hs.records.renewed,
    fun i call hc => (hs.calls i call hc).renewed he,
    hs.reads.other (fun i m => by simp [he]) fun _ hu => hu⟩

/-- A call that can take a step is at a stage of its own module. -/
theorem module?_of_step (hs : Sound h w) {i : Nat} {call : Call} (hi : w.calls i = some call)
    {now : Instant} {deed : Deed} {stage : Stage} (hst : Step now call.stage c deed stage c') :
    call.stage.module? = some call.module := by
  obtain ⟨m, hm⟩ := hst.exists_module
  rw [hm, (hs.calls i call hi).module_eq m hm]

theorem recordsFollow_of_step (hs : Sound h w) {i : Nat} {call : Call} {deed : Deed} {stage : Stage}
    (hi : w.calls i = some call) (hst : Step w.now.instant call.stage w.cache deed stage c')
    (htime : ev.time = w.now.instant) (he : ev.what = .stepped i call.module deed) :
    RecordsFollow (ev :: h) c' := by
  have hrec := hst.record?_eq_recordAfter (hs.module?_of_step hi hst)
  by_cases hmissed : ∃ reason, deed = .lookedUp (.miss reason)
  · obtain ⟨reason, rfl⟩ := hmissed
    refine hs.records.quiet hst.generation fun t r hr => ?_
    rw [hrec] at hr
    by_cases ht : t = call.module
    · rw [if_pos ht] at hr
      cases hr
    · rw [if_neg ht] at hr
      exact ⟨hr, undisturbing_of_ne he ht⟩
  · have hunmissed : ∀ reason, deed ≠ .lookedUp (.miss reason) := fun reason hd =>
      hmissed ⟨reason, hd⟩
    by_cases hstored : ∃ cp, deed = .stored cp true
    · obtain ⟨cp, rfl⟩ := hstored
      refine hs.records.stored he hst.generation fun t => ?_
      rw [hrec, htime, Deed.recordAfter]
    · have hunstored : ∀ cp, deed ≠ .stored cp true := fun cp hd => hstored ⟨cp, hd⟩
      refine hs.records.quiet hst.generation fun t r hr => ?_
      rw [hrec, Deed.recordAfter_of_ne hunmissed hunstored, ite_self] at hr
      exact ⟨hr, undisturbing_of_deed he hunstored hunmissed t⟩

theorem stepped (hs : Sound h w) {i : Nat} {call : Call} {deed : Deed} {stage : Stage}
    (hi : w.calls i = some call) {session : Session σ}
    (hst : Step w.now.instant call.stage w.cache deed stage session.cache)
    (htime : ev.time = w.now.instant) (he : ev.what = .stepped i call.module deed) :
    Sound (ev :: h) (w.afterStep i call.module stage session) := by
  refine ⟨hs.guards.congr hst.imports fun n => alive_cons_iff (by simp [he]) (by simp [he]),
    hs.recordsFollow_of_step hi hst htime he, fun j k hc => ?_, hs.reads.stepped hi hst he⟩
  rcases World.calls_setCall_eq_some hc with ⟨rfl, rfl⟩ | ⟨hne, hc⟩
  · exact (hs.calls j call hi).stepped hst he
  · show CallFollows _ session.cache.generation _ _
    rw [hst.generation]
    refine (hs.calls j k hc).quiet (by simp [NotRenewed, he]) fun m d hd => hne ?_
    rw [he] at hd
    cases hd
    rfl

theorem happen {what : Occurrence} (hs : Sound h w) (hh : Happening w what w') :
    Sound (⟨w.now.instant, what⟩ :: h) w' := by
  cases hh with
  | asked m new => exact hs.asked new rfl
  | stepped here next => exact hs.stepped here (step_of_advance next) rfl rfl
  | renewed => exact hs.renewed rfl _
  | tried t begun new =>
    exact hs.idle ⟨by simp, by simp [NotRenewed]⟩ (fun n => by simp) rfl rfl
      (fun u r hr => w.cache.record?_of_clearSlot t u hr) rfl rfl
  | importBegan =>
    refine hs.outside ⟨by simp, by simp [NotRenewed]⟩ (hs.guards.issue fun n => ?_) rfl
      (fun _ _ hr => hr) rfl
    unfold Alive
    rw [Since.cons_iff]
    simp [eq_comm]
  | importEnded live =>
    refine hs.outside ⟨by simp, by simp [NotRenewed]⟩ (hs.guards.drop live fun n => ?_) rfl
      (fun _ _ hr => hr) rfl
    unfold Alive
    rw [Since.cons_iff]
    simp [eq_comm]
  | _ =>
    exact hs.idle ⟨by simp, by simp [NotRenewed]⟩ (fun n => by simp) rfl rfl (fun _ _ hr => hr)
      rfl rfl

theorem of_run (run : Run timeout h w) : Sound h w :=
  run.invariant (fun r scene now => initial r scene timeout now) fun _ _ _ _ _ hs hh => hs.happen hh

end Sound

/-! ### What stores and lookups come to -/

variable {x : Instant} {i q : Nat} {m : String} {cp : Classpath}

/-- A store succeeds if and only if no import guard is alive and no invalidation began since its
call read the generation. -/
theorem stored_iff {kept : Bool} (run : Run timeout (⟨x, .stepped i m (.stored cp kept)⟩ :: h) w) :
    kept = true ↔ ¬ Importing h ∧ CurrentCall i m h := by
  obtain ⟨w₀, run₀, -, hh⟩ := run.cons_inv
  have hs := Sound.of_run run₀
  obtain ⟨⟨module, before⟩, stage, hi, rfl, hst⟩ := hh.step
  have hf := hs.calls i _ hi
  generalize w.cache = c at hst
  cases hst with
  | @stored e _ _ =>
    rw [Cache.stored_iff, hs.guards.isImporting_eq_false_iff, hf.current_iff e rfl]
    rfl

/-- What a store that succeeds keeps was assembled after the latest invalidation had begun. -/
theorem assembled_of_stored {kept : Bool} (hk : kept = true)
    (run : Run timeout (⟨x, .stepped i m (.stored cp kept)⟩ :: h) w) :
    Since NotRenewed (fun e => e.what = .stepped i m (.assembled cp)) h := by
  have hcurrent := ((stored_iff run).mp hk).2
  obtain ⟨w₀, run₀, -, hh⟩ := run.cons_inv
  obtain ⟨⟨module, before⟩, stage, hi, rfl, hst⟩ := hh.step
  have hf := (Sound.of_run run₀).calls i _ hi
  generalize w.cache = c at hst
  cases hst with
  | @stored e _ _ => exact hf.assembled e cp rfl ((hf.current_iff e rfl).mpr hcurrent)

/-- A lookup serves what some call stored, if nothing has disturbed it since. -/
theorem standing_of_hit (run : Run timeout (⟨x, .stepped q m (.lookedUp (.hit cp))⟩ :: h) w) :
    ¬ Importing h ∧ ∃ p, Standing p m cp h := by
  obtain ⟨w₀, run₀, -, hh⟩ := run.cons_inv
  have hs := Sound.of_run run₀
  obtain ⟨⟨module, before⟩, stage, hi, rfl, hst⟩ := hh.step
  have hf := hs.calls q _ hi
  generalize w.cache = c at hst
  cases hst with
  | @hit e _ _ hl =>
    obtain ⟨r, hr, rfl, himp, hgen, _⟩ := (Cache.lookup_hit_iff _ e cp _).mp hl
    rw [hf.module_eq _ rfl] at hr
    exact ⟨hs.guards.isImporting_eq_false_iff.mp himp, (hs.records.storedAt _ r hr hgen).standing⟩

end Buildpath.Interleaving
