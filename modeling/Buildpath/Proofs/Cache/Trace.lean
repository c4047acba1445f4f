import Buildpath.Proofs.Cache.Run

/-!
# The cache remembers what the trace says

Slots are cleared at an invalidation only when nobody holds them, entries and records carry
generations, and a record that may not be served is dropped when it is looked up. Together these
three keep one simple relation to the trace: the record of a target that has the present generation
is exactly what the latest successful store left standing (`RecordsFollow`), and an entry has the
present generation exactly when nothing was invalidated since it was obtained (`EntriesFollow`).
-/

namespace Buildpath.CacheRun

/-! ### Records -/

theorem undisturbing_of_ne {e : Event} {t u : String}
    (he : (∃ d, e.mark = .kept u d) ∨ e.mark = .missed u) (ht : t ≠ u) : Undisturbing t e := by
  rcases he with ⟨d, he⟩ | he
  · refine ⟨fun cp hm => ?_, by simp [he], by simp [he]⟩
    rw [he] at hm
    exact ht (Mark.kept.inj hm).1.symm
  · refine ⟨by simp [he], fun hm => ?_, by simp [he]⟩
    rw [he] at hm
    exact ht (Mark.missed.inj hm).symm

structure RecordsFollow (h : List Event) (c : Cache) : Prop where
  le_generation : ∀ t r, c.record? t = some r → r.generation ≤ c.generation
  standing_iff : ∀ t cp x, Standing t cp x h ↔ c.record? t = some ⟨cp, x, c.generation⟩
  kept_since_miss : ∀ t r, c.record? t = some r →
    Since (fun e => e.mark ≠ .missed t) (fun e => ∃ cp, e.mark = .kept t cp) h

namespace RecordsFollow

variable {h : List Event} {c c' : Cache} {e : Event}

theorem initial (timeout : Duration) : RecordsFollow [] (.empty timeout) := by
  refine ⟨fun t r hr => ?_, fun t cp x => ?_, fun t r hr => ?_⟩
  · cases hr
  · constructor
    · intro hs
      exact absurd hs Since.not_nil
    · intro hr
      cases hr
  · cases hr

theorem quiet (hf : RecordsFollow h c) (he : ∀ t, Undisturbing t e)
    (hrec : ∀ t, c'.record? t = c.record? t) (hgen : c'.generation = c.generation) :
    RecordsFollow (e :: h) c' := by
  refine ⟨fun t r hr => ?_, fun t cp x => ?_, fun t r hr => ?_⟩
  · rw [hrec] at hr
    rw [hgen]
    exact hf.le_generation t r hr
  · rw [hrec, hgen, ← hf.standing_iff]
    exact Since.cons_iff_of_hold (he t) fun hm => (he t).1 cp hm.1
  · rw [hrec] at hr
    exact .still (he t).2.1 (hf.kept_since_miss t r hr)

theorem kept (hf : RecordsFollow h c) {u : String} {d : Classpath} (he : e.mark = .kept u d)
    (hrec : ∀ t, c'.record? t = if t = u then some ⟨d, e.time, c.generation⟩ else c.record? t)
    (hgen : c'.generation = c.generation) : RecordsFollow (e :: h) c' := by
  have other : ∀ t, t ≠ u → Undisturbing t e := fun t => undisturbing_of_ne (Or.inl ⟨d, he⟩)
  refine ⟨fun t r hr => ?_, fun t cp x => ?_, fun t r hr => ?_⟩
  · rw [hrec] at hr
    rw [hgen]
    split at hr
    · cases hr
      exact Nat.le_refl _
    · exact hf.le_generation t r hr
  · rw [hrec, hgen]
    by_cases ht : t = u
    · subst ht
      have hnot : ¬ Undisturbing t e := fun hu => hu.1 d he
      unfold Standing
      rw [Since.cons_iff]
      simp [he, hnot]
    · rw [if_neg ht, ← hf.standing_iff]
      exact Since.cons_iff_of_hold (other t ht) fun hm => (other t ht).1 cp hm.1
  · rw [hrec] at hr
    by_cases ht : t = u
    · exact .now ⟨d, ht ▸ he⟩
    · rw [if_neg ht] at hr
      exact .still (other t ht).2.1 (hf.kept_since_miss t r hr)

theorem missed (hf : RecordsFollow h c) {u : String} (he : e.mark = .missed u)
    (hrec : ∀ t, c'.record? t = if t = u then none else c.record? t)
    (hgen : c'.generation = c.generation) : RecordsFollow (e :: h) c' := by
  have other : ∀ t, t ≠ u → Undisturbing t e := fun t => undisturbing_of_ne (Or.inr he)
  refine ⟨fun t r hr => ?_, fun t cp x => ?_, fun t r hr => ?_⟩
  · rw [hrec] at hr
    rw [hgen]
    split at hr
    · cases hr
    · exact hf.le_generation t r hr
  · rw [hrec, hgen]
    by_cases ht : t = u
    · subst ht
      have hnot : ¬ Undisturbing t e := fun hu => hu.2.1 he
      unfold Standing
      rw [Since.cons_iff]
      simp [he, hnot]
    · rw [if_neg ht, ← hf.standing_iff]
      exact Since.cons_iff_of_hold (other t ht) fun hm => (other t ht).1 cp hm.1
  · rw [hrec] at hr
    by_cases ht : t = u
    · rw [if_pos ht] at hr
      cases hr
    · rw [if_neg ht] at hr
      exact .still (other t ht).2.1 (hf.kept_since_miss t r hr)

-- A record that survives in a held slot has an older generation from now on, so nothing stands.
theorem invalidated (hf : RecordsFollow h c) (he : e.mark = .invalidated)
    (hrec : ∀ t r, c'.record? t = some r → c.record? t = some r)
    (hgen : c'.generation = c.generation + 1) : RecordsFollow (e :: h) c' := by
  refine ⟨fun t r hr => ?_, fun t cp x => ?_, fun t r hr => ?_⟩
  · have hle := hf.le_generation t r (hrec t r hr)
    omega
  · have hnot : ¬ Undisturbing t e := fun hu => hu.2.2 he
    unfold Standing
    rw [Since.cons_iff]
    constructor
    · rintro (⟨hm, _⟩ | ⟨hu, _⟩)
      · simp [he] at hm
      · exact absurd hu hnot
    · intro hr
      have hle := hf.le_generation t _ (hrec t _ hr)
      rw [hgen] at hle
      exact absurd hle (Nat.not_succ_le_self _)
  · exact .still (by simp [he]) (hf.kept_since_miss t r (hrec t r hr))

end RecordsFollow

/-! ### Entries -/

structure EntriesFollow (h : List Event) (entries : String → Option CacheEntry) (c : Cache) :
    Prop where
  held_iff : ∀ t, c.isHeld t = (entries t).isSome
  target_eq : ∀ t e, entries t = some e → e.target = t
  le_generation : ∀ t e, entries t = some e → e.generation ≤ c.generation
  current_iff : ∀ t e, entries t = some e → (CurrentEntry t h ↔ e.generation = c.generation)

theorem update_eq_some {entries : String → Option CacheEntry} {u t : String}
    {new : Option CacheEntry} {e : CacheEntry} (h : Function.update entries u new t = some e) :
    (t = u ∧ new = some e) ∨ (t ≠ u ∧ entries t = some e) := by
  by_cases ht : t = u
  · rw [ht, Function.update_self] at h
    exact Or.inl ⟨ht, h⟩
  · rw [Function.update_of_ne ht] at h
    exact Or.inr ⟨ht, h⟩

namespace EntriesFollow

variable {h : List Event} {entries : String → Option CacheEntry} {c c' : Cache} {ev : Event}

theorem initial (timeout : Duration) : EntriesFollow [] (fun _ => none) (.empty timeout) := by
  refine ⟨fun t => rfl, ?_, ?_, ?_⟩ <;> intro t e he <;> cases he

theorem quiet (hf : EntriesFollow h entries c) (hinv : ev.mark ≠ .invalidated)
    (hlock : ∀ t, ev.mark ≠ .locked t) (hheld : ∀ t, c'.isHeld t = c.isHeld t)
    (hgen : c'.generation = c.generation) : EntriesFollow (ev :: h) entries c' := by
  refine ⟨fun t => (hheld t).trans (hf.held_iff t), hf.target_eq, fun t e he => ?_,
    fun t e he => ?_⟩
  · rw [hgen]
    exact hf.le_generation t e he
  · rw [hgen, ← hf.current_iff t e he]
    exact Since.cons_iff_of_hold hinv (hlock t)

theorem locked (hf : EntriesFollow h entries c) {u : String} (he : ev.mark = .locked u)
    (hheld : ∀ t, c'.isHeld t = if t = u then true else c.isHeld t)
    (hgen : c'.generation = c.generation) :
    EntriesFollow (ev :: h) (Function.update entries u (some (c.entry u))) c' := by
  refine ⟨fun t => ?_, fun t e ht => ?_, fun t e ht => ?_, fun t e ht => ?_⟩
  · rw [hheld]
    by_cases h : t = u
    · simp [h]
    · simp [h, hf.held_iff]
  · rcases update_eq_some ht with ⟨rfl, hnew⟩ | ⟨_, ht⟩
    · cases hnew
      rfl
    · exact hf.target_eq t e ht
  · rw [hgen]
    rcases update_eq_some ht with ⟨rfl, hnew⟩ | ⟨_, ht⟩
    · cases hnew
      exact Nat.le_refl _
    · exact hf.le_generation t e ht
  · rw [hgen]
    rcases update_eq_some ht with ⟨rfl, hnew⟩ | ⟨hne, ht⟩
    · cases hnew
      exact ⟨fun _ => rfl, fun _ => .now he⟩
    · rw [← hf.current_iff t e ht]
      refine Since.cons_iff_of_hold (by simp [he]) fun hm => hne ?_
      rw [he] at hm
      exact (Mark.locked.inj hm).symm

theorem unlocked (hf : EntriesFollow h entries c) {u : String} (he : ev.mark = .other)
    (hheld : ∀ t, c'.isHeld t = if t = u then false else c.isHeld t)
    (hgen : c'.generation = c.generation) :
    EntriesFollow (ev :: h) (Function.update entries u none) c' := by
  have still : ∀ t e, Function.update entries u none t = some e → entries t = some e := by
    intro t e ht
    rcases update_eq_some ht with ⟨_, hnew⟩ | ⟨_, ht⟩
    · cases hnew
    · exact ht
  refine ⟨fun t => ?_, fun t e ht => hf.target_eq t e (still t e ht), fun t e ht => ?_,
    fun t e ht => ?_⟩
  · rw [hheld]
    by_cases h : t = u
    · simp [h]
    · simp [h, hf.held_iff]
  · rw [hgen]
    exact hf.le_generation t e (still t e ht)
  · rw [hgen, ← hf.current_iff t e (still t e ht)]
    exact Since.cons_iff_of_hold (by simp [he]) (by simp [he])

theorem invalidated (hf : EntriesFollow h entries c) (he : ev.mark = .invalidated)
    (hheld : ∀ t, c'.isHeld t = c.isHeld t) (hgen : c'.generation = c.generation + 1) :
    EntriesFollow (ev :: h) entries c' := by
  refine ⟨fun t => (hheld t).trans (hf.held_iff t), hf.target_eq, fun t e ht => ?_,
    fun t e ht => ?_⟩
  · have hle := hf.le_generation t e ht
    omega
  · have hle := hf.le_generation t e ht
    constructor
    · intro hs
      rcases Since.cons_iff.mp hs with hm | ⟨hm, _⟩
      · simp [he] at hm
      · exact absurd he hm
    · intro heq
      omega

end EntriesFollow

/-! ### Every action keeps the relation -/

structure Sound (timeout : Duration) (h : List Event) (s : State) : Prop where
  timeout_eq : s.cache.timeout = timeout
  guards : s.guards.Tracks s.cache fun n => Alive n h
  records : RecordsFollow h s.cache
  entries : EntriesFollow h s.entries s.cache

namespace Sound

variable {timeout : Duration} {h : List Event} {s : State} {ev : Event}

theorem initial (timeout : Duration) (now : Instant) : Sound timeout [] (.initial timeout now) :=
  ⟨rfl, ImportGuards.tracks_empty rfl fun _ => Since.not_nil, .initial timeout, .initial timeout⟩

theorem alive_cons_iff {n : Nat} (hb : ev.mark ≠ .begun n) (he : ev.mark ≠ .ended n) :
    Alive n (ev :: h) ↔ Alive n h :=
  Since.cons_iff_of_hold he hb

-- Lookups and stores, with or without an entry at hand: only the records have to be looked after.
theorem of_onlyRecords (hs : Sound timeout h s) {c : Cache} (hc : s.cache.OnlyRecords c)
    (hm : ev.mark = .other ∨ (∃ t, ev.mark = .missed t) ∨ ∃ t cp, ev.mark = .kept t cp)
    (hr : RecordsFollow (ev :: h) c) : Sound timeout (ev :: h) { s with cache := c } := by
  have hquiet : ev.mark ≠ .invalidated ∧ (∀ t, ev.mark ≠ .locked t) ∧
      (∀ n, ev.mark ≠ .begun n) ∧ ∀ n, ev.mark ≠ .ended n := by
    rcases hm with hm | ⟨t, hm⟩ | ⟨t, cp, hm⟩ <;> simp [hm]
  obtain ⟨hinv, hlock, hbegun, hended⟩ := hquiet
  refine ⟨hc.timeout.trans hs.timeout_eq, ?_, hr, ?_⟩
  · exact hs.guards.congr hc.imports fun n => alive_cons_iff (hbegun n) (hended n)
  · exact hs.entries.quiet hinv hlock hc.isHeld hc.generation

theorem undisturbing_of_mark (hk : ∀ t cp, ev.mark ≠ .kept t cp) (hm : ∀ t, ev.mark ≠ .missed t)
    (hi : ev.mark ≠ .invalidated) (t : String) : Undisturbing t ev :=
  ⟨hk t, hm t, hi⟩

theorem undisturbing_of_other (hm : ev.mark = .other) (t : String) : Undisturbing t ev :=
  undisturbing_of_mark (by simp [hm]) (by simp [hm]) (by simp [hm]) t

theorem looked (hs : Sound timeout h s) {c : Cache} {action : Action} {t : String}
    (ha : action = .lookup t ∨ action = .get t) {answer : Lookup} (hc : s.cache.OnlyRecords c)
    (hhit : ∀ cp, answer = .hit cp → ∀ u, c.record? u = s.cache.record? u)
    (hmiss : ∀ reason, answer = .miss reason →
      ∀ u, c.record? u = if u = t then none else s.cache.record? u) :
    Sound timeout (⟨s.now, action, .looked answer⟩ :: h) { s with cache := c } := by
  cases answer with
  | hit cp =>
    have hm : Event.mark ⟨s.now, action, .looked (.hit cp)⟩ = .other := by
      rcases ha with rfl | rfl <;> rfl
    exact hs.of_onlyRecords hc (Or.inl hm)
      (hs.records.quiet (undisturbing_of_other hm) (hhit cp rfl) hc.generation)
  | miss reason =>
    have hm : Event.mark ⟨s.now, action, .looked (.miss reason)⟩ = .missed t := by
      rcases ha with rfl | rfl <;> rfl
    exact hs.of_onlyRecords hc (Or.inr (Or.inl ⟨t, hm⟩))
      (hs.records.missed hm (hmiss reason rfl) hc.generation)

theorem stored (hs : Sound timeout h s) {c : Cache} {action : Action} {t : String} {cp : Classpath}
    (ha : action = .store t cp ∨ action = .put t cp) {kept : Bool} (hc : s.cache.OnlyRecords c)
    (hkept : kept = true → ∀ u, c.record? u =
      if u = t then some ⟨cp, s.now, s.cache.generation⟩ else s.cache.record? u)
    (hrefused : kept = false → ∀ u, c.record? u = s.cache.record? u) :
    Sound timeout (⟨s.now, action, .stored kept⟩ :: h) { s with cache := c } := by
  cases kept with
  | false =>
    have hm : Event.mark ⟨s.now, action, .stored false⟩ = .other := by
      rcases ha with rfl | rfl <;> rfl
    exact hs.of_onlyRecords hc (Or.inl hm)
      (hs.records.quiet (undisturbing_of_other hm) (hrefused rfl) hc.generation)
  | true =>
    have hm : Event.mark ⟨s.now, action, .stored true⟩ = .kept t cp := by
      rcases ha with rfl | rfl <;> rfl
    exact hs.of_onlyRecords hc (Or.inr (Or.inr ⟨t, cp, hm⟩))
      (hs.records.kept hm (hkept rfl) hc.generation)

theorem step {s' : State} {action : Action} {reply : Reply} (hs : Sound timeout h s)
    (hp : s.perform action = some (reply, s')) :
    Sound timeout (⟨s.now, action, reply⟩ :: h) s' := by
  cases action with
  | lock t =>
    simp only [State.perform, Cache.enter] at hp
    split at hp
    · cases hp
    · cases hp
      exact ⟨hs.timeout_eq,
        hs.guards.congr rfl fun n => alive_cons_iff (by simp [Event.mark]) (by simp [Event.mark]),
        hs.records.quiet (undisturbing_of_mark (by simp [Event.mark]) (by simp [Event.mark])
          (by simp [Event.mark])) (fun u => s.cache.record?_hold t u) rfl,
        hs.entries.locked rfl (fun u => s.cache.isHeld_hold t u) rfl⟩
  | unlock t =>
    obtain ⟨e, he, hp⟩ := Option.map_eq_some_iff.mp hp
    cases hp
    rw [hs.entries.target_eq t e he]
    exact ⟨hs.timeout_eq,
      hs.guards.congr rfl fun n => alive_cons_iff (by simp [Event.mark]) (by simp [Event.mark]),
      hs.records.quiet (undisturbing_of_other rfl) (fun u => s.cache.record?_release t u) rfl,
      hs.entries.unlocked rfl (fun u => s.cache.isHeld_release t u) rfl⟩
  | lookup t =>
    cases he : s.entries t with
    | none => simp [State.perform, he] at hp
    | some e =>
      have ht := hs.entries.target_eq t e he
      rw [State.perform_lookup he] at hp
      cases hp
      refine hs.looked (Or.inl rfl) (s.cache.onlyRecords_lookup e s.now) (fun cp hl u => ?_)
        fun reason hl u => ?_
      · rw [s.cache.lookup_of_hit e cp s.now hl]
      · rw [s.cache.record?_lookup_of_miss u e s.now hl, ht]
  | store t cp =>
    cases he : s.entries t with
    | none => simp [State.perform, he] at hp
    | some e =>
      have ht := hs.entries.target_eq t e he
      rw [State.perform_store cp he] at hp
      cases hp
      refine hs.stored (Or.inl rfl) (s.cache.onlyRecords_store e cp s.now) (fun hk u => ?_)
        fun hk u => ?_
      · rw [s.cache.record?_store_of_stored u e cp s.now hk, ht]
      · rw [s.cache.store_of_refused e cp s.now hk]
  | get t =>
    cases hf : s.cache.isHeld t with
    | true => simp [State.perform, hf] at hp
    | false =>
      rw [State.perform_get hf] at hp
      cases hp
      exact hs.looked (Or.inr rfl) (s.cache.onlyRecords_get t s.now hf)
        (fun cp hl u => s.cache.record?_get_of_hit t u cp s.now hl)
        (fun reason hl u => s.cache.record?_get_of_miss t u s.now hl)
  | put t cp =>
    cases hf : s.cache.isHeld t with
    | true => simp [State.perform, hf] at hp
    | false =>
      rw [State.perform_put cp hf] at hp
      cases hp
      exact hs.stored (Or.inr rfl) (s.cache.onlyRecords_put t cp s.now hf)
        (fun hk u => s.cache.record?_put_of_stored t u cp s.now hk)
        (fun hk u => s.cache.record?_put_of_refused t u cp s.now hk)
  | invalidateAll =>
    cases hp
    have hc := s.cache.newGeneration.onlyRecords_sweep
    exact ⟨hs.timeout_eq,
      hs.guards.congr rfl fun n => alive_cons_iff (by simp [Event.mark]) (by simp [Event.mark]),
      hs.records.invalidated rfl (fun u r hr => s.cache.newGeneration.record?_of_sweep u hr) rfl,
      hs.entries.invalidated rfl (fun u => hc.isHeld u) rfl⟩
  | beginImport =>
    cases hp
    refine ⟨hs.timeout_eq, hs.guards.issue fun n => ?_,
      hs.records.quiet (undisturbing_of_mark (by simp [Event.mark]) (by simp [Event.mark])
        (by simp [Event.mark])) (fun _ => rfl) rfl,
      hs.entries.quiet (by simp [Event.mark]) (by simp [Event.mark]) (fun _ => rfl) rfl⟩
    unfold Alive
    rw [Since.cons_iff]
    simp [Event.mark, eq_comm]
  | endImport k =>
    simp only [State.perform] at hp
    split at hp
    · rename_i hk
      cases hp
      refine ⟨hs.timeout_eq, hs.guards.drop hk fun n => ?_,
        hs.records.quiet (undisturbing_of_mark (by simp [Event.mark]) (by simp [Event.mark])
          (by simp [Event.mark])) (fun _ => rfl) rfl,
        hs.entries.quiet (by simp [Event.mark]) (by simp [Event.mark]) (fun _ => rfl) rfl⟩
      unfold Alive
      rw [Since.cons_iff]
      simp [Event.mark, eq_comm]
    · cases hp
  | wait span =>
    cases hp
    exact ⟨hs.timeout_eq,
      hs.guards.congr rfl fun n => alive_cons_iff (by simp [Event.mark]) (by simp [Event.mark]),
      hs.records.quiet (undisturbing_of_other rfl) (fun _ => rfl) rfl,
      hs.entries.quiet (by simp [Event.mark]) (by simp [Event.mark]) (fun _ => rfl) rfl⟩

theorem of_run {start : Instant} (run : Run timeout start h s) : Sound timeout h s := by
  induction run with
  | start => exact initial timeout start
  | step _ hp ih => exact ih.step hp

/-! ### What the replies say -/

theorem isImporting_eq_false_iff (hs : Sound timeout h s) :
    s.cache.isImporting = false ↔ ¬ Importing h :=
  hs.guards.isImporting_eq_false_iff

theorem stored_iff (hs : Sound timeout h s) {t : String} {e : CacheEntry}
    (he : s.entries t = some e) (cp : Classpath) :
    (s.cache.store e cp s.now).value.1 = true ↔ ¬ Importing h ∧ CurrentEntry t h := by
  rw [Cache.stored_iff, hs.isImporting_eq_false_iff, hs.entries.current_iff t e he]

theorem served_iff (hs : Sound timeout h s) (t : String) (cp : Classpath) :
    (∃ r, s.cache.record? t = some r ∧ r.classpath = cp ∧ s.cache.isImporting = false ∧
        r.generation = s.cache.generation ∧ s.now - r.storedAt ≤ s.cache.timeout.nanos) ↔
      ¬ Importing h ∧ ∃ x, Standing t cp x h ∧ s.now - x ≤ timeout.nanos := by
  rw [hs.timeout_eq]
  constructor
  · rintro ⟨r, hr, rfl, himp, hgen, hage⟩
    refine ⟨hs.isImporting_eq_false_iff.mp himp, r.storedAt, ?_, hage⟩
    rw [hs.records.standing_iff, hr, ← hgen]
  · rintro ⟨himp, x, hst, hage⟩
    have hr := (hs.records.standing_iff t cp x).mp hst
    exact ⟨_, hr, rfl, hs.isImporting_eq_false_iff.mpr himp, rfl, hage⟩

end Sound

variable {timeout : Duration} {start : Instant} {h : List Event} {s : State}

theorem record?_eq_none_after_miss {later : List Event} {ev : Event} {t : String}
    (run : Run timeout start (later ++ ev :: h) s) (hm : ev.mark = .missed t)
    (hk : ∀ e ∈ later, ∀ cp, e.mark ≠ .kept t cp) : s.cache.record? t = none := by
  cases hr : s.cache.record? t with
  | none => rfl
  | some r =>
    have hsince := (Sound.of_run run).records.kept_since_miss t r hr
    have hlater := hsince.mark_after (by simp [hm]) (by simp [hm])
    obtain ⟨e, he, cp, hcp⟩ := hlater.exists_mem
    exact absurd hcp (hk e he cp)

theorem mark_of_miss {action : Action} {t : String} {now : Instant} {reason : Miss}
    (ha : action = .lookup t ∨ action = .get t) :
    Event.mark ⟨now, action, .looked (.miss reason)⟩ = .missed t := by
  rcases ha with rfl | rfl <;> rfl

/-- Whatever has been done with a cache: a store succeeds if and only if no import guard is alive
and nothing was invalidated since its entry was obtained (a put obtains its entry just then), and a
store that fails leaves the record as it was. A lookup serves exactly the classpath of the latest
successful store, if that is still standing and not older than the timeout and no import guard is
alive; otherwise it misses, and the target has no record until the next successful store. -/
theorem cache_follows_trace (run : Run timeout start h s) (t : String) :
    (∀ e cp, s.entries t = some e →
      ∃ kept s', s.perform (.store t cp) = some (.stored kept, s') ∧
        (kept = true ↔ ¬ Importing h ∧ CurrentEntry t h) ∧
        (kept = false → s'.cache.record? t = s.cache.record? t)) ∧
    (∀ cp, s.entries t = none →
      ∃ kept s', s.perform (.put t cp) = some (.stored kept, s') ∧
        (kept = true ↔ ¬ Importing h) ∧
        (kept = false → s'.cache.record? t = s.cache.record? t)) ∧
    (∀ action, (action = .lookup t ∧ s.entries t ≠ none) ∨ (action = .get t ∧ s.entries t = none) →
      ∃ answer s', s.perform action = some (.looked answer, s') ∧
        (∀ cp, answer = .hit cp ↔
          ¬ Importing h ∧ ∃ x, Standing t cp x h ∧ s.now - x ≤ timeout.nanos) ∧
        ((∀ cp, answer ≠ .hit cp) → (∃ reason, answer = .miss reason) ∧
          ∀ later s'', Run timeout start (later ++ ⟨s.now, action, .looked answer⟩ :: h) s'' →
            (∀ ev ∈ later, ∀ cp, ev.mark ≠ .kept t cp) → s''.cache.record? t = none)) := by
  have hs := Sound.of_run run
  have free : s.entries t = none → s.cache.isHeld t = false := by
    intro hn
    rw [hs.entries.held_iff, hn]
    rfl
  refine ⟨fun e cp he => ?_, fun cp hn => ?_, fun action ha => ?_⟩
  · refine ⟨_, _, State.perform_store cp he, hs.stored_iff he cp, fun hk => ?_⟩
    rw [s.cache.store_of_refused e cp s.now hk]
  · refine ⟨_, _, State.perform_put cp (free hn), ?_, fun hk => ?_⟩
    · rw [Cache.put_stored_iff, hs.isImporting_eq_false_iff]
    · exact s.cache.record?_put_of_refused t t cp s.now hk
  · have hasks : action = .lookup t ∨ action = .get t := ha.imp (·.1) (·.1)
    have hreply : ∃ answer s', s.perform action = some (.looked answer, s') ∧
        ∀ cp, answer = .hit cp ↔
          ¬ Importing h ∧ ∃ x, Standing t cp x h ∧ s.now - x ≤ timeout.nanos := by
      rcases ha with ⟨rfl, hn⟩ | ⟨rfl, hn⟩
      · obtain ⟨e, he⟩ := Option.ne_none_iff_exists'.mp hn
        refine ⟨_, _, State.perform_lookup he, fun cp => ?_⟩
        rw [Cache.lookup_hit_iff, hs.entries.target_eq t e he]
        exact hs.served_iff t cp
      · refine ⟨_, _, State.perform_get (free hn), fun cp => ?_⟩
        rw [Cache.get_hit_iff]
        exact hs.served_iff t cp
    obtain ⟨answer, s', hp, hhit⟩ := hreply
    refine ⟨answer, s', hp, hhit, fun hmiss => ?_⟩
    cases answer with
    | hit cp => exact absurd rfl (hmiss cp)
    | miss reason =>
      exact ⟨⟨reason, rfl⟩, fun later s'' run' hk =>
        record?_eq_none_after_miss run' (mark_of_miss hasks) hk⟩

/- A record that is exactly as old as the timeout, while somebody works on another target. -/
theorem cache_follows_trace_at_timeout :
    ∃ s, Run ⟨5⟩ 0
        [⟨5, .lock "b", .done⟩, ⟨0, .wait 5, .done⟩, ⟨0, .put "a" default, .stored true⟩] s ∧
      (∃ s', s.perform (.get "a") = some (.looked (.hit default), s')) ∧
      ∃ s', s.perform (.store "b" default) = some (.stored true, s') := by
  have hplay : ∃ s, (State.initial ⟨5⟩ 0).performAll [] [.put "a" default, .wait 5, .lock "b"] =
      some ([⟨5, .lock "b", .done⟩, ⟨0, .wait 5, .done⟩, ⟨0, .put "a" default, .stored true⟩], s) ∧
      s.now = 5 ∧ s.entries "a" = none ∧ s.entries "b" = some ⟨"b", 0⟩ := by
    refine ⟨_, rfl, ?_, ?_, ?_⟩ <;> rfl
  obtain ⟨s, hp, hnow, ha, hb⟩ := hplay
  have run := Run.start.performAll hp
  refine ⟨s, run, ?_, ?_⟩
  · obtain ⟨answer, s', hq, hhit, _⟩ :=
      (cache_follows_trace run "a").2.2 (.get "a") (Or.inr ⟨rfl, ha⟩)
    have hserved : answer = .hit default := by
      refine (hhit default).mpr ⟨?_, 0, ?_, Nat.le_of_eq hnow⟩
      · simp [Importing, Alive, Since.cons_iff, Event.mark]
      · simp [Standing, Undisturbing, Since.cons_iff, Event.mark]
    exact ⟨s', hserved ▸ hq⟩
  · obtain ⟨kept, s', hq, hkept, _⟩ := (cache_follows_trace run "b").1 _ default hb
    have hstored : kept = true := by
      refine hkept.mpr ⟨?_, ?_⟩
      · simp [Importing, Alive, Since.cons_iff, Event.mark]
      · simp [CurrentEntry, Since.cons_iff, Event.mark]
    exact ⟨s', hstored ▸ hq⟩

end Buildpath.CacheRun
