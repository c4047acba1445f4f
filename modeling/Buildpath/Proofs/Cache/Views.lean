import Buildpath.Resolve.Cache

/-!
# What each operation does to a cache

A cache is seen through four views: the record of a target, whether the target is held, the
generation and the number of imports. Every operation is described here by what it does to the
views; nothing that follows looks at the slots themselves. Most operations touch records only
(`OnlyRecords`).
-/

namespace Buildpath.Cache

variable (c : Cache) (target t : String) (e : CacheEntry) (cp : Classpath) (now : Instant)

/-! ### Slots -/

theorem record?_modifySlot (f : CacheSlot → CacheSlot) :
    (c.modifySlot target f).record? t =
      if t = target then (f ((c.slot? target).getD freshSlot)).record else c.record? t := by
  unfold record?
  rw [slot?_modifySlot]
  split <;> rfl

theorem isHeld_modifySlot (f : CacheSlot → CacheSlot) :
    (c.modifySlot target f).isHeld t =
      if t = target then (f ((c.slot? target).getD freshSlot)).held else c.isHeld t := by
  unfold isHeld
  rw [slot?_modifySlot]
  split <;> rfl

theorem record_slot : ((c.slot? target).getD freshSlot).record = c.record? target := by
  unfold record?
  cases c.slot? target <;> rfl

theorem held_slot : ((c.slot? target).getD freshSlot).held = c.isHeld target := by
  unfold isHeld
  cases c.slot? target <;> rfl

theorem record?_modifySlot_of_record {f : CacheSlot → CacheSlot}
    (hf : ∀ s, (f s).record = s.record) :
    (c.modifySlot target f).record? t = c.record? t := by
  rw [record?_modifySlot, hf, record_slot]
  split
  · rename_i h
    rw [h]
  · rfl

theorem isHeld_modifySlot_of_held {f : CacheSlot → CacheSlot} (hf : ∀ s, (f s).held = s.held) :
    (c.modifySlot target f).isHeld t = c.isHeld t := by
  rw [isHeld_modifySlot, hf, held_slot]
  split
  · rename_i h
    rw [h]
  · rfl

/-- The second cache differs from the first in its records only. -/
structure OnlyRecords (c c' : Cache) : Prop where
  timeout : c'.timeout = c.timeout
  generation : c'.generation = c.generation
  imports : c'.imports = c.imports
  isHeld : ∀ t, c'.isHeld t = c.isHeld t

theorem OnlyRecords.refl : OnlyRecords c c := ⟨rfl, rfl, rfl, fun _ => rfl⟩

theorem onlyRecords_modifySlot {f : CacheSlot → CacheSlot} (hf : ∀ s, (f s).held = s.held) :
    OnlyRecords c (c.modifySlot target f) :=
  ⟨rfl, rfl, rfl, fun t => isHeld_modifySlot_of_held c target t hf⟩

/-! ### Holding a target -/

@[simp] theorem record?_hold : (c.hold target).record? t = c.record? t :=
  record?_modifySlot_of_record c target t fun _ => rfl

theorem isHeld_hold : (c.hold target).isHeld t = if t = target then true else c.isHeld t :=
  isHeld_modifySlot c target t _

@[simp] theorem record?_release : (c.release target).record? t = c.record? t :=
  record?_modifySlot_of_record c target t fun _ => rfl

theorem isHeld_release :
    (c.release target).isHeld t = if t = target then false else c.isHeld t :=
  isHeld_modifySlot c target t _

theorem alter_of_lookup {l : List (String × CacheSlot)} {s : CacheSlot} {f : CacheSlot → CacheSlot}
    (hs : l.lookup target = some s) (hf : f s = s) : alter target f l = l := by
  induction l with
  | nil => cases hs
  | cons p rest ih =>
    obtain ⟨k, a⟩ := p
    unfold alter
    by_cases hk : k = target
    · subst hk
      rw [List.lookup_cons_self] at hs
      cases hs
      rw [if_pos rfl, hf]
    · rw [List.lookup_cons, beq_false_of_ne (Ne.symm hk)] at hs
      rw [if_neg hk, ih hs]

theorem alter_alter (f g : CacheSlot → CacheSlot) (l : List (String × CacheSlot)) :
    alter target g (alter target f l) = alter target (fun s => g (f s)) l := by
  induction l with
  | nil => simp [alter]
  | cons p rest ih =>
    obtain ⟨k, a⟩ := p
    by_cases hk : k = target
    · simp [alter, hk]
    · simp [alter, hk, ih]

/-- Giving back a slot that was there undoes taking it. -/
theorem release_hold {r : CacheRecord} (hr : c.record? target = some r)
    (hfree : c.isHeld target = false) : (c.hold target).release target = c := by
  unfold hold release modifySlot
  simp only [alter_alter]
  obtain ⟨s, hs, -⟩ := Option.bind_eq_some_iff.mp hr
  have hheld : s.held = false := by
    rw [← held_slot, hs] at hfree
    exact hfree
  rw [alter_of_lookup target hs]
  rw [← hheld]

/-! ### Imports -/

theorem isImporting_iff : c.isImporting = true ↔ 0 < c.imports := by
  simp [isImporting]

/-! ### Looking up -/

theorem record?_dropRecord :
    (c.dropRecord target).record? t = if t = target then none else c.record? t :=
  record?_modifySlot c target t _

theorem staleness_eq_none_iff (r : CacheRecord) :
    c.staleness r now = none ↔
      c.isImporting = false ∧ r.generation = c.generation ∧ now - r.storedAt ≤ c.timeout.nanos := by
  unfold staleness
  split
  · rename_i h
    simp [h]
  · rename_i h
    split
    · rename_i hg
      simp [hg]
    · rename_i hg
      have hgen : r.generation = c.generation := Decidable.not_not.mp hg
      split
      · rename_i ht
        simp only [reduceCtorEq, false_iff]
        rintro ⟨_, _, hle⟩
        exact absurd ht (Nat.not_lt.mpr hle)
      · rename_i ht
        simp [h, hgen, Nat.not_lt.mp ht]

/- The only place where a lookup is opened: there is nothing, a record is served, or a record is
dropped. -/
theorem lookup_cases :
    (c.record? e.target = none ∧ c.lookup e now = (.miss .empty, c)) ∨
    (∃ r, c.record? e.target = some r ∧ c.staleness r now = none ∧
      c.lookup e now = (.hit r.classpath, c)) ∨
    (∃ r reason, c.record? e.target = some r ∧ c.staleness r now = some reason ∧
      c.lookup e now = (.miss reason, c.dropRecord e.target)) := by
  unfold lookup
  cases hr : c.record? e.target with
  | none => exact Or.inl ⟨rfl, rfl⟩
  | some r =>
    cases hs : c.staleness r now with
    | none => exact Or.inr (Or.inl ⟨r, rfl, hs, by simp [hs]⟩)
    | some reason => exact Or.inr (Or.inr ⟨r, reason, rfl, hs, by simp [hs]⟩)

theorem lookup_hit_iff :
    (c.lookup e now).1 = .hit cp ↔
      ∃ r, c.record? e.target = some r ∧ r.classpath = cp ∧ c.isImporting = false ∧
        r.generation = c.generation ∧ now - r.storedAt ≤ c.timeout.nanos := by
  rcases lookup_cases c e now with ⟨hr, hl⟩ | ⟨r, hr, hs, hl⟩ | ⟨r, reason, hr, hs, hl⟩
  · simp [hl, hr]
  · rw [staleness_eq_none_iff] at hs
    rw [hl, hr]
    constructor
    · intro h
      exact ⟨r, rfl, Lookup.hit.inj h, hs⟩
    · rintro ⟨r', hr', hc, _⟩
      rw [Option.some.inj hr', hc]
  · rw [hl, hr]
    constructor
    · intro h
      cases h
    · rintro ⟨r', hr', _, hfresh⟩
      cases Option.some.inj hr'
      rw [(staleness_eq_none_iff c now r).mpr hfresh] at hs
      cases hs

theorem lookup_of_hit (h : (c.lookup e now).1 = .hit cp) : (c.lookup e now).2 = c := by
  rcases lookup_cases c e now with ⟨_, hl⟩ | ⟨r, _, _, hl⟩ | ⟨r, reason, _, _, hl⟩
  · rw [hl]
  · rw [hl]
  · rw [hl] at h
    cases h

theorem record?_lookup_of_miss {reason : Miss} (h : (c.lookup e now).1 = .miss reason) :
    (c.lookup e now).2.record? t = if t = e.target then none else c.record? t := by
  rcases lookup_cases c e now with ⟨hr, hl⟩ | ⟨r, _, _, hl⟩ | ⟨r, reason', _, _, hl⟩
  · rw [hl]
    split
    · rename_i ht
      rw [ht]
      exact hr
    · rfl
  · rw [hl] at h
    cases h
  · rw [hl]
    exact record?_dropRecord c e.target t

theorem onlyRecords_lookup : OnlyRecords c (c.lookup e now).2 := by
  rcases lookup_cases c e now with ⟨_, hl⟩ | ⟨r, _, _, hl⟩ | ⟨r, reason, _, _, hl⟩
  · rw [hl]
    exact .refl c
  · rw [hl]
    exact .refl c
  · rw [hl]
    exact onlyRecords_modifySlot c e.target fun _ => rfl

/-! ### Storing -/

theorem stored_iff :
    (c.store e cp now).value.1 = true ↔ c.isImporting = false ∧ e.generation = c.generation := by
  unfold store
  split
  · rename_i h
    simp [h]
  · rename_i h
    split
    · rename_i hg
      simp [hg]
    · rename_i hg
      simp [h, Decidable.not_not.mp hg]

theorem store_of_refused (h : (c.store e cp now).value.1 = false) :
    (c.store e cp now).value.2 = c := by
  revert h
  unfold store
  split
  · simp
  · split <;> simp

theorem store_of_stored (h : (c.store e cp now).value.1 = true) :
    (c.store e cp now).value.2 =
      c.modifySlot e.target fun s => { s with record := some ⟨cp, now, e.generation⟩ } := by
  revert h
  unfold store
  split
  · simp
  · split <;> simp

theorem record?_store_of_stored (h : (c.store e cp now).value.1 = true) :
    (c.store e cp now).value.2.record? t =
      if t = e.target then some ⟨cp, now, c.generation⟩ else c.record? t := by
  rw [store_of_stored c e cp now h, record?_modifySlot, ((stored_iff c e cp now).mp h).2]

theorem onlyRecords_store : OnlyRecords c (c.store e cp now).value.2 := by
  cases hs : (c.store e cp now).value.1 with
  | false =>
    rw [store_of_refused c e cp now hs]
    exact .refl c
  | true =>
    rw [store_of_stored c e cp now hs]
    exact onlyRecords_modifySlot c e.target fun _ => rfl

/-! ### Without keeping hold -/

theorem onlyRecords_release_of_hold {c c' : Cache} {target : String} (hc : c.isHeld target = false)
    (h : OnlyRecords (c.hold target) c') : OnlyRecords c (c'.release target) := by
  refine ⟨h.timeout, h.generation, h.imports, fun t => ?_⟩
  rw [isHeld_release, h.isHeld, isHeld_hold]
  split
  · rename_i ht
    rw [ht, hc]
  · rfl

theorem get_hit_iff :
    (c.get target now).1 = .hit cp ↔
      ∃ r, c.record? target = some r ∧ r.classpath = cp ∧ c.isImporting = false ∧
        r.generation = c.generation ∧ now - r.storedAt ≤ c.timeout.nanos := by
  have h := lookup_hit_iff (c.hold target) (c.entry target) cp now
  rw [record?_hold] at h
  exact h

theorem record?_get_of_hit (h : (c.get target now).1 = .hit cp) :
    (c.get target now).2.record? t = c.record? t := by
  show (((c.hold target).lookup (c.entry target) now).2.release target).record? t = _
  rw [record?_release, lookup_of_hit (c.hold target) (c.entry target) cp now h, record?_hold]

theorem record?_get_of_miss {reason : Miss} (h : (c.get target now).1 = .miss reason) :
    (c.get target now).2.record? t = if t = target then none else c.record? t := by
  show (((c.hold target).lookup (c.entry target) now).2.release target).record? t = _
  rw [record?_release, record?_lookup_of_miss (c.hold target) t (c.entry target) now h,
    record?_hold]
  rfl

theorem onlyRecords_get (hc : c.isHeld target = false) : OnlyRecords c (c.get target now).2 :=
  onlyRecords_release_of_hold hc (onlyRecords_lookup (c.hold target) (c.entry target) now)

theorem put_stored_iff :
    (c.putClasspath target cp now).value.1 = true ↔ c.isImporting = false :=
  (stored_iff (c.hold target) (c.entry target) cp now).trans (and_iff_left rfl)

theorem record?_put_of_stored (h : (c.putClasspath target cp now).value.1 = true) :
    (c.putClasspath target cp now).value.2.record? t =
      if t = target then some ⟨cp, now, c.generation⟩ else c.record? t := by
  show (((c.hold target).store (c.entry target) cp now).value.2.release target).record? t = _
  rw [record?_release, record?_store_of_stored (c.hold target) t (c.entry target) cp now h,
    record?_hold]
  rfl

theorem record?_put_of_refused (h : (c.putClasspath target cp now).value.1 = false) :
    (c.putClasspath target cp now).value.2.record? t = c.record? t := by
  show (((c.hold target).store (c.entry target) cp now).value.2.release target).record? t = _
  rw [record?_release, store_of_refused (c.hold target) (c.entry target) cp now h, record?_hold]

theorem onlyRecords_put (hc : c.isHeld target = false) :
    OnlyRecords c (c.putClasspath target cp now).value.2 :=
  onlyRecords_release_of_hold hc (onlyRecords_store (c.hold target) (c.entry target) cp now)

/-! ### Invalidating -/

theorem lookup_map (f : String → CacheSlot → CacheSlot) (slots : List (String × CacheSlot)) :
    (slots.map fun (t, s) => (t, f t s)).lookup t = (slots.lookup t).map (f t) := by
  induction slots with
  | nil => rfl
  | cons p rest ih =>
    obtain ⟨u, s⟩ := p
    by_cases h : t = u
    · subst h
      simp
    · simp [List.lookup_cons, beq_false_of_ne h, ih]

theorem record?_map_of_some (f : String → CacheSlot → CacheSlot) {r : CacheRecord}
    (hf : ∀ t s, (f t s).record = some r → s.record = some r)
    (h : ({ c with slots := c.slots.map fun (t, s) => (t, f t s) } : Cache).record? t = some r) :
    c.record? t = some r := by
  unfold record? slot? at h ⊢
  rw [lookup_map] at h
  cases hs : c.slots.lookup t with
  | none => simp [hs] at h
  | some s =>
    rw [hs] at h
    exact hf t s h

theorem onlyRecords_map (f : String → CacheSlot → CacheSlot) (hf : ∀ t s, (f t s).held = s.held) :
    OnlyRecords c { c with slots := c.slots.map fun (t, s) => (t, f t s) } := by
  refine ⟨rfl, rfl, rfl, fun t => ?_⟩
  unfold isHeld slot?
  rw [lookup_map, Option.map_map]
  congr 2
  funext s
  exact hf t s

theorem held_clearIfFree (s : CacheSlot) : (clearIfFree s).held = s.held := by
  unfold clearIfFree
  split <;> rfl

theorem record_of_clearIfFree {s : CacheSlot} {r : CacheRecord}
    (h : (clearIfFree s).record = some r) : s.record = some r := by
  unfold clearIfFree at h
  split at h
  · exact h
  · cases h

theorem record?_of_sweep {r : CacheRecord} (h : c.sweep.record? t = some r) :
    c.record? t = some r :=
  record?_map_of_some c t (fun _ => clearIfFree) (fun _ _ => record_of_clearIfFree) h

theorem onlyRecords_sweep : OnlyRecords c c.sweep :=
  onlyRecords_map c (fun _ => clearIfFree) fun _ => held_clearIfFree

theorem record?_of_clearSlot {r : CacheRecord} (h : (c.clearSlot target).record? t = some r) :
    c.record? t = some r := by
  refine record?_map_of_some c t (fun u s => if u = target then clearIfFree s else s) ?_ h
  intro u s hu
  split at hu
  · exact record_of_clearIfFree hu
  · exact hu

theorem record?_clearSlot :
    (c.clearSlot target).record? t =
      if t = target ∧ c.isHeld target = false then none else c.record? t := by
  have hslot : (c.clearSlot target).slot? t =
      (c.slot? t).map fun s => if t = target then clearIfFree s else s :=
    lookup_map t (fun u s => if u = target then clearIfFree s else s) c.slots
  unfold record? isHeld
  rw [hslot]
  by_cases ht : t = target
  · subst ht
    cases hs : c.slot? t with
    | none => simp
    | some s => cases hh : s.held <;> simp [clearIfFree, hh]
  · simp [ht]

theorem onlyRecords_clearSlot : OnlyRecords c (c.clearSlot target) := by
  refine onlyRecords_map c (fun u s => if u = target then clearIfFree s else s) fun u s => ?_
  split
  · exact held_clearIfFree s
  · rfl

end Buildpath.Cache
