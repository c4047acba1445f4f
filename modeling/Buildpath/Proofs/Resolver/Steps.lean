import Buildpath.Resolve.Resolver

/-!
# A resolution step by step

Several resolutions may run at once. Each is a sequence of atomic steps, between which anything may
happen: it takes the slot of its module, reads the generation, looks into the cache, starts the
query, assembles the answer, stores it and gives the slot back. Without an interruption the steps
are what `Resolver.resolve` does (`settle_asked`).
-/

namespace Buildpath.Resolver

variable {σ : Type}

/-- How far a resolution has come. -/
inductive Stage where
  | asked (module : String)
  | holding (module : String)
  | entered (e : CacheEntry)
  | missed (e : CacheEntry) (hadRecord : Bool) (reason : Miss)
  | waiting (p : Pass)
  | assembled (e : CacheEntry) (c : Classpath)
  | leaving (e : CacheEntry) (c : Classpath)
  | answered (c : Classpath)
deriving DecidableEq, Repr

namespace Stage

def module? : Stage → Option String
  | .asked m | .holding m => some m
  | .entered e | .missed e _ _ | .assembled e _ | .leaving e _ => some e.target
  | .waiting p => some p.entry.target
  | .answered _ => none

/-- The entry, once the generation has been read. -/
def entry? : Stage → Option CacheEntry
  | .asked _ | .holding _ | .answered _ => none
  | .entered e | .missed e _ _ | .assembled e _ | .leaving e _ => some e
  | .waiting p => some p.entry

/-- Whether the generation has yet to be read. -/
def isUnread : Stage → Bool
  | .asked _ | .holding _ => true
  | _ => false

end Stage

/-- What a step comes to. -/
inductive Deed where
  | skipped
  | took
  | entered
  | lookedUp (answer : Lookup)
  | queried
  | assembled (c : Classpath)
  | failed (f : Failure)
  | stored (c : Classpath) (kept : Bool)
  | left (c : Classpath)
deriving DecidableEq, Repr

/-- The record that the deed leaves in the slot of its module, where `r` was before. -/
def Deed.recordAfter (now : Instant) (generation : Nat) (r : Option CacheRecord) :
    Deed → Option CacheRecord
  | .lookedUp (.miss _) => none
  | .stored cp true => some ⟨cp, now, generation⟩
  | _ => r

theorem Deed.recordAfter_of_ne {now : Instant} {generation : Nat} {r : Option CacheRecord}
    {deed : Deed} (hm : ∀ reason, deed ≠ .lookedUp (.miss reason))
    (hk : ∀ cp, deed ≠ .stored cp true) : deed.recordAfter now generation r = r := by
  unfold recordAfter
  split
  · exact absurd rfl (hm _)
  · exact absurd rfl (hk _)
  · rfl

/-- The next step of a resolution. There is none after the last one, and none for the time being
while somebody else holds the slot. -/
def advance (r : Resolver σ) (now : Moment) (s : Session σ) :
    Stage → Option (Traced (Deed × Stage × Session σ))
  | .asked module =>
    if Module.isWorkspaceName module then some do
      Traced.log .debug .resolver "Workspace module has no classpath" [("module", .text module)]
      return (.skipped, .answered (.empty now.time), s)
    else if s.cache.isHeld module then none
    else some (pure (.took, .holding module, { s with cache := s.cache.hold module }))
  | .holding module => some (pure (.entered, .entered (s.cache.entry module), s))
  | .entered e =>
    match s.cache.lookup e now.instant with
    | (.hit c, cache) => some do
      Traced.emit (.cacheHit e.target)
      return (.lookedUp (.hit c), .leaving e c, { s with cache })
    | (.miss reason, cache) =>
      some (pure (.lookedUp (.miss reason), .missed e (s.cache.hasRecord e.target) reason,
        { s with cache }))
  | .missed e hadRecord reason => some do
    announce e.target hadRecord reason s.cache
    match ← Assembler.start r e.target s.scene with
    | (.error f, scene) =>
      return (.failed f, .leaving e (← fail e.target f now), { s with scene })
    | (.ok query, scene) => return (.queried, .waiting ⟨e, query⟩, { s with scene })
  | .waiting p => some do
    match ← Assembler.finish r p.query now.time s.scene with
    | (.ok c, scene) => return (.assembled c, .assembled p.entry c, { s with scene })
    | (.error f, scene) =>
      return (.failed f, .leaving p.entry (← fail p.entry.target f now), { s with scene })
  | .assembled e c => some do
    let (kept, cache) ← complete e c now s.cache
    return (.stored c kept, .leaving e c, { s with cache })
  | .leaving e c => some (pure (.left c, .answered c, leave e s))
  | .answered _ => none

/-- At most that many steps, one after the other. -/
def settle (r : Resolver σ) (now : Moment) : Nat → Stage → Session σ → Traced (Stage × Session σ)
  | 0, stage, s => pure (stage, s)
  | n + 1, stage, s =>
    match advance r now s stage with
    | none => pure (stage, s)
    | some step => do
      let (_, stage, s) ← step
      settle r now n stage s

variable (r : Resolver σ) (now : Moment) (n : Nat) (s : Session σ)

theorem settle_answered (c : Classpath) :
    settle r now n (.answered c) s = pure (.answered c, s) := by
  cases n <;> rfl

theorem settle_leaving (e : CacheEntry) (c : Classpath) :
    settle r now (n + 1) (.leaving e c) s = pure (.answered c, leave e s) := by
  cases n <;> rfl

theorem settle_waiting (p : Pass) :
    settle r now (n + 3) (.waiting p) s = do
      let (c, s) ← finish r p now s
      return (.answered c, s) := by
  simp only [settle, advance, finish, bind_assoc]
  congr 1
  funext x
  obtain ⟨answer, scene⟩ := x
  cases answer with
  | error f => simp
  | ok c => simp [settle_answered]

theorem settle_missed (e : CacheEntry) (hadRecord : Bool) (reason : Miss) :
    settle r now (n + 4) (.missed e hadRecord reason) s = do
      announce e.target hadRecord reason s.cache
      match ← startQuery r e now s with
      | (.done c, s) => return (.answered c, s)
      | (.waiting p, s) =>
        let (c, s) ← finish r p now s
        return (.answered c, s) := by
  rw [settle, advance]
  simp only [startQuery, bind_assoc]
  congr 1
  funext _
  congr 1
  funext x
  obtain ⟨answer, scene⟩ := x
  cases answer with
  | error f => simp [settle_leaving]
  | ok query => simp [settle_waiting]

/-- Without an interruption the steps are a resolution. -/
theorem settle_asked (module : String) (hfree : s.cache.isHeld module = false) :
    settle r now 7 (.asked module) s = do
      let (c, s) ← resolve r module now s
      return (.answered c, s) := by
  have henter : s.cache.enter module = (s.cache.entry module, s.cache.hold module) := rfl
  have hentry : (s.cache.hold module).entry module = s.cache.entry module := rfl
  rw [settle, advance, resolve, begin]
  by_cases hw : Module.isWorkspaceName module = true
  · simp [hw, settle_answered]
  · simp only [hw, hfree, henter, Bool.false_eq_true, if_false, pure_bind]
    rw [settle, advance]
    simp only [pure_bind]
    rw [settle, advance, hentry]
    cases hl : (s.cache.hold module).lookup (s.cache.entry module) now.instant with
    | mk answer cache =>
      cases answer with
      | hit c =>
        simp only [bind_assoc, pure_bind, settle_leaving]
        rfl
      | miss reason =>
        simp only [pure_bind, settle_missed, bind_assoc]
        congr 1
        funext _
        congr 1
        funext x
        obtain ⟨begun, s⟩ := x
        cases begun with
        | done c => rfl
        | waiting p => rfl

end Buildpath.Resolver
