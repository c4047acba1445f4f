import Buildpath.Proofs.Cache.Guards
import Mathlib.Logic.Function.Basic

/-!
# Runs of a cache

A cache in use: entries are held for any number of targets at once, import guards are issued and
dropped in any order, and the clock runs. An action that would have to wait for a held target, or
that needs an entry or a guard that is not there, cannot be performed. Every event of a run keeps
the instant at which it happened and the reply.
-/

namespace Buildpath.CacheRun

/-- What can be done with a cache. -/
inductive Action where
  | lock (target : String)
  | unlock (target : String)
  | lookup (target : String)
  | store (target : String) (c : Classpath)
  | get (target : String)
  | put (target : String) (c : Classpath)
  | invalidateAll
  | beginImport
  | endImport (guard : Nat)
  | wait (span : Nat)
deriving DecidableEq, Repr

inductive Reply where
  | done
  | guard (n : Nat)
  | looked (answer : Lookup)
  | stored (kept : Bool)
deriving DecidableEq, Repr

structure Event where
  time : Instant
  action : Action
  reply : Reply
deriving DecidableEq, Repr

/-- The cache, the clock, the entries that are held and the guards that are alive. -/
structure State where
  cache : Cache
  now : Instant
  entries : String → Option CacheEntry
  guards : ImportGuards

namespace State

def initial (timeout : Duration) (now : Instant) : State :=
  ⟨.empty timeout, now, fun _ => none, .empty⟩

def perform (s : State) : Action → Option (Reply × State)
  | .lock t =>
    if s.cache.isHeld t then none
    else
      let (e, cache) := s.cache.enter t
      some (.done, { s with cache, entries := Function.update s.entries t (some e) })
  | .unlock t =>
    (s.entries t).map fun e =>
      (.done, { s with
        cache := s.cache.release e.target
        entries := Function.update s.entries t none })
  | .lookup t =>
    (s.entries t).map fun e =>
      let (answer, cache) := s.cache.lookup e s.now
      (.looked answer, { s with cache })
  | .store t c =>
    (s.entries t).map fun e =>
      let (kept, cache) := (s.cache.store e c s.now).value
      (.stored kept, { s with cache })
  | .get t =>
    if s.cache.isHeld t then none
    else
      let (answer, cache) := s.cache.get t s.now
      some (.looked answer, { s with cache })
  | .put t c =>
    if s.cache.isHeld t then none
    else
      let (kept, cache) := (s.cache.putClasspath t c s.now).value
      some (.stored kept, { s with cache })
  | .invalidateAll => some (.done, { s with cache := s.cache.invalidateAll.value })
  | .beginImport =>
    some (.guard s.guards.issued,
      { s with cache := s.cache.beginImport, guards := s.guards.issue })
  | .endImport n =>
    if n ∈ s.guards.live then
      some (.done, { s with cache := s.cache.endImport, guards := s.guards.drop n })
    else none
  | .wait span => some (.done, { s with now := s.now + span })

variable {s : State} {t : String} {e : CacheEntry}

theorem perform_lookup (he : s.entries t = some e) :
    s.perform (.lookup t) =
      some (.looked (s.cache.lookup e s.now).1,
        { s with cache := (s.cache.lookup e s.now).2 }) := by
  simp only [perform, he, Option.map_some]

theorem perform_store (c : Classpath) (he : s.entries t = some e) :
    s.perform (.store t c) =
      some (.stored (s.cache.store e c s.now).value.1,
        { s with cache := (s.cache.store e c s.now).value.2 }) := by
  simp only [perform, he, Option.map_some]

theorem perform_get (hf : s.cache.isHeld t = false) :
    s.perform (.get t) =
      some (.looked (s.cache.get t s.now).1, { s with cache := (s.cache.get t s.now).2 }) := by
  simp only [perform, hf, Bool.false_eq_true, if_false]

theorem perform_put (c : Classpath) (hf : s.cache.isHeld t = false) :
    s.perform (.put t c) =
      some (.stored (s.cache.putClasspath t c s.now).value.1,
        { s with cache := (s.cache.putClasspath t c s.now).value.2 }) := by
  simp only [perform, hf, Bool.false_eq_true, if_false]

end State

/-- The runs of a new cache, with their events, the latest one first. -/
inductive Run (timeout : Duration) (start : Instant) : List Event → State → Prop where
  | start : Run timeout start [] (.initial timeout start)
  | step {h : List Event} {s s' : State} {action : Action} {reply : Reply} :
    Run timeout start h s → s.perform action = some (reply, s') →
    Run timeout start (⟨s.now, action, reply⟩ :: h) s'

/-- Performs the actions one after the other, after the events of `h`. -/
def State.performAll (h : List Event) (s : State) : List Action → Option (List Event × State)
  | [] => some (h, s)
  | action :: rest =>
    match s.perform action with
    | none => none
    | some (reply, s') => s'.performAll (⟨s.now, action, reply⟩ :: h) rest

theorem Run.performAll {timeout : Duration} {start : Instant} {actions : List Action}
    {h h' : List Event} {s s' : State} (run : Run timeout start h s)
    (hp : s.performAll h actions = some (h', s')) : Run timeout start h' s' := by
  induction actions generalizing h s with
  | nil =>
    cases hp
    exact run
  | cons action rest ih =>
    cases ha : s.perform action with
    | none => simp [State.performAll, ha] at hp
    | some result =>
      obtain ⟨reply, next⟩ := result
      simp only [State.performAll, ha] at hp
      exact ih (run.step ha) hp

/-! ### What events mean -/

/-- What an event means for the records, the entries and the guards. -/
inductive Mark where
  | other
  | locked (target : String)
  | kept (target : String) (c : Classpath)
  | missed (target : String)
  | invalidated
  | begun (guard : Nat)
  | ended (guard : Nat)
deriving DecidableEq, Repr

/-- A store or put that succeeded keeps its classpath; a lookup or get may miss. -/
def Event.mark (e : Event) : Mark :=
  match e.action, e.reply with
  | .lock t, _ => .locked t
  | .store t c, .stored true => .kept t c
  | .put t c, .stored true => .kept t c
  | .lookup t, .looked (.miss _) => .missed t
  | .get t, .looked (.miss _) => .missed t
  | .invalidateAll, _ => .invalidated
  | .beginImport, .guard n => .begun n
  | .endImport n, _ => .ended n
  | _, _ => .other

/-- The guard was issued and has not been dropped since. -/
def Alive (n : Nat) (h : List Event) : Prop :=
  Since (fun e => e.mark ≠ .ended n) (fun e => e.mark = .begun n) h

def Importing (h : List Event) : Prop :=
  ∃ n, Alive n h

/-- Nothing has been invalidated since the target was locked. -/
def CurrentEntry (t : String) (h : List Event) : Prop :=
  Since (fun e => e.mark ≠ .invalidated) (fun e => e.mark = .locked t) h

/-- The event is no successful store on the target, no missing lookup on it and no invalidation. -/
def Undisturbing (t : String) (e : Event) : Prop :=
  (∀ c, e.mark ≠ .kept t c) ∧ e.mark ≠ .missed t ∧ e.mark ≠ .invalidated

/-- The latest successful store on the target stored `c` at the instant `x`, and since then neither
an invalidation nor a missing lookup on the target has occurred. -/
def Standing (t : String) (c : Classpath) (x : Instant) (h : List Event) : Prop :=
  Since (Undisturbing t) (fun e => e.mark = .kept t c ∧ e.time = x) h

end Buildpath.CacheRun
