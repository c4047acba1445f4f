import Buildpath.Classpath.Basic
import Buildpath.Report.Traced
import Buildpath.Settings

/-!
# The cache of classpaths

For each target there is a slot that may hold a record. Whoever works on a target holds its slot and
with it an entry, which remembers the generation of the cache at the time. Invalidating everything
starts a new generation and clears the slots that nobody holds; a record of an older generation is
never served, and an entry of an older generation stores nothing. While an import is running nothing
is served or stored at all. A record that may not be served is dropped when it is looked up.

Models the component `classpath/cache`.
-/

namespace Buildpath

/-- A point on a clock that only runs forward, in nanoseconds. -/
abbrev Instant := Nat

/-- A classpath that was stored. -/
structure CacheRecord where
  classpath : Classpath
  storedAt : Instant
  generation : Nat
deriving DecidableEq, Repr

/-- The place of a target's record. -/
structure CacheSlot where
  record : Option CacheRecord
  held : Bool
deriving DecidableEq, Repr

/-- The cache. -/
structure Cache where
  timeout : Duration
  /-- Counts without a bound, in the place of a counter of 64 bits that would wrap around. -/
  generation : Nat
  imports : Nat
  slots : List (String × CacheSlot)
deriving DecidableEq, Repr

/-- The right to work on a target, and the generation in which it was obtained. -/
structure CacheEntry where
  target : String
  generation : Nat
deriving DecidableEq, Repr

/-- Why no classpath is served. -/
inductive Miss where
  | empty
  | importing
  | invalidated
  | expired
deriving DecidableEq, Repr

/-- The answer to a lookup. -/
inductive Lookup where
  | hit (c : Classpath)
  | miss (reason : Miss)
deriving DecidableEq, Repr

namespace Cache

/-- The cache without slots. -/
def empty (timeout : Duration) : Cache :=
  ⟨timeout, 0, 0, []⟩

/-- The timeout when none is given. -/
def defaultTimeout : Duration := .ofMillis Settings.defaultTimeoutMillis

/-! ### Slots -/

/-- A slot that nobody holds and that has no record. -/
def freshSlot : CacheSlot := ⟨none, false⟩

def slot? (c : Cache) (target : String) : Option CacheSlot :=
  c.slots.lookup target

def record? (c : Cache) (target : String) : Option CacheRecord :=
  (c.slot? target).bind (·.record)

def isHeld (c : Cache) (target : String) : Bool :=
  ((c.slot? target).map (·.held)).getD false

/-- Changes the slot of a key, which is made if it is not there. -/
def alter (key : String) (f : CacheSlot → CacheSlot) :
    List (String × CacheSlot) → List (String × CacheSlot)
  | [] => [(key, f freshSlot)]
  | (k, s) :: rest => if k = key then (k, f s) :: rest else (k, s) :: alter key f rest

def modifySlot (c : Cache) (target : String) (f : CacheSlot → CacheSlot) : Cache :=
  { c with slots := alter target f c.slots }

theorem lookup_alter (key k : String) (f : CacheSlot → CacheSlot)
    (l : List (String × CacheSlot)) :
    (alter key f l).lookup k =
      if k = key then some (f ((l.lookup key).getD freshSlot)) else l.lookup k := by
  induction l with
  | nil =>
    by_cases h : k = key
    · simp [alter, h]
    · simp [alter, List.lookup_cons, h, beq_false_of_ne h]
  | cons p rest ih =>
    obtain ⟨a, s⟩ := p
    unfold alter
    by_cases ha : a = key
    · subst ha
      by_cases h : k = a
      · simp [h]
      · simp [List.lookup_cons, h, beq_false_of_ne h]
    · by_cases h : k = key
      · subst h
        simp [ha, List.lookup_cons, ih, beq_false_of_ne (Ne.symm ha)]
      · simp [ha, List.lookup_cons, ih, h]

theorem slot?_modifySlot (c : Cache) (target t : String) (f : CacheSlot → CacheSlot) :
    (c.modifySlot target f).slot? t =
      if t = target then some (f ((c.slot? target).getD freshSlot)) else c.slot? t :=
  lookup_alter target t f c.slots

/-! ### Holding a target -/

def hold (c : Cache) (target : String) : Cache :=
  c.modifySlot target fun s => { s with held := true }

def release (c : Cache) (target : String) : Cache :=
  c.modifySlot target fun s => { s with held := false }

def entry (c : Cache) (target : String) : CacheEntry :=
  ⟨target, c.generation⟩

def enter (c : Cache) (target : String) : CacheEntry × Cache :=
  (c.entry target, c.hold target)

/-- Whether there is a record, fresh or not. -/
def hasRecord (c : Cache) (target : String) : Bool :=
  (c.record? target).isSome

/-! ### Imports -/

def isImporting (c : Cache) : Bool :=
  0 < c.imports

def beginImport (c : Cache) : Cache :=
  { c with imports := c.imports + 1 }

/-- An import ends. -/
def endImport (c : Cache) : Cache :=
  { c with imports := c.imports - 1 }

/-! ### Looking up and storing -/

/-- Why a record may not be served, if it may not. -/
def staleness (c : Cache) (r : CacheRecord) (now : Instant) : Option Miss :=
  if c.isImporting then some .importing
  else if r.generation ≠ c.generation then some .invalidated
  else if c.timeout.nanos < now - r.storedAt then some .expired
  else none

def dropRecord (c : Cache) (target : String) : Cache :=
  c.modifySlot target fun s => { s with record := none }

/-- The classpath of a held target, if its record may be served; otherwise the record is gone. -/
def lookup (c : Cache) (e : CacheEntry) (now : Instant) : Lookup × Cache :=
  match c.record? e.target with
  | none => (.miss .empty, c)
  | some r =>
    match c.staleness r now with
    | none => (.hit r.classpath, c)
    | some reason => (.miss reason, c.dropRecord e.target)

/-- Stores a classpath for a held target, unless an import is running or everything has been
invalidated since the entry was obtained; tells whether it was stored. -/
def store (c : Cache) (e : CacheEntry) (classpath : Classpath) (now : Instant) :
    Traced (Bool × Cache) :=
  if c.isImporting then do
    Traced.log .debug .cache "Import in progress, not caching classpath" []
    return (false, c)
  else if e.generation ≠ c.generation then do
    Traced.log .debug .cache "Cache invalidated during the pass, not caching classpath" []
    return (false, c)
  else
    let record : CacheRecord := ⟨classpath, now, e.generation⟩
    return (true, c.modifySlot e.target fun s => { s with record := some record })

/-- Looks a target up without keeping hold of it. -/
def get (c : Cache) (target : String) (now : Instant) : Lookup × Cache :=
  let (e, c) := c.enter target
  let (answer, c) := c.lookup e now
  (answer, c.release target)

/-- Stores a classpath without keeping hold of the target. -/
def putClasspath (c : Cache) (target : String) (classpath : Classpath) (now : Instant) :
    Traced (Bool × Cache) := do
  let (e, c) := c.enter target
  let (stored, c) ← c.store e classpath now
  return (stored, c.release target)

/-! ### Invalidating -/

def newGeneration (c : Cache) : Cache :=
  { c with generation := c.generation + 1 }

/-- Clears a slot, unless somebody holds it. -/
def clearIfFree (s : CacheSlot) : CacheSlot :=
  if s.held then s else { s with record := none }

/-- Clears the slot of a target, unless somebody holds it. -/
def clearSlot (c : Cache) (target : String) : Cache :=
  { c with slots := c.slots.map fun (t, s) => (t, if t = target then clearIfFree s else s) }

/-- Clears the slots that nobody holds. -/
def sweep (c : Cache) : Cache :=
  { c with slots := c.slots.map fun (t, s) => (t, clearIfFree s) }

/-- Invalidates every record. -/
def invalidateAll (c : Cache) : Traced Cache := do
  let c := c.newGeneration.sweep
  Traced.log .debug .cache "Invalidated all cached classpaths"
    [("generation", .count c.generation), ("targets", .count c.slots.length)]
  return c

/-- The number of targets with a record; one that somebody holds counts as well. -/
def size (c : Cache) : Nat :=
  c.slots.countP fun (_, s) => s.held || s.record.isSome

end Cache

end Buildpath
