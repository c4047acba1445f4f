import Buildpath.Resolve.Assembly
import Buildpath.Resolve.Cache

/-!
# Resolving classpaths

A resolution serves the cached classpath of a module or computes a new one while it holds the
module's slot in the cache, so that nobody computes it twice at once. It has two halves: `begin`
looks into the cache and starts the query, `finish` assembles the answer and stores it; whatever
happens in between happens while the query is under way. A resolution never fails: what goes wrong
is reported and leaves the classpath empty.

Models the component `classpath`.
-/

namespace Buildpath

/-- What a clock and a calendar show. -/
structure Moment where
  instant : Instant
  time : Timestamp
deriving DecidableEq, Repr, Inhabited

/-- What resolutions read and change. -/
structure Session (σ : Type) where
  scene : Scene σ
  cache : Cache

/-- A resolution whose query is under way. -/
structure Pass where
  entry : CacheEntry
  query : Query
deriving DecidableEq, Repr

/-- How a resolution begins: it is over, or its query is under way. -/
inductive Begun where
  | done (c : Classpath)
  | waiting (p : Pass)
deriving Repr

/-- A resolver works with what an assembly works with. -/
abbrev Resolver (σ : Type) := Assembler σ

namespace Resolver

variable {σ : Type}

/-- Reports that the resolution of a module failed; its classpath is empty. -/
def fail (module : String) (f : Failure) (now : Moment) : Traced Classpath := do
  Assembler.reportFailure module f
  Traced.emit (.failed module f.message)
  return .empty now.time

/-- Stores the classpath of a resolution, if it may be stored, and reports that it is complete. -/
def complete (e : CacheEntry) (c : Classpath) (now : Moment) (cache : Cache) :
    Traced (Bool × Cache) := do
  let (stored, cache) ← cache.store e c now.instant
  if stored then
    Traced.log .debug .resolver "Cached the classpath"
      [("module", .text e.target), ("entries", .count c.size)]
  Traced.emit (.completed e.target c.size)
  return (stored, cache)

/-- Announces that a classpath is computed; `reason` tells why none was served. -/
def announce (module : String) (hadRecord : Bool) (reason : Miss) (cache : Cache) :
    Traced Unit := do
  let importing := reason = .importing || cache.isImporting
  if importing then
    Traced.log .info .resolver "Recomputing classpath because an import operation is in progress"
      [("module", .text module)]
  Traced.emit (.started module hadRecord importing)

def leave (e : CacheEntry) (s : Session σ) : Session σ :=
  { s with cache := s.cache.release e.target }

def startQuery (r : Resolver σ) (e : CacheEntry) (now : Moment) (s : Session σ) :
    Traced (Begun × Session σ) := do
  match ← Assembler.start r e.target s.scene with
  | (.error f, scene) => return (.done (← fail e.target f now), leave e { s with scene })
  | (.ok query, scene) => return (.waiting ⟨e, query⟩, { s with scene })

/-- The first half of a resolution. -/
def begin (r : Resolver σ) (module : String) (now : Moment) (s : Session σ) :
    Traced (Begun × Session σ) := do
  if Module.isWorkspaceName module then
    Traced.log .debug .resolver "Workspace module has no classpath" [("module", .text module)]
    return (.done (.empty now.time), s)
  let (e, cache) := s.cache.enter module
  let hadRecord := cache.hasRecord module
  match cache.lookup e now.instant with
  | (.hit c, cache) =>
    Traced.emit (.cacheHit module)
    return (.done c, leave e { s with cache })
  | (.miss reason, cache) =>
    announce module hadRecord reason cache
    startQuery r e now { s with cache }

def finish (r : Resolver σ) (p : Pass) (now : Moment) (s : Session σ) :
    Traced (Classpath × Session σ) := do
  match ← Assembler.finish r p.query now.time s.scene with
  | (.ok c, scene) =>
    let (_, cache) ← complete p.entry c now s.cache
    return (c, leave p.entry { scene, cache })
  | (.error f, scene) => return (← fail p.entry.target f now, leave p.entry { s with scene })

/-- A resolution with nothing in between. -/
def resolve (r : Resolver σ) (module : String) (now : Moment) (s : Session σ) :
    Traced (Classpath × Session σ) := do
  match ← begin r module now s with
  | (.done c, s) => return (c, s)
  | (.waiting p, s) => finish r p now s

/-- Invalidates every cached classpath. -/
def invalidateAll (s : Session σ) : Traced (Session σ) := do
  return { s with cache := ← s.cache.invalidateAll }

end Resolver

end Buildpath
