import Buildpath.Files.Tree
import Buildpath.Proofs.Cache.Guards
import Buildpath.Proofs.Resolver.Steps
import Buildpath.Tool.Scripted
import Mathlib.Logic.Function.Basic

/-!
# Resolutions side by side

Any number of resolutions, invalidations and imports at once. The steps of the resolutions
interleave freely, except that a slot is held by one of them at a time. An invalidation is the start
of a generation and, as separate later steps, one attempt for each slot to clear it, which leaves a
held slot alone. Between any two steps the clock may run, and the tool, the files and the workspace
may change in any way.
-/

namespace Buildpath.Interleaving

open Resolver

variable {σ : Type}

/-- A resolution that somebody asked for. -/
structure Call where
  module : String
  stage : Stage
deriving DecidableEq, Repr

structure World (σ : Type) where
  resolver : Resolver σ
  session : Session σ
  now : Moment
  calls : Nat → Option Call
  /-- For each generation the slots that its invalidation has tried to clear. -/
  sweeps : Nat → Option (List String)
  guards : ImportGuards

inductive Action (σ : Type) where
  | ask (call : Nat) (module : String)
  | advance (call : Nat)
  | renew
  | tryClear (generation : Nat) (target : String)
  | beginImport
  | endImport (guard : Nat)
  | wait (span : Nat) (time : Timestamp)
  | change (resolver : Resolver σ) (scene : Scene σ)

inductive Occurrence where
  | asked (call : Nat) (module : String)
  | stepped (call : Nat) (module : String) (deed : Deed)
  | renewed (generation : Nat)
  | tried (generation : Nat) (target : String)
  | importBegan (guard : Nat)
  | importEnded (guard : Nat)
  | waited (span : Nat)
  | changed
deriving DecidableEq, Repr

structure Event where
  time : Instant
  what : Occurrence
deriving DecidableEq, Repr

namespace World

def initial (r : Resolver σ) (scene : Scene σ) (timeout : Duration) (now : Moment) : World σ :=
  ⟨r, ⟨scene, .empty timeout⟩, now, fun _ => none, fun _ => none, .empty⟩

abbrev cache (w : World σ) : Cache := w.session.cache

def setCache (w : World σ) (c : Cache) : World σ :=
  { w with session := { w.session with cache := c } }

def setCall (w : World σ) (i : Nat) (call : Call) : World σ :=
  { w with calls := Function.update w.calls i (some call) }

theorem calls_setCall (w : World σ) (i j : Nat) (call : Call) :
    (w.setCall i call).calls j = if j = i then some call else w.calls j :=
  Function.update_apply w.calls i (some call) j

theorem calls_setCall_eq_some {w : World σ} {i j : Nat} {call k : Call}
    (h : (w.setCall i call).calls j = some k) :
    (j = i ∧ k = call) ∨ (j ≠ i ∧ w.calls j = some k) := by
  rw [calls_setCall] at h
  split at h
  · rename_i hj
    exact Or.inl ⟨hj, (Option.some.inj h).symm⟩
  · rename_i hj
    exact Or.inr ⟨hj, h⟩

def perform (w : World σ) : Action σ → Option (Occurrence × World σ)
  | .ask i module =>
    match w.calls i with
    | some _ => none
    | none =>
      some (.asked i module, w.setCall i ⟨module, .asked module⟩)
  | .advance i =>
    match w.calls i with
    | none => none
    | some call =>
      match Resolver.advance w.resolver w.now w.session call.stage with
      | none => none
      | some step =>
        let (deed, stage, session) := step.value
        some (.stepped i call.module deed, { w with session }.setCall i ⟨call.module, stage⟩)
  | .renew =>
    let cache := w.cache.newGeneration
    some (.renewed cache.generation,
      { w.setCache cache with sweeps := Function.update w.sweeps cache.generation (some []) })
  | .tryClear k target =>
    match w.sweeps k with
    | none => none
    | some tried =>
      if target ∈ tried then none
      else
        some (.tried k target,
          { w.setCache (w.cache.clearSlot target) with
            sweeps := Function.update w.sweeps k (some (target :: tried)) })
  | .beginImport =>
    some (.importBegan w.guards.issued,
      { w.setCache w.cache.beginImport with guards := w.guards.issue })
  | .endImport n =>
    if n ∈ w.guards.live then
      some (.importEnded n, { w.setCache w.cache.endImport with guards := w.guards.drop n })
    else none
  | .wait span time => some (.waited span, { w with now := ⟨w.now.instant + span, time⟩ })
  | .change resolver scene =>
    some (.changed, { w with resolver, session := { w.session with scene } })

end World

/-- No files, no modules, a tool that finds nothing and records that last five nanoseconds. -/
def World.quiet : World Scripted :=
  let root : Path := ⟨['/']⟩
  .initial ⟨Scripted.tool, (Tree.empty root).fileSystem, "external"⟩
    ⟨.ofRoots ⟨root, root⟩, .empty⟩ ⟨5⟩ ⟨0, default⟩

/-- The runs that begin with an empty cache, with their events, the latest one first. -/
inductive Run (timeout : Duration) : List Event → World σ → Prop where
  | start (r : Resolver σ) (scene : Scene σ) (now : Moment) :
    Run timeout [] (.initial r scene timeout now)
  | step {h : List Event} {w w' : World σ} {action : Action σ} {what : Occurrence} :
    Run timeout h w → w.perform action = some (what, w') →
    Run timeout (⟨w.now.instant, what⟩ :: h) w'

theorem Run.before {timeout : Duration} {e : Event} {h : List Event} {w : World σ}
    (run : Run timeout (e :: h) w) : ∃ w' : World σ, Run timeout h w' := by
  cases run with
  | step run _ => exact ⟨_, run⟩

/-- What happened up to some time is a run of its own. -/
theorem Run.earlier {timeout : Duration} {later h : List Event} {w : World σ}
    (run : Run timeout (later ++ h) w) : ∃ w' : World σ, Run timeout h w' := by
  induction later generalizing w with
  | nil => exact ⟨w, run⟩
  | cons e later ih =>
    obtain ⟨w', run'⟩ := Run.before run
    exact ih run'

/-- Performs the actions one after the other, after the events of `h`. -/
def World.performAll (h : List Event) (w : World σ) :
    List (Action σ) → Option (List Event × World σ)
  | [] => some (h, w)
  | action :: rest =>
    match w.perform action with
    | none => none
    | some (what, w') => w'.performAll (⟨w.now.instant, what⟩ :: h) rest

theorem Run.performAll {timeout : Duration} {actions : List (Action σ)} {h h' : List Event}
    {w w' : World σ} (run : Run timeout h w) (hp : w.performAll h actions = some (h', w')) :
    Run timeout h' w' := by
  induction actions generalizing h w with
  | nil =>
    cases hp
    exact run
  | cons action rest ih =>
    cases ha : w.perform action with
    | none => simp [World.performAll, ha] at hp
    | some result =>
      obtain ⟨what, next⟩ := result
      simp only [World.performAll, ha] at hp
      exact ih (run.step ha) hp

/-! ### What a step of a resolution can do -/

/-- What a step does to the cache, one case for each way it can turn out. -/
inductive Step (now : Instant) : Stage → Cache → Deed → Stage → Cache → Prop where
  | skipped {m : String} {c : Cache} {a : Classpath} (pseudo : Module.isWorkspaceName m = true)
    (blank : a.entries = []) : Step now (.asked m) c .skipped (.answered a) c
  | took {m : String} {c : Cache} (ordinary : Module.isWorkspaceName m = false)
    (free : c.isHeld m = false) : Step now (.asked m) c .took (.holding m) (c.hold m)
  | entered {m : String} {c : Cache} :
    Step now (.holding m) c .entered (.entered (c.entry m)) c
  | hit {e : CacheEntry} {c : Cache} {cp : Classpath} (served : (c.lookup e now).1 = .hit cp) :
    Step now (.entered e) c (.lookedUp (.hit cp)) (.leaving e cp) c
  | missed {e : CacheEntry} {c : Cache} {reason : Miss} (hadRecord : Bool)
    (unserved : (c.lookup e now).1 = .miss reason) :
    Step now (.entered e) c (.lookedUp (.miss reason)) (.missed e hadRecord reason)
      (c.lookup e now).2
  | queried {e : CacheEntry} {hadRecord : Bool} {reason : Miss} {c : Cache} (q : Query) :
    Step now (.missed e hadRecord reason) c .queried (.waiting ⟨e, q⟩) c
  | unasked {e : CacheEntry} {hadRecord : Bool} {reason : Miss} {c : Cache} (f : Failure)
    {a : Classpath} (blank : a.entries = []) :
    Step now (.missed e hadRecord reason) c (.failed f) (.leaving e a) c
  | assembled {p : Pass} {c : Cache} (cp : Classpath) :
    Step now (.waiting p) c (.assembled cp) (.assembled p.entry cp) c
  | failed {p : Pass} {c : Cache} (f : Failure) {a : Classpath} (blank : a.entries = []) :
    Step now (.waiting p) c (.failed f) (.leaving p.entry a) c
  | stored {e : CacheEntry} {c : Cache} (cp : Classpath) :
    Step now (.assembled e cp) c (.stored cp (c.store e cp now).value.1) (.leaving e cp)
      (c.store e cp now).value.2
  | left {e : CacheEntry} {c : Cache} {cp : Classpath} :
    Step now (.leaving e cp) c (.left cp) (.answered cp) (c.release e.target)

namespace Step

variable {now : Instant} {stage stage' : Stage} {c c' : Cache} {deed : Deed}

theorem generation (h : Step now stage c deed stage' c') : c'.generation = c.generation := by
  cases h with
  | missed _ _ => exact (c.onlyRecords_lookup _ now).generation
  | stored _ => exact (c.onlyRecords_store _ _ now).generation
  | _ => rfl

theorem imports (h : Step now stage c deed stage' c') : c'.imports = c.imports := by
  cases h with
  | missed _ _ => exact (c.onlyRecords_lookup _ now).imports
  | stored _ => exact (c.onlyRecords_store _ _ now).imports
  | _ => rfl

/-- A step reads the generation, or keeps the entry it has. -/
theorem entered_or (h : Step now stage c deed stage' c') :
    (deed = .entered ∧ ∃ m, stage = .holding m ∧ stage' = .entered (c.entry m)) ∨
    (deed ≠ .entered ∧ (∀ m, stage'.module? = some m → stage.module? = some m) ∧
      (∀ e, stage'.entry? = some e → stage.entry? = some e) ∧
      ∀ e cp, stage' = .assembled e cp → deed = .assembled cp) := by
  cases h with
  | entered => exact Or.inl ⟨rfl, _, rfl, rfl⟩
  | assembled cp =>
    refine Or.inr ⟨by simp, fun _ hm => hm, fun _ he => he, fun e d hs => ?_⟩
    cases hs
    rfl
  | _ => simp [Stage.module?, Stage.entry?]

/-- There is a module to every stage from which a step can be taken. -/
theorem exists_module (h : Step now stage c deed stage' c') : ∃ m, stage.module? = some m := by
  cases h <;> exact ⟨_, rfl⟩

/-- Only a lookup that misses and a store that succeeds matter to a record. -/
theorem record?_eq_recordAfter (h : Step now stage c deed stage' c') {m : String}
    (hm : stage.module? = some m) (t : String) :
    c'.record? t =
      if t = m then deed.recordAfter now c.generation (c.record? t) else c.record? t := by
  have same : c'.record? t = c.record? t →
      c'.record? t = if t = m then c.record? t else c.record? t := fun hrec => by
    rw [ite_self, hrec]
  cases h with
  | took _ _ => exact same (c.record?_hold _ t)
  | left => exact same (c.record?_release _ t)
  | @missed e _ _ _ hl =>
    cases hm
    exact c.record?_lookup_of_miss t e now hl
  | @stored e _ cp =>
    cases hm
    cases hkept : (c.store e cp now).value.1 with
    | true => exact c.record?_store_of_stored t e cp now hkept
    | false => exact same (by rw [c.store_of_refused e cp now hkept])
  | _ => exact same rfl

theorem isUnread (h : Step now stage c deed stage' c') (hu : stage'.isUnread = true) :
    stage.isUnread = true := by
  cases h with
  | took => rfl
  | _ => cases hu

end Step

theorem complete_value (e : CacheEntry) (cp : Classpath) (now : Moment) (c : Cache) :
    (complete e cp now c).value = (c.store e cp now.instant).value := by
  unfold complete
  cases hs : (c.store e cp now.instant).value with
  | mk stored cache => cases stored <;> simp [hs]

theorem step_of_advance {r : Resolver σ} {now : Moment} {s : Session σ} {stage : Stage}
    {step : Traced (Deed × Stage × Session σ)} (h : advance r now s stage = some step) :
    Step now.instant stage s.cache step.value.1 step.value.2.1 step.value.2.2.cache := by
  cases stage with
  | asked m =>
    simp only [advance] at h
    split at h
    · rename_i hpseudo
      cases h
      exact .skipped hpseudo rfl
    · rename_i hordinary
      split at h
      · cases h
      · rename_i hfree
        cases h
        exact .took (Bool.eq_false_iff.mpr hordinary) (Bool.eq_false_iff.mpr hfree)
  | holding m =>
    cases h
    exact .entered
  | entered e =>
    simp only [advance] at h
    split at h
    · rename_i cp cache hl
      cases h
      have hit : (s.cache.lookup e now.instant).1 = .hit cp := by rw [hl]
      have same := s.cache.lookup_of_hit e cp now.instant hit
      rw [hl] at same
      cases same
      exact .hit hit
    · rename_i reason cache hl
      cases h
      have miss : (s.cache.lookup e now.instant).1 = .miss reason := by rw [hl]
      have after : cache = (s.cache.lookup e now.instant).2 := by rw [hl]
      rw [after]
      exact .missed _ miss
  | missed e hadRecord reason =>
    simp only [advance, Option.some.injEq] at h
    subst h
    simp only [Traced.bind_value]
    cases hs : (Assembler.start r e.target s.scene).value with
    | mk answer scene =>
      cases answer with
      | error f => exact .unasked f rfl
      | ok q => exact .queried q
  | waiting p =>
    simp only [advance, Option.some.injEq] at h
    subst h
    simp only [Traced.bind_value]
    cases hs : (Assembler.finish r p.query now.time s.scene).value with
    | mk answer scene =>
      cases answer with
      | error f => exact .failed f rfl
      | ok cp => exact .assembled cp
  | assembled e cp =>
    simp only [advance, Option.some.injEq] at h
    subst h
    simp only [Traced.bind_value, complete_value, Traced.pure_value]
    exact .stored cp
  | leaving e cp =>
    cases h
    exact .left
  | answered cp => cases h

/-! ### What an action can come to -/

/-- The world after a step of a call on the module. -/
abbrev World.afterStep (w : World σ) (i : Nat) (module : String) (stage : Stage)
    (session : Session σ) : World σ :=
  { w with session }.setCall i ⟨module, stage⟩

/-- What can happen in a world and the world after it, one case for each kind of action. -/
inductive Happening (w : World σ) : Occurrence → World σ → Prop where
  | asked {i : Nat} (m : String) (new : w.calls i = none) :
    Happening w (.asked i m) (w.setCall i ⟨m, .asked m⟩)
  | stepped {i : Nat} {call : Call} {step : Traced (Deed × Stage × Session σ)}
    (here : w.calls i = some call)
    (next : advance w.resolver w.now w.session call.stage = some step) :
    Happening w (.stepped i call.module step.value.1)
      (w.afterStep i call.module step.value.2.1 step.value.2.2)
  | renewed :
    Happening w (.renewed w.cache.newGeneration.generation)
      { w.setCache w.cache.newGeneration with
        sweeps := Function.update w.sweeps w.cache.newGeneration.generation (some []) }
  | tried {k : Nat} {tried : List String} (t : String) (begun : w.sweeps k = some tried)
    (new : t ∉ tried) :
    Happening w (.tried k t)
      { w.setCache (w.cache.clearSlot t) with
        sweeps := Function.update w.sweeps k (some (t :: tried)) }
  | importBegan :
    Happening w (.importBegan w.guards.issued)
      { w.setCache w.cache.beginImport with guards := w.guards.issue }
  | importEnded {n : Nat} (live : n ∈ w.guards.live) :
    Happening w (.importEnded n) { w.setCache w.cache.endImport with guards := w.guards.drop n }
  | waited (span : Nat) (time : Timestamp) :
    Happening w (.waited span) { w with now := ⟨w.now.instant + span, time⟩ }
  | changed (resolver : Resolver σ) (scene : Scene σ) :
    Happening w .changed { w with resolver, session := { w.session with scene } }

theorem happening_of_perform {w w' : World σ} {action : Action σ} {what : Occurrence}
    (hp : w.perform action = some (what, w')) : Happening w what w' := by
  cases action with
  | ask i m =>
    simp only [World.perform] at hp
    split at hp
    · cases hp
    · rename_i hi
      cases hp
      exact .asked m hi
  | advance i =>
    simp only [World.perform] at hp
    split at hp
    · cases hp
    · rename_i call hi
      split at hp
      · cases hp
      · rename_i step ha
        cases hp
        exact .stepped hi ha
  | renew =>
    cases hp
    exact .renewed
  | tryClear k t =>
    simp only [World.perform] at hp
    split at hp
    · cases hp
    · rename_i tried hk
      split at hp
      · cases hp
      · rename_i ht
        cases hp
        exact .tried t hk ht
  | beginImport =>
    cases hp
    exact .importBegan
  | endImport n =>
    simp only [World.perform] at hp
    split at hp
    · rename_i hn
      cases hp
      exact .importEnded hn
    · cases hp
  | wait span time =>
    cases hp
    exact .waited span time
  | change resolver scene =>
    cases hp
    exact .changed resolver scene

theorem exists_perform_of_happening {w w' : World σ} {what : Occurrence}
    (hh : Happening w what w') : ∃ action, w.perform action = some (what, w') := by
  cases hh with
  | @asked i m new => exact ⟨.ask i m, by simp only [World.perform, new]⟩
  | @stepped i _ _ here next => exact ⟨.advance i, by simp only [World.perform, here, next]⟩
  | renewed => exact ⟨.renew, rfl⟩
  | @tried k _ t begun new =>
    exact ⟨.tryClear k t, by simp only [World.perform, begun, new, if_false]⟩
  | importBegan => exact ⟨.beginImport, rfl⟩
  | @importEnded n live => exact ⟨.endImport n, by simp only [World.perform, live, if_true]⟩
  | waited span time => exact ⟨.wait span time, rfl⟩
  | changed resolver scene => exact ⟨.change resolver scene, rfl⟩

/-- The call that is named took a step; the world after it is the one before with the outcome. -/
theorem happening_stepped {w w' : World σ} {i : Nat} {m : String} {deed : Deed}
    (hh : Happening w (.stepped i m deed) w') :
    ∃ call step, w.calls i = some call ∧ call.module = m ∧ step.value.1 = deed ∧
      advance w.resolver w.now w.session call.stage = some step ∧
      w' = w.afterStep i call.module step.value.2.1 step.value.2.2 := by
  generalize hwhat : Occurrence.stepped i m deed = what at hh
  cases hh with
  | stepped here next =>
    cases hwhat
    exact ⟨_, _, here, rfl, rfl, next, rfl⟩
  | _ => cases hwhat

theorem Happening.step {w w' : World σ} {i : Nat} {m : String} {deed : Deed}
    (hh : Happening w (.stepped i m deed) w') :
    ∃ call stage, w.calls i = some call ∧ call.module = m ∧
      Step w.now.instant call.stage w.cache deed stage w'.cache := by
  obtain ⟨call, step, hi, hm, rfl, next, rfl⟩ := happening_stepped hh
  exact ⟨call, _, hi, hm, step_of_advance next⟩

/-- A run goes on with whatever can happen. -/
theorem Run.happen {timeout : Duration} {h : List Event} {w w' : World σ} {what : Occurrence}
    (run : Run timeout h w) (hh : Happening w what w') :
    Run timeout (⟨w.now.instant, what⟩ :: h) w' := by
  obtain ⟨action, hp⟩ := exists_perform_of_happening hh
  exact run.step hp

/-- What holds at the start and is kept by whatever happens, holds of every run. -/
theorem Run.invariant {timeout : Duration} {P : List Event → World σ → Prop}
    (hstart : ∀ r scene now, P [] (.initial r scene timeout now))
    (hkeep : ∀ h w what w', Run timeout h w → P h w → Happening w what w' →
      P (⟨w.now.instant, what⟩ :: h) w')
    {h : List Event} {w : World σ} (run : Run timeout h w) : P h w := by
  induction run with
  | start r scene now => exact hstart r scene now
  | step run hp ih => exact hkeep _ _ _ _ run ih (happening_of_perform hp)

/-- The latest event of a run and the run before it. -/
theorem Run.cons_inv {timeout : Duration} {e : Event} {h : List Event} {w' : World σ}
    (run : Run timeout (e :: h) w') :
    ∃ w : World σ, Run timeout h w ∧ e.time = w.now.instant ∧ Happening w e.what w' := by
  cases run with
  | step run hp => exact ⟨_, run, rfl, happening_of_perform hp⟩

/-- What a stretch of a run starts with is kept by its events, if each event that `P` allows keeps
it; and then each event of the stretch satisfies `C`. -/
theorem Run.throughout {timeout : Duration} {P : List Event → Event → Prop}
    {I : List Event → World σ → Prop} {C : Event → Prop}
    (hkeep : ∀ h w what w', Run timeout h w → I h w → Happening w what w' →
      P h ⟨w.now.instant, what⟩ → I (⟨w.now.instant, what⟩ :: h) w' ∧ C ⟨w.now.instant, what⟩)
    {before stretch : List Event} {w : World σ} (run : Run timeout (stretch ++ before) w)
    (hstart : ∀ w₀ : World σ, Run timeout before w₀ → I before w₀)
    (hP : Throughout P before stretch) : I (stretch ++ before) w ∧ ∀ e ∈ stretch, C e := by
  induction stretch generalizing w with
  | nil => exact ⟨hstart w run, fun _ he => absurd he List.not_mem_nil⟩
  | cons e stretch ih =>
    obtain ⟨w₀, run₀, htime, hh⟩ := Run.cons_inv run
    obtain ⟨hI, hC⟩ := ih run₀ hP.2
    obtain ⟨time, what⟩ := e
    cases htime
    obtain ⟨hI', hC'⟩ := hkeep _ _ _ _ run₀ hI hh hP.1
    exact ⟨hI', List.forall_mem_cons.mpr ⟨hC', hC⟩⟩

end Buildpath.Interleaving
