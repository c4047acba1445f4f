import Buildpath.Proofs.Resolver.Origins

/-!
# One resolution of a module at a time

From taking the slot of its module until it gives the slot back a resolution is inside. What it has
done so far can be told from its stage (`Course`), and at most one resolution of a module is inside
at any time (`Exclusive`), however many there are and whatever else goes on.
-/

namespace Buildpath

namespace Resolver

/-- Whether the resolution holds the slot of its module. -/
def Stage.isInside : Stage → Bool
  | .asked _ | .answered _ => false
  | _ => true

/-- The deeds, the latest one first, by which a resolution comes to a stage. -/
inductive Course : List Deed → Stage → Prop where
  | asked (m : String) : Course [] (.asked m)
  | skipped (a : Classpath) : Course [.skipped] (.answered a)
  | holding (m : String) : Course [.took] (.holding m)
  | entered (e : CacheEntry) : Course [.entered, .took] (.entered e)
  | missed (e : CacheEntry) (hadRecord : Bool) (reason : Miss) :
    Course [.lookedUp (.miss reason), .entered, .took] (.missed e hadRecord reason)
  | waiting (p : Pass) (reason : Miss) :
    Course [.queried, .lookedUp (.miss reason), .entered, .took] (.waiting p)
  | assembled (e : CacheEntry) (cp : Classpath) (reason : Miss) :
    Course [.assembled cp, .queried, .lookedUp (.miss reason), .entered, .took] (.assembled e cp)
  | served (e : CacheEntry) (cp : Classpath) :
    Course [.lookedUp (.hit cp), .entered, .took] (.leaving e cp)
  | unasked (e : CacheEntry) (f : Failure) (reason : Miss) {a : Classpath}
    (blank : a.entries = []) :
    Course [.failed f, .lookedUp (.miss reason), .entered, .took] (.leaving e a)
  | failed (e : CacheEntry) (f : Failure) (reason : Miss) {a : Classpath} (blank : a.entries = []) :
    Course [.failed f, .queried, .lookedUp (.miss reason), .entered, .took] (.leaving e a)
  | stored (e : CacheEntry) (cp : Classpath) (kept : Bool) (reason : Miss) :
    Course [.stored cp kept, .assembled cp, .queried, .lookedUp (.miss reason), .entered, .took]
      (.leaving e cp)
  | left {ds : List Deed} {e : CacheEntry} {a : Classpath} (before : Course ds (.leaving e a)) :
    Course (.left a :: ds) (.answered a)

end Resolver

namespace Interleaving

open Resolver

variable {σ : Type} {timeout : Duration} {h : List Event} {w w' : World σ} {c c' : Cache}

/-! ### What a step does outside its module, and to whom is inside -/

namespace Step

variable {now : Instant} {stage stage' : Stage} {deed : Deed}

theorem timeout_eq (hs : Step now stage c deed stage' c') : c'.timeout = c.timeout := by
  cases hs with
  | missed _ _ => exact (c.onlyRecords_lookup _ now).timeout
  | stored _ => exact (c.onlyRecords_store _ _ now).timeout
  | _ => rfl

theorem stored_inv {cp : Classpath} {kept : Bool}
    (hs : Step now stage c (.stored cp kept) stage' c') :
    ∃ e, stage = .assembled e cp ∧ stage' = .leaving e cp ∧
      kept = (c.store e cp now).value.1 ∧ c' = (c.store e cp now).value.2 := by
  cases hs with
  | stored => exact ⟨_, rfl, rfl, rfl, rfl⟩

theorem lookedUp_of_entered {e : CacheEntry} (hs : Step now (.entered e) c deed stage' c') :
    ∃ answer, deed = .lookedUp answer := by
  cases hs <;> exact ⟨_, rfl⟩

theorem record?_eq (hs : Step now stage c deed stage' c') (t : String)
    (hm : ∀ reason, deed ≠ .lookedUp (.miss reason)) (hk : ∀ cp, deed ≠ .stored cp true) :
    c'.record? t = c.record? t := by
  obtain ⟨m, hmod⟩ := hs.exists_module
  rw [hs.record?_eq_recordAfter hmod, Deed.recordAfter_of_ne hm hk, ite_self]

theorem record?_of_ne (hs : Step now stage c deed stage' c') {m t : String}
    (hm : stage.module? = some m) (ht : t ≠ m) : c'.record? t = c.record? t := by
  rw [hs.record?_eq_recordAfter hm, if_neg ht]

/-- A step takes the slot, gives it back, or leaves the slots as they are and the call where it is.
What is not inside and does not take the slot is passed over. -/
theorem section_cases (hs : Step now stage c deed stage' c') {m : String}
    (hm : stage.module? = some m) :
    (stage'.isInside = stage.isInside ∧
      (stage.isInside = false → Module.isWorkspaceName m = true) ∧ (∀ a, deed ≠ .left a) ∧
      ∀ t, c'.isHeld t = c.isHeld t) ∨
    (stage'.isInside = true ∧ Module.isWorkspaceName m = false ∧ c.isHeld m = false ∧
      ∀ t, c'.isHeld t = if t = m then true else c.isHeld t) ∨
    ((∃ a, deed = .left a) ∧ stage.isInside = true ∧ stage'.isInside = false ∧
      ∀ t, c'.isHeld t = if t = m then false else c.isHeld t) := by
  cases hs with
  | skipped pseudo _ =>
    cases hm
    exact Or.inl ⟨rfl, fun _ => pseudo, by simp, fun _ => rfl⟩
  | took ordinary free =>
    cases hm
    exact Or.inr (Or.inl ⟨rfl, ordinary, free, fun t => c.isHeld_hold m t⟩)
  | missed _ _ =>
    exact Or.inl ⟨rfl, fun h => (by cases h), by simp, (c.onlyRecords_lookup _ now).isHeld⟩
  | stored _ =>
    exact Or.inl ⟨rfl, fun h => (by cases h), by simp, (c.onlyRecords_store _ _ now).isHeld⟩
  | left =>
    cases hm
    exact Or.inr (Or.inr ⟨⟨_, rfl⟩, rfl, rfl, fun t => c.isHeld_release _ t⟩)
  | _ => exact Or.inl ⟨rfl, fun h => (by cases h), by simp, fun _ => rfl⟩

theorem isInside_of_lookedUp {answer : Lookup}
    (hs : Step now stage c (.lookedUp answer) stage' c') : stage'.isInside = true := by
  cases hs <;> rfl

theorem course {ds : List Deed} (hs : Step now stage c deed stage' c') (hc : Course ds stage) :
    Course (deed :: ds) stage' := by
  cases hs with
  | skipped _ _ =>
    cases hc
    exact .skipped _
  | took _ _ =>
    cases hc
    exact .holding _
  | entered =>
    cases hc
    exact .entered _
  | hit _ =>
    cases hc
    exact .served _ _
  | missed _ _ =>
    cases hc
    exact .missed _ _ _
  | queried _ =>
    cases hc
    exact .waiting _ _
  | unasked f blank =>
    cases hc
    exact .unasked _ f _ blank
  | assembled _ =>
    cases hc
    exact .assembled _ _ _
  | failed f blank =>
    cases hc
    exact .failed _ f _ blank
  | stored _ =>
    cases hc
    exact .stored _ _ _ _
  | left => exact .left hc

end Step

/-! ### Courses -/

/-- The deed of the call, if the event is one. -/
def Event.deedOf (i : Nat) (e : Event) : Option Deed :=
  match e.what with
  | .stepped j _ deed => if j = i then some deed else none
  | _ => none

/-- What the call has done, the latest first. -/
def deeds (i : Nat) (h : List Event) : List Deed :=
  h.filterMap (Event.deedOf i)

theorem deeds_cons_of_stepped {e : Event} {i : Nat} {m : String} {deed : Deed}
    (he : e.what = .stepped i m deed) (j : Nat) :
    deeds j (e :: h) = if i = j then deed :: deeds j h else deeds j h := by
  unfold deeds
  rw [List.filterMap_cons, Event.deedOf, he]
  by_cases hj : i = j <;> simp [hj]

theorem deeds_cons_of_ne {e : Event} {j : Nat} (he : ∀ m deed, e.what ≠ .stepped j m deed) :
    deeds j (e :: h) = deeds j h := by
  have hnone : e.deedOf j = none := by
    unfold Event.deedOf
    split
    · rename_i i m deed hw
      by_cases hi : i = j
      · exact absurd (hi ▸ hw) (he m deed)
      · exact if_neg hi
    · rfl
  unfold deeds
  rw [List.filterMap_cons, hnone]

theorem mem_deeds {e : Event} (he : e ∈ h) {i : Nat} {m : String} {deed : Deed}
    (hw : e.what = .stepped i m deed) : deed ∈ deeds i h := by
  refine List.mem_filterMap.mpr ⟨e, he, ?_⟩
  rw [Event.deedOf, hw]
  exact if_pos rfl

structure Courses (h : List Event) (w : World σ) : Prop where
  course : ∀ i call, w.calls i = some call → Course (deeds i h) call.stage
  unasked : ∀ i, w.calls i = none → deeds i h = []
  module_eq : ∀ e ∈ h, ∀ i m deed, e.what = .stepped i m deed →
    ∃ call, w.calls i = some call ∧ call.module = m

namespace Courses

variable {ev : Event}

theorem other (hc : Courses h w) (hcalls : w'.calls = w.calls)
    (he : ∀ i m deed, ev.what ≠ .stepped i m deed) : Courses (ev :: h) w' := by
  refine ⟨fun i call hi => ?_, fun i hi => ?_, fun e hm i m deed hw => ?_⟩
  · rw [hcalls] at hi
    rw [deeds_cons_of_ne (he i)]
    exact hc.course i call hi
  · rw [hcalls] at hi
    rw [deeds_cons_of_ne (he i)]
    exact hc.unasked i hi
  · rcases List.mem_cons.mp hm with rfl | hm
    · exact absurd hw (he i m deed)
    · rw [hcalls]
      exact hc.module_eq e hm i m deed hw

theorem asked (hc : Courses h w) {i : Nat} {m : String} (hi : w.calls i = none)
    (he : ev.what = .asked i m) : Courses (ev :: h) (w.setCall i ⟨m, .asked m⟩) := by
  have hno : ∀ j u deed, ev.what ≠ .stepped j u deed := by simp [he]
  refine ⟨fun j call hj => ?_, fun j hj => ?_, fun e hm j u deed hw => ?_⟩
  · rw [deeds_cons_of_ne (hno j)]
    rcases World.calls_setCall_eq_some hj with ⟨rfl, rfl⟩ | ⟨_, hj⟩
    · rw [hc.unasked j hi]
      exact .asked m
    · exact hc.course j call hj
  · rw [deeds_cons_of_ne (hno j)]
    rw [World.calls_setCall] at hj
    split at hj
    · cases hj
    · exact hc.unasked j hj
  · rcases List.mem_cons.mp hm with rfl | hm
    · exact absurd hw (hno j u deed)
    · obtain ⟨call, hj, hmod⟩ := hc.module_eq e hm j u deed hw
      have hne : j ≠ i := by
        rintro rfl
        rw [hi] at hj
        cases hj
      refine ⟨call, ?_, hmod⟩
      rw [World.calls_setCall, if_neg hne, hj]

theorem stepped (hc : Courses h w) {i : Nat} {call : Call} (hi : w.calls i = some call)
    {now : Instant} {deed : Deed} {stage : Stage} (hs : Step now call.stage c deed stage c')
    (he : ev.what = .stepped i call.module deed) (session : Session σ) :
    Courses (ev :: h) (w.afterStep i call.module stage session) := by
  refine ⟨fun j k hj => ?_, fun j hj => ?_, fun e hm j u d hw => ?_⟩
  · rw [deeds_cons_of_stepped he]
    rcases World.calls_setCall_eq_some hj with ⟨rfl, rfl⟩ | ⟨hne, hj⟩
    · rw [if_pos rfl]
      exact hs.course (hc.course j call hi)
    · rw [if_neg (Ne.symm hne)]
      exact hc.course j k hj
  · rw [World.calls_setCall] at hj
    split at hj
    · cases hj
    · rename_i hne
      rw [deeds_cons_of_stepped he, if_neg (Ne.symm hne)]
      exact hc.unasked j hj
  · have hcall : ∃ k, w.calls j = some k ∧ k.module = u := by
      rcases List.mem_cons.mp hm with rfl | hm
      · rw [he] at hw
        cases hw
        exact ⟨call, hi, rfl⟩
      · exact hc.module_eq e hm j u d hw
    obtain ⟨k, hj, hmod⟩ := hcall
    rw [World.calls_setCall]
    by_cases hne : j = i
    · subst hne
      rw [hi] at hj
      cases hj
      exact ⟨_, if_pos rfl, hmod⟩
    · exact ⟨k, (if_neg hne).trans hj, hmod⟩

theorem of_run (run : Run timeout h w) : Courses h w := by
  refine Run.invariant (P := Courses) (fun r scene now => ?_) (fun h w what w' _ hc hh => ?_) run
  · exact ⟨fun _ _ hi => (by cases hi), fun _ _ => rfl, fun _ he => absurd he List.not_mem_nil⟩
  · cases hh with
    | asked m new => exact hc.asked new rfl
    | stepped here next => exact hc.stepped here (step_of_advance next) rfl _
    | _ => exact hc.other rfl (by simp)

end Courses

theorem timeout_of_run (run : Run timeout h w) : w.cache.timeout = timeout := by
  refine Run.invariant (P := fun _ w => w.cache.timeout = timeout) (fun _ _ _ => rfl)
    (fun h w what w' _ ht hh => ?_) run
  cases hh with
  | stepped here next => exact (step_of_advance next).timeout_eq.trans ht
  | _ => exact ht

/-! ### Exclusion -/

/-- The call is for the module, at a stage of the kind. -/
def CallAt (w : World σ) (kind : Stage → Bool) (i : Nat) (m : String) : Prop :=
  ∃ call, w.calls i = some call ∧ call.module = m ∧ kind call.stage = true

namespace CallAt

variable {kind : Stage → Bool} {i j : Nat} {m : String} {call : Call}

theorem iff_of_calls_eq (hi : w.calls i = some call) :
    CallAt w kind i m ↔ call.module = m ∧ kind call.stage = true := by
  constructor
  · rintro ⟨k, hk, hat⟩
    rw [hi] at hk
    cases hk
    exact hat
  · exact fun hat => ⟨call, hi, hat⟩

theorem ne_of_new (hat : CallAt w kind j m) (new : w.calls i = none) : j ≠ i := by
  rintro rfl
  obtain ⟨k, hj, -⟩ := hat
  rw [new] at hj
  cases hj

theorem setCall_iff_of_ne (hne : j ≠ i) :
    CallAt (w.setCall i call) kind j m ↔ CallAt w kind j m := by
  unfold CallAt
  rw [World.calls_setCall, if_neg hne]

theorem setCall_iff :
    CallAt (w.setCall i call) kind i m ↔ call.module = m ∧ kind call.stage = true :=
  iff_of_calls_eq ((World.calls_setCall w i i call).trans (if_pos rfl))

theorem of_setCall (hat : CallAt (w.setCall i call) kind j m) :
    (j = i ∧ call.module = m ∧ kind call.stage = true) ∨ (j ≠ i ∧ CallAt w kind j m) := by
  by_cases hji : j = i
  · subst hji
    exact Or.inl ⟨rfl, setCall_iff.mp hat⟩
  · exact Or.inr ⟨hji, (setCall_iff_of_ne hji).mp hat⟩

end CallAt

/-- The call holds the slot of the module. -/
abbrev Inside (w : World σ) (i : Nat) (m : String) : Prop :=
  CallAt w Stage.isInside i m

/-- Whoever is inside holds the slot of a proper module, and nobody else is inside there. -/
structure Exclusive (w : World σ) : Prop where
  held : ∀ i m, Inside w i m → w.cache.isHeld m = true
  ordinary : ∀ i m, Inside w i m → Module.isWorkspaceName m = false
  unique : ∀ i j m, Inside w i m → Inside w j m → i = j

namespace Exclusive

theorem nobody (he : Exclusive w) {m : String} (hfree : w.cache.isHeld m = false) (i : Nat) :
    ¬ Inside w i m := by
  intro hin
  have hbusy := he.held i m hin
  rw [hfree] at hbusy
  cases hbusy

theorem of_inside (he : Exclusive w) (hin : ∀ i m, Inside w' i m → Inside w i m)
    (hheld : ∀ t, w'.cache.isHeld t = w.cache.isHeld t) : Exclusive w' := by
  refine ⟨fun i m hi => ?_, fun i m hi => he.ordinary i m (hin i m hi),
    fun i j m hi hj => he.unique i j m (hin i m hi) (hin j m hj)⟩
  rw [hheld]
  exact he.held i m (hin i m hi)

theorem takes (he : Exclusive w) {i : Nat} {m : String} {stage : Stage} {session : Session σ}
    (ordinary : Module.isWorkspaceName m = false) (hfree : w.cache.isHeld m = false)
    (hheld : ∀ t, session.cache.isHeld t = if t = m then true else w.cache.isHeld t) :
    Exclusive (w.afterStep i m stage session) := by
  have hnobody := he.nobody hfree
  refine ⟨fun j u hj => ?_, fun j u hj => ?_, fun j k u hj hk => ?_⟩
  · show session.cache.isHeld u = true
    rw [hheld]
    split
    · rfl
    · rename_i hne
      rcases hj.of_setCall with ⟨-, rfl, -⟩ | ⟨-, hj⟩
      · exact absurd rfl hne
      · exact he.held j u hj
  · rcases hj.of_setCall with ⟨-, rfl, -⟩ | ⟨-, hj⟩
    · exact ordinary
    · exact he.ordinary j u hj
  · rcases hj.of_setCall with ⟨hji, hu, -⟩ | ⟨-, hj⟩ <;>
      rcases hk.of_setCall with ⟨hki, hu', -⟩ | ⟨-, hk⟩
    · exact hji.trans hki.symm
    · subst hu
      exact absurd hk (hnobody k)
    · subst hu'
      exact absurd hj (hnobody j)
    · exact he.unique j k u hj hk

theorem leaves (he : Exclusive w) {i : Nat} {m : String} {stage : Stage} {session : Session σ}
    (hwas : Inside w i m) (hout : stage.isInside = false)
    (hheld : ∀ t, session.cache.isHeld t = if t = m then false else w.cache.isHeld t) :
    Exclusive (w.afterStep i m stage session) := by
  have hback : ∀ j u, Inside (w.afterStep i m stage session) j u → u ≠ m ∧ Inside w j u := by
    intro j u hj
    rcases hj.of_setCall with ⟨-, -, hin⟩ | ⟨hne, hin⟩
    · exact absurd (hout.symm.trans hin) Bool.false_ne_true
    · exact ⟨fun hu => hne (he.unique j i m (hu ▸ hin) hwas), hin⟩
  refine ⟨fun j u hj => ?_, fun j u hj => he.ordinary j u (hback j u hj).2,
    fun j k u hj hk => he.unique j k u (hback j u hj).2 (hback k u hk).2⟩
  show session.cache.isHeld u = true
  rw [hheld, if_neg (hback j u hj).1]
  exact he.held j u (hback j u hj).2

theorem stepped (he : Exclusive w) {i : Nat} {call : Call} (hi : w.calls i = some call)
    {deed : Deed} {stage : Stage} {session : Session σ}
    (hs : Step w.now.instant call.stage w.cache deed stage session.cache)
    (hm : call.stage.module? = some call.module) :
    Exclusive (w.afterStep i call.module stage session) := by
  rcases hs.section_cases hm with ⟨hsame, -, -, hheld⟩ | ⟨-, ordinary, hfree, hheld⟩ |
    ⟨-, hwas, hout, hheld⟩
  · refine he.of_inside (fun j u hj => ?_) hheld
    rcases hj.of_setCall with ⟨rfl, rfl, hin⟩ | ⟨-, hj⟩
    · exact ⟨call, hi, rfl, hsame.symm.trans hin⟩
    · exact hj
  · exact he.takes ordinary hfree hheld
  · exact he.leaves ⟨call, hi, rfl, hwas⟩ hout hheld

theorem of_run (run : Run timeout h w) : Exclusive w := by
  refine Run.invariant (P := fun _ w => Exclusive w) (fun r scene now => ?_)
    (fun h w what w' run he hh => ?_) run
  · have hnobody : ∀ i m, ¬ Inside (.initial r scene timeout now) i m := by
      rintro i m ⟨call, hi, -⟩
      cases hi
    exact ⟨fun i m hi => absurd hi (hnobody i m), fun i m hi => absurd hi (hnobody i m),
      fun i _ m hi => absurd hi (hnobody i m)⟩
  · cases hh with
    | asked m new =>
      refine he.of_inside (fun j u hj => ?_) fun _ => rfl
      rcases hj.of_setCall with ⟨-, -, hin⟩ | ⟨-, hj⟩
      · cases hin
      · exact hj
    | stepped here next =>
      have hs := step_of_advance next
      exact he.stepped here hs ((Sound.of_run run).module?_of_step here hs)
    | tried t begun new =>
      exact he.of_inside (fun _ _ hj => hj) (w.cache.onlyRecords_clearSlot t).isHeld
    | _ => exact he.of_inside (fun _ _ hj => hj) fun _ => rfl

end Exclusive

/-- The call is between its lookup and its leaving the critical section. -/
def Working (i : Nat) (m : String) (h : List Event) : Prop :=
  Since (fun e => ∀ a, e.what ≠ .stepped i m (.left a))
    (fun e => ∃ answer, e.what = .stepped i m (.lookedUp answer)) h

theorem inside_of_working (run : Run timeout h w) {i : Nat} {m : String} (hw : Working i m h) :
    Inside w i m := by
  revert hw
  -- A lookup is made inside, and from there the only way out is to leave.
  refine Run.invariant (P := fun h w => Working i m h → Inside w i m)
    (fun _ _ _ hw => absurd hw Since.not_nil) (fun h w what w' run ih hh hw => ?_) run
  rcases Since.cons_iff.mp hw with ⟨answer, hlooked⟩ | ⟨hstays, hw⟩
  · have heq : what = .stepped i m (.lookedUp answer) := hlooked
    subst heq
    obtain ⟨call, step, -, rfl, hdeed, next, rfl⟩ := happening_stepped hh
    have hs := step_of_advance next
    rw [hdeed] at hs
    exact CallAt.setCall_iff.mpr ⟨rfl, hs.isInside_of_lookedUp⟩
  · have hin := ih hw
    cases hh with
    | asked u new => exact (CallAt.setCall_iff_of_ne (hin.ne_of_new new)).mpr hin
    | @stepped j call step here next =>
      by_cases hij : i = j
      · subst hij
        obtain ⟨k, hi, rfl, hk⟩ := hin
        rw [here] at hi
        cases hi
        have hs := step_of_advance next
        refine CallAt.setCall_iff.mpr ⟨rfl, ?_⟩
        rcases hs.section_cases ((Sound.of_run run).module?_of_step here hs) with
          ⟨hsame, -⟩ | ⟨hafter, -⟩ | ⟨⟨a, hleft⟩, -⟩
        · exact hsame.trans hk
        · exact hafter
        · exact absurd (congrArg _ hleft) (hstays a)
      · exact (CallAt.setCall_iff_of_ne hij).mpr hin
    | _ => exact hin

end Interleaving

end Buildpath
