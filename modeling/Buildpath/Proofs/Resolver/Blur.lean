import Buildpath.Proofs.Resolver.Interleaving

/-!
# Steps up to the reasons for misses

Two resolutions of one module over different caches do the same as long as the caches answer the
same. Why a lookup misses makes no difference to what follows: the next step depends on the scene
and on whether there is a hit, not on the reason for a miss (`advance_alike`).
-/

namespace Buildpath

namespace Resolver

def Deed.blur : Deed → Deed
  | .lookedUp (.miss _) => .lookedUp (.miss .empty)
  | deed => deed

def Stage.blur : Stage → Stage
  | .missed e _ _ => .missed e false .empty
  | stage => stage

theorem Stage.eq_of_blur {stage twin : Stage} (h : twin.blur = stage.blur) :
    twin = stage ∨ ∃ e hadRecord hadTwin reason why,
      stage = .missed e hadRecord reason ∧ twin = .missed e hadTwin why := by
  cases stage with
  | missed e hadRecord reason =>
    cases twin with
    | missed e' hadTwin why =>
      cases h
      exact Or.inr ⟨e, hadRecord, hadTwin, reason, why, rfl, rfl⟩
    | _ => cases h
  | _ =>
    cases twin with
    | missed e' hadTwin why => cases h
    | _ => exact Or.inl h

theorem Stage.module?_of_blur {stage twin : Stage} (h : twin.blur = stage.blur) :
    twin.module? = stage.module? := by
  rcases eq_of_blur h with rfl | ⟨e, _, _, _, _, rfl, rfl⟩ <;> rfl

theorem Deed.recordAfter_blur (now : Instant) (generation : Nat) (r : Option CacheRecord)
    (deed : Deed) : deed.blur.recordAfter now generation r = deed.recordAfter now generation r := by
  unfold blur
  split <;> rfl

/-- Whether the slot is held after the deed, if `held` was so before. -/
def Deed.heldAfter (held : Bool) : Deed → Bool
  | .took => true
  | .left _ => false
  | _ => held

theorem Deed.heldAfter_blur (held : Bool) (deed : Deed) :
    deed.blur.heldAfter held = deed.heldAfter held := by
  unfold blur
  split <;> rfl

theorem Deed.recordAfter_const_or (now : Instant) (generation : Nat) (deed : Deed) :
    (∃ o, ∀ r, deed.recordAfter now generation r = o) ∨
      ∀ r, deed.recordAfter now generation r = r := by
  by_cases hm : ∃ reason, deed = .lookedUp (.miss reason)
  · obtain ⟨reason, rfl⟩ := hm
    exact Or.inl ⟨none, fun _ => rfl⟩
  by_cases hk : ∃ cp, deed = .stored cp true
  · obtain ⟨cp, rfl⟩ := hk
    exact Or.inl ⟨some ⟨cp, now, generation⟩, fun _ => rfl⟩
  · exact Or.inr fun r => recordAfter_of_ne (fun reason h => hm ⟨reason, h⟩) fun cp h => hk ⟨cp, h⟩

variable {σ : Type}

/-- To the next step of the resolution the second cache answers what the first one answers, up to
the reasons for misses. -/
structure AnswersAlike (c d : Cache) (now : Instant) (stage : Stage) : Prop where
  held : ∀ m, stage = .asked m → d.isHeld m = c.isHeld m
  generation : d.generation = c.generation
  imports : d.isImporting = c.isImporting
  hits : ∀ e cp, stage = .entered e →
    ((d.lookup e now).1 = .hit cp ↔ (c.lookup e now).1 = .hit cp)

/-- The steps come to the same, up to the reasons for misses and what becomes of the cache. -/
structure StepsAlike (step step' : Traced (Deed × Stage × Session σ)) : Prop where
  deed : step'.value.1.blur = step.value.1.blur
  stage : step'.value.2.1.blur = step.value.2.1.blur
  scene : step'.value.2.2.scene = step.value.2.2.scene

variable {r : Resolver σ} {now : Moment} {scene : Scene σ} {c d : Cache} {stage twin : Stage}
  {step : Traced (Deed × Stage × Session σ)}

theorem advance_asked_alike {m : String}
    (next : advance r now ⟨scene, c⟩ (.asked m) = some step) (hheld : d.isHeld m = c.isHeld m) :
    ∃ step', advance r now ⟨scene, d⟩ (.asked m) = some step' ∧ StepsAlike step step' := by
  simp only [advance, hheld] at next ⊢
  by_cases hpseudo : Module.isWorkspaceName m = true
  · rw [if_pos hpseudo] at next ⊢
    cases next
    exact ⟨_, rfl, rfl, rfl, rfl⟩
  · rw [if_neg hpseudo] at next ⊢
    by_cases hbusy : c.isHeld m = true
    · rw [if_pos hbusy] at next
      cases next
    · rw [if_neg hbusy] at next ⊢
      cases next
      exact ⟨_, rfl, rfl, rfl, rfl⟩

theorem advance_entered_alike {e : CacheEntry}
    (next : advance r now ⟨scene, c⟩ (.entered e) = some step)
    (hhits : ∀ cp, (d.lookup e now.instant).1 = .hit cp ↔ (c.lookup e now.instant).1 = .hit cp) :
    ∃ step', advance r now ⟨scene, d⟩ (.entered e) = some step' ∧ StepsAlike step step' := by
  simp only [advance] at next ⊢
  generalize c.lookup e now.instant = answer at next hhits
  generalize d.lookup e now.instant = answer' at hhits ⊢
  obtain ⟨answer, c'⟩ := answer
  obtain ⟨answer', d'⟩ := answer'
  cases answer with
  | hit cp =>
    cases (hhits cp).mpr rfl
    cases next
    exact ⟨_, rfl, rfl, rfl, rfl⟩
  | miss reason =>
    cases answer' with
    | hit cp => cases (hhits cp).mp rfl
    | miss why =>
      cases next
      exact ⟨_, rfl, rfl, rfl, rfl⟩

theorem advance_missed_alike {e : CacheEntry} {hadRecord : Bool} {reason : Miss} (hadTwin : Bool)
    (why : Miss) (next : advance r now ⟨scene, c⟩ (.missed e hadRecord reason) = some step) :
    ∃ step', advance r now ⟨scene, d⟩ (.missed e hadTwin why) = some step' ∧
      StepsAlike step step' := by
  cases next
  refine ⟨_, rfl, ?_⟩
  suffices h : _ ∧ _ ∧ _ from ⟨h.1, h.2.1, h.2.2⟩
  simp only [Traced.bind_value]
  cases (Assembler.start r e.target scene).value with
  | mk answer after => cases answer <;> exact ⟨rfl, rfl, rfl⟩

theorem advance_waiting_alike {p : Pass}
    (next : advance r now ⟨scene, c⟩ (.waiting p) = some step) :
    ∃ step', advance r now ⟨scene, d⟩ (.waiting p) = some step' ∧ StepsAlike step step' := by
  cases next
  refine ⟨_, rfl, ?_⟩
  suffices h : _ ∧ _ ∧ _ from ⟨h.1, h.2.1, h.2.2⟩
  simp only [Traced.bind_value]
  cases (Assembler.finish r p.query now.time scene).value with
  | mk answer after => cases answer <;> exact ⟨rfl, rfl, rfl⟩

theorem advance_assembled_alike {e : CacheEntry} {cp : Classpath}
    (next : advance r now ⟨scene, c⟩ (.assembled e cp) = some step)
    (hgen : d.generation = c.generation) (himports : d.isImporting = c.isImporting) :
    ∃ step', advance r now ⟨scene, d⟩ (.assembled e cp) = some step' ∧ StepsAlike step step' := by
  cases next
  have hkept : (d.store e cp now.instant).value.1 = (c.store e cp now.instant).value.1 := by
    rw [Bool.eq_iff_iff, Cache.stored_iff, Cache.stored_iff, himports, hgen]
  refine ⟨_, rfl, ?_, rfl, rfl⟩
  simp only [Traced.bind_value, Interleaving.complete_value, Traced.pure_value, hkept]

/-- The next step depends on the scene and on what the cache answers, and on nothing else. -/
theorem advance_alike (hblur : twin.blur = stage.blur)
    (next : advance r now ⟨scene, c⟩ stage = some step) (ha : AnswersAlike c d now.instant stage) :
    ∃ step', advance r now ⟨scene, d⟩ twin = some step' ∧ StepsAlike step step' := by
  rcases Stage.eq_of_blur hblur with rfl | ⟨e, hadRecord, hadTwin, reason, why, rfl, rfl⟩
  · cases twin with
    | asked m => exact advance_asked_alike next (ha.held m rfl)
    | holding m =>
      cases next
      have hentry : d.entry m = c.entry m := congrArg (CacheEntry.mk m) ha.generation
      exact ⟨_, rfl, rfl, congrArg Stage.entered hentry, rfl⟩
    | entered e => exact advance_entered_alike next fun cp => ha.hits e cp rfl
    | missed e hadRecord reason => exact advance_missed_alike hadRecord reason next
    | waiting p => exact advance_waiting_alike next
    | assembled e cp => exact advance_assembled_alike next ha.generation ha.imports
    | leaving e cp =>
      cases next
      exact ⟨_, rfl, rfl, rfl, rfl⟩
    | answered cp => cases next
  · exact advance_missed_alike hadTwin why next

end Resolver

end Buildpath
