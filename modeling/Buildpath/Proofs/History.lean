/-!
# Histories

What happened in a run is kept as a list of events, the latest one first. `Since hold mark h` is the
past-time operator "since": at some time an event with `mark` happened, and every event after it has
`hold`. A condition on a run is written with it once, and each kind of event either keeps it, begins
it or ends it (`Since.cons_iff`). `Throughout` is for a stretch of a history: each of its events is
judged by what happened before it.
-/

namespace Buildpath

/-- Some event of the history is marked, and all events after that one hold. -/
inductive Since {ε : Type} (hold mark : ε → Prop) : List ε → Prop where
  | now {e : ε} {h : List ε} : mark e → Since hold mark (e :: h)
  | still {e : ε} {h : List ε} : hold e → Since hold mark h → Since hold mark (e :: h)

namespace Since

variable {ε : Type} {hold mark : ε → Prop}

@[simp] theorem not_nil : ¬ Since hold mark [] := by
  intro h
  cases h

theorem cons_iff {e : ε} {h : List ε} :
    Since hold mark (e :: h) ↔ mark e ∨ hold e ∧ Since hold mark h := by
  constructor
  · intro hs
    cases hs with
    | now hm => exact Or.inl hm
    | still hh hs => exact Or.inr ⟨hh, hs⟩
  · rintro (hm | ⟨hh, hs⟩)
    · exact .now hm
    · exact .still hh hs

/-- An event that holds and is not marked changes nothing. -/
theorem cons_iff_of_hold {e : ε} {h : List ε} (hh : hold e) (hm : ¬ mark e) :
    Since hold mark (e :: h) ↔ Since hold mark h := by
  rw [cons_iff]
  exact ⟨fun hs => hs.elim (absurd · hm) (·.2), fun hs => Or.inr ⟨hh, hs⟩⟩

/-- The operator spelled out: the history splits at the marked event. -/
theorem iff_split {h : List ε} :
    Since hold mark h ↔
      ∃ later e earlier, h = later ++ e :: earlier ∧ mark e ∧ ∀ x ∈ later, hold x := by
  constructor
  · intro hs
    induction hs with
    | @now e h hm => exact ⟨[], e, h, rfl, hm, by simp⟩
    | @still e h hh _ ih =>
      obtain ⟨later, x, earlier, rfl, hm, hl⟩ := ih
      refine ⟨e :: later, x, earlier, rfl, hm, fun y hy => ?_⟩
      rcases List.mem_cons.mp hy with rfl | hy
      · exact hh
      · exact hl y hy
  · rintro ⟨later, e, earlier, rfl, hm, hl⟩
    induction later with
    | nil => exact .now hm
    | cons y later ih =>
      exact .still (hl y List.mem_cons_self) (ih fun x hx => hl x (List.mem_cons_of_mem _ hx))

theorem append {later h : List ε} (hl : ∀ e ∈ later, hold e) (hs : Since hold mark h) :
    Since hold mark (later ++ h) := by
  induction later with
  | nil => exact hs
  | cons e later ih =>
    exact .still (hl e List.mem_cons_self) (ih fun x hx => hl x (List.mem_cons_of_mem _ hx))

theorem mono {hold' mark' : ε → Prop} {h : List ε} (hs : Since hold mark h)
    (hhold : ∀ e, hold e → hold' e) (hmark : ∀ e, mark e → mark' e) : Since hold' mark' h := by
  induction hs with
  | now hm => exact .now (hmark _ hm)
  | still hh _ ih => exact .still (hhold _ hh) ih

/-- If the condition has lasted since a marked event, any event that breaks it came before. -/
theorem mark_after {later earlier : List ε} {x : ε} (hs : Since hold mark (later ++ x :: earlier))
    (hx : ¬ hold x) (hm : ¬ mark x) : Since hold mark later := by
  induction later with
  | nil =>
    rcases cons_iff.mp hs with h | h
    · exact absurd h hm
    · exact absurd h.1 hx
  | cons y later ih =>
    rcases cons_iff.mp hs with h | ⟨hy, h⟩
    · exact .now h
    · exact .still hy (ih h)

theorem exists_mem {h : List ε} (hs : Since hold mark h) : ∃ e ∈ h, mark e := by
  obtain ⟨later, e, earlier, rfl, hm, _⟩ := iff_split.mp hs
  exact ⟨e, by simp, hm⟩

end Since

/-- Every event of a stretch after `before` satisfies `P`, given the history in front of it. -/
def Throughout {ε : Type} (P : List ε → ε → Prop) (before : List ε) : List ε → Prop
  | [] => True
  | e :: later => P (later ++ before) e ∧ Throughout P before later

namespace Throughout

variable {ε : Type} {P Q : List ε → ε → Prop} {before : List ε}

theorem of_forall {l : List ε} (h : ∀ past e, P past e) : Throughout P before l := by
  induction l with
  | nil => trivial
  | cons e l ih => exact ⟨h _ e, ih⟩

theorem mono {l : List ε} (hl : Throughout P before l) (h : ∀ e ∈ l, ∀ past, P past e → Q past e) :
    Throughout Q before l := by
  induction l with
  | nil => trivial
  | cons e l ih =>
    exact ⟨h e List.mem_cons_self _ hl.1, ih hl.2 fun x hx => h x (List.mem_cons_of_mem _ hx)⟩

/-- The later part of a stretch is a stretch of its own. -/
theorem append_iff {later earlier : List ε} :
    Throughout P before (later ++ earlier) ↔
      Throughout P (earlier ++ before) later ∧ Throughout P before earlier := by
  induction later with
  | nil => simp [Throughout]
  | cons e later ih =>
    simp only [List.cons_append, Throughout, ih, List.append_assoc, and_assoc]

end Throughout

end Buildpath
