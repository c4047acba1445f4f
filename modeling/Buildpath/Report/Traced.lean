import Buildpath.Report.Progress

/-!
# Values with notices

A computation reports while it runs: diagnostics for the log and events for an observer, in one
order. `Traced α` is a value together with the notices that came before it was known. Notices are
only ever added at the end, so running one computation after another concatenates them.

Models how the components report, to the log and to a progress handler.
-/

namespace Buildpath

/-- Something reported on the way to a result. -/
inductive Notice where
  | diagnostic (d : Diagnostic)
  | progress (e : Progress)
deriving DecidableEq, Repr

namespace Notice

/-- The event, if the notice is one. -/
def event? : Notice → Option Progress
  | .progress e => some e
  | .diagnostic _ => none

def logLine : Notice → Diagnostic
  | .diagnostic d => d
  | .progress e => e.diagnostic

end Notice

/-- A value and what was reported before it was known. -/
@[ext] structure Traced (α : Type) where
  value : α
  notices : List Notice

namespace Traced

instance : Monad Traced where
  pure a := ⟨a, []⟩
  bind x f := ⟨(f x.value).value, x.notices ++ (f x.value).notices⟩

variable {α β : Type}

@[simp] theorem pure_value (a : α) : (pure a : Traced α).value = a := rfl

@[simp] theorem pure_notices (a : α) : (pure a : Traced α).notices = [] := rfl

@[simp] theorem bind_value (x : Traced α) (f : α → Traced β) :
    (x >>= f).value = (f x.value).value := rfl

@[simp] theorem bind_notices (x : Traced α) (f : α → Traced β) :
    (x >>= f).notices = x.notices ++ (f x.value).notices := rfl

@[simp] theorem map_value (f : α → β) (x : Traced α) : (f <$> x).value = f x.value := rfl

@[simp] theorem map_notices (f : α → β) (x : Traced α) : (f <$> x).notices = x.notices := by
  show x.notices ++ [] = x.notices
  simp

instance : LawfulMonad Traced :=
  LawfulMonad.mk' Traced
    (fun x => Traced.ext rfl (List.append_nil x.notices))
    (fun _ _ => rfl)
    (fun x f g => Traced.ext rfl (List.append_assoc x.notices _ _))

def log (level : Level) (area : Area) (message : String)
    (details : List (String × Detail)) : Traced Unit :=
  ⟨(), [.diagnostic ⟨level, area, message, details⟩]⟩

/-- Reports one event. -/
def emit (e : Progress) : Traced Unit :=
  ⟨(), [.progress e]⟩

/-- The events among the notices. -/
def events (x : Traced α) : List Progress :=
  x.notices.filterMap Notice.event?

@[simp] theorem events_pure (a : α) : (pure a : Traced α).events = [] := rfl

@[simp] theorem events_bind (x : Traced α) (f : α → Traced β) :
    (x >>= f).events = x.events ++ (f x.value).events :=
  List.filterMap_append

@[simp] theorem events_map (f : α → β) (x : Traced α) : (f <$> x).events = x.events := by
  unfold events
  rw [map_notices]

@[simp] theorem events_log (level : Level) (area : Area) (message : String)
    (details : List (String × Detail)) : (log level area message details).events = [] := rfl

@[simp] theorem events_emit (e : Progress) : (emit e).events = [e] := rfl

/-- Whether some element passes the test; elements after the first that does are not tested. -/
def any (test : α → Traced Bool) : List α → Traced Bool
  | [] => pure false
  | a :: rest => do
    if ← test a then pure true else any test rest

theorem any_value (test : α → Traced Bool) (l : List α) :
    (any test l).value = l.any fun a => (test a).value := by
  induction l with
  | nil => rfl
  | cons a rest ih =>
    simp only [any, bind_value, List.any_cons]
    cases (test a).value <;> simp [ih]

theorem events_any {test : α → Traced Bool} (h : ∀ a, (test a).events = []) (l : List α) :
    (any test l).events = [] := by
  induction l with
  | nil => rfl
  | cons a rest ih =>
    simp only [any, events_bind, h, List.nil_append]
    cases (test a).value <;> simp [ih]

/-- The first element that passes the test. -/
def find? (test : α → Traced Bool) : List α → Traced (Option α)
  | [] => pure none
  | a :: rest => do
    if ← test a then pure (some a) else find? test rest

theorem find?_value (test : α → Traced Bool) (l : List α) :
    (find? test l).value = l.find? fun a => (test a).value := by
  induction l with
  | nil => rfl
  | cons a rest ih =>
    simp only [find?, bind_value, List.find?_cons]
    cases (test a).value <;> simp [ih]

theorem events_find? {test : α → Traced Bool} (h : ∀ a, (test a).events = []) (l : List α) :
    (find? test l).events = [] := by
  induction l with
  | nil => rfl
  | cons a rest ih =>
    simp only [find?, events_bind, h, List.nil_append]
    cases (test a).value <;> simp [ih]

/-- The first answer that any element gives. -/
def firstSome (answer : α → Traced (Option β)) : List α → Traced (Option β)
  | [] => pure none
  | a :: rest => do
    match ← answer a with
    | some b => pure (some b)
    | none => firstSome answer rest

theorem firstSome_value (answer : α → Traced (Option β)) (l : List α) :
    (firstSome answer l).value = l.findSome? fun a => (answer a).value := by
  induction l with
  | nil => rfl
  | cons a rest ih =>
    simp only [firstSome, bind_value, List.findSome?_cons]
    cases (answer a).value <;> simp [ih]

theorem events_firstSome {answer : α → Traced (Option β)} (h : ∀ a, (answer a).events = [])
    (l : List α) : (firstSome answer l).events = [] := by
  induction l with
  | nil => rfl
  | cons a rest ih =>
    simp only [firstSome, events_bind, h, List.nil_append]
    cases (answer a).value <;> simp [ih]

end Traced

end Buildpath
