import Buildpath.Tool.Bazel
import Mathlib.Logic.Function.Basic

/-!
# What a query finds

A query takes the metadata of a target from memory if it is there and from a build otherwise
(`Bazel.recalled`), target by target up to the first that fails (`gather`). It never forgets, and
while builds find the same in every world that running Bazel leads to (`Bazel.Finds`), it remembers
the targets before the first failure (`Finds.metadataOf?_metadataOfAll`). In a union the later
metadata decides about its labels.
-/

namespace Buildpath

namespace Metadata

/-! ### Membership -/

theorem mem_place_iff {d e : Dependency} {l : List Dependency}
    (h : l.Pairwise fun d e => d.label < e.label) :
    d ∈ place e l ↔ d = e ∨ d ∈ l ∧ d.label ≠ e.label := by
  induction l with
  | nil => simp [place]
  | cons a rest ih =>
    obtain ⟨hhead, htail⟩ := List.pairwise_cons.mp h
    have hless : ∀ x ∈ rest, a.label ≠ x.label := fun x hx heq =>
      String.lt_irrefl _ (heq ▸ hhead x hx)
    simp only [place]
    split
    · rename_i hlt
      -- All labels of the list come after the one that is placed.
      have hnew : ∀ x ∈ a :: rest, x.label ≠ e.label := by
        intro x hx heq
        rcases List.mem_cons.mp hx with rfl | hx
        · exact String.lt_irrefl _ (heq ▸ hlt)
        · exact String.lt_irrefl _ (String.lt_trans hlt (heq ▸ hhead x hx))
      rw [List.mem_cons]
      exact or_congr_right ⟨fun hx => ⟨hx, hnew d hx⟩, And.left⟩
    · split
      · rename_i heq
        rw [List.mem_cons, List.mem_cons]
        refine or_congr_right ⟨fun hx => ⟨Or.inr hx, fun hd => ?_⟩, ?_⟩
        · exact hless d hx (heq.symm.trans hd.symm)
        · rintro ⟨rfl | hx, hne⟩
          · exact absurd heq.symm hne
          · exact hx
      · rename_i hne
        rw [List.mem_cons, List.mem_cons, ih htail]
        constructor
        · rintro (rfl | rfl | ⟨hx, hlabel⟩)
          · exact Or.inr ⟨Or.inl rfl, Ne.symm hne⟩
          · exact Or.inl rfl
          · exact Or.inr ⟨Or.inr hx, hlabel⟩
        · rintro (rfl | ⟨rfl | hx, hlabel⟩)
          · exact Or.inr (Or.inl rfl)
          · exact Or.inl rfl
          · exact Or.inr (Or.inr ⟨hx, hlabel⟩)

theorem mem_insert_iff (m : Metadata) {d e : Dependency} :
    d ∈ (m.insert e).units ↔ d = e ∨ d ∈ m.units ∧ d.label ≠ e.label :=
  mem_place_iff m.ascending

theorem mem_foldl_insert_iff {d : Dependency} {l : List Dependency}
    (h : l.Pairwise fun d e => d.label < e.label) (m : Metadata) :
    d ∈ (l.foldl insert m).units ↔ d ∈ l ∨ d ∈ m.units ∧ ∀ e ∈ l, d.label ≠ e.label := by
  induction l generalizing m with
  | nil => simp
  | cons a rest ih =>
    obtain ⟨hhead, htail⟩ := List.pairwise_cons.mp h
    rw [List.foldl_cons, ih htail, mem_insert_iff]
    simp only [List.mem_cons, forall_eq_or_imp]
    constructor
    · rintro (hd | ⟨rfl | ⟨hd, hne⟩, hnew⟩)
      · exact Or.inl (Or.inr hd)
      · exact Or.inl (Or.inl rfl)
      · exact Or.inr ⟨hd, hne, hnew⟩
    · rintro ((rfl | hd) | ⟨hd, hne, hnew⟩)
      · refine Or.inr ⟨Or.inl rfl, fun e he heq => ?_⟩
        exact String.lt_irrefl _ (heq ▸ hhead e he)
      · exact Or.inl hd
      · exact Or.inr ⟨Or.inr ⟨hd, hne⟩, hnew⟩

theorem mem_union_iff (m n : Metadata) {d : Dependency} :
    d ∈ (m.union n).units ↔ d ∈ n.units ∨ d ∈ m.units ∧ ∀ e ∈ n.units, d.label ≠ e.label :=
  mem_foldl_insert_iff n.ascending m

end Metadata

/-! ### Target by target -/

section

variable (ask : String → Except Failure Metadata)

/-- The metadata of the targets, added to what was found, up to the first failure. -/
def gather : List String → Metadata → Except Failure Metadata
  | [], found => .ok found
  | target :: rest, found =>
    match ask target with
    | .error f => .error f
    | .ok m => gather rest (found.union m)

variable {ask}

theorem gather_congr {ask' : String → Except Failure Metadata} {targets : List String}
    (h : ∀ t ∈ targets, ask t = ask' t) (found : Metadata) :
    gather ask targets found = gather ask' targets found := by
  induction targets generalizing found with
  | nil => rfl
  | cons t rest ih =>
    obtain ⟨ht, hrest⟩ := List.forall_mem_cons.mp h
    simp only [gather, ht]
    cases ask' t with
    | error f => rfl
    | ok m => exact ih hrest _

/-- The targets before the first that fails. -/
def upToFailure (ask : String → Except Failure Metadata) (targets : List String) : List String :=
  targets.takeWhile fun t => (ask t).toOption.isSome

theorem upToFailure_cons (t : String) (rest : List String) :
    upToFailure ask (t :: rest) =
      match ask t with
      | .error _ => []
      | .ok _ => t :: upToFailure ask rest := by
  rw [upToFailure, List.takeWhile_cons]
  cases ask t <;> rfl

theorem gather_eq_error_iff {targets : List String} {found : Metadata} {f : Failure} :
    gather ask targets found = .error f ↔
      ∃ t after, targets = upToFailure ask targets ++ t :: after ∧ ask t = .error f := by
  induction targets generalizing found with
  | nil => simp [gather]
  | cons t rest ih =>
    rw [gather, upToFailure_cons]
    cases ht : ask t with
    | error g =>
      constructor
      · intro h
        exact ⟨t, rest, rfl, ht.trans h⟩
      · rintro ⟨u, after, hsplit, hu⟩
        obtain ⟨rfl, -⟩ := List.cons.inj hsplit
        exact ht.symm.trans hu
    | ok m => simp [ih]

/-- The dependencies of a label come from the last target that has the label. -/
theorem mem_gather_iff {targets : List String} {found all : Metadata}
    (h : gather ask targets found = .ok all) (d : Dependency) :
    d ∈ all.units ↔
      (∃ before t after m, targets = before ++ t :: after ∧ ask t = .ok m ∧ d ∈ m.units ∧
        ∀ u ∈ after, ∀ n, ask u = .ok n → ∀ e ∈ n.units, d.label ≠ e.label) ∨
      d ∈ found.units ∧ ∀ u ∈ targets, ∀ n, ask u = .ok n → ∀ e ∈ n.units, d.label ≠ e.label := by
  induction targets generalizing found with
  | nil =>
    cases h
    simp
  | cons t rest ih =>
    rw [gather] at h
    cases ht : ask t with
    | error f =>
      rw [ht] at h
      cases h
    | ok m =>
      rw [ht] at h
      rw [ih h, Metadata.mem_union_iff]
      constructor
      · rintro (⟨before, u, after, n, rfl, hu, hd, hlast⟩ | ⟨hd | ⟨hd, hnew⟩, hlast⟩)
        · exact Or.inl ⟨t :: before, u, after, n, rfl, hu, hd, hlast⟩
        · exact Or.inl ⟨[], t, rest, m, rfl, ht, hd, hlast⟩
        · refine Or.inr ⟨hd, List.forall_mem_cons.mpr ⟨fun n hn => ?_, hlast⟩⟩
          rw [ht] at hn
          cases hn
          exact hnew
      · rintro (⟨before, u, after, n, hsplit, hu, hd, hlast⟩ | ⟨hd, hlast⟩)
        · cases before with
          | nil =>
            obtain ⟨rfl, rfl⟩ := List.cons.inj hsplit
            rw [ht] at hu
            cases hu
            exact Or.inr ⟨Or.inl hd, hlast⟩
          | cons a before =>
            obtain ⟨rfl, rfl⟩ := List.cons.inj hsplit
            exact Or.inl ⟨before, u, after, n, rfl, hu, hd, hlast⟩
        · obtain ⟨hfirst, hlast⟩ := List.forall_mem_cons.mp hlast
          exact Or.inr ⟨Or.inr ⟨hd, hfirst m ht⟩, hlast⟩

end

/-! ### The memory -/

namespace BazelMemory

variable {ω : Type} (s : BazelMemory ω) (t target : String)

theorem lookup_filter (p : String → Bool) (l : List (String × Metadata)) :
    (l.filter fun x => p x.1).lookup t = if p t then l.lookup t else none := by
  induction l with
  | nil => simp
  | cons x rest ih =>
    obtain ⟨u, m⟩ := x
    by_cases hu : t = u
    · subst hu
      cases hp : p t <;> simp [hp, ih]
    · cases hp : p u <;> simp [hp, ih, List.lookup_cons, beq_false_of_ne hu]

@[simp] theorem metadataOf?_learn (m : Metadata) :
    (s.learn target m).metadataOf? t = if t = target then some m else s.metadataOf? t := by
  unfold metadataOf? learn
  rw [List.lookup_cons, lookup_filter t (· != target)]
  by_cases h : t = target
  · simp [h]
  · simp [h, beq_false_of_ne h]

theorem metadataOf?_forget (targets : List String) :
    (s.forget targets).metadataOf? t = if t ∈ targets then none else s.metadataOf? t := by
  unfold metadataOf? forget
  rw [lookup_filter t fun target => !targets.contains target]
  by_cases h : t ∈ targets <;> simp [h]

/-- The memory after more programs have been started, in the world that they leave. -/
def note (started : List (List String)) (world : ω) : BazelMemory ω :=
  { s with history := s.history ++ started, world }

@[simp] theorem note_nil : s.note [] s.world = s := by
  simp [note]

@[simp] theorem metadataOf?_note (started : List (List String)) (world : ω) :
    (s.note started world).metadataOf? t = s.metadataOf? t := rfl

/-- The metadata of a target, from memory if it is there and otherwise asked for. -/
def metadataOr (ask : String → Except Failure Metadata) : Except Failure Metadata :=
  match s.metadataOf? t with
  | some m => .ok m
  | none => ask t

end BazelMemory

/-! ### Running Bazel -/

/-- What Bazel is run for. -/
inductive Errand where
  | info (key : String)
  | version
  | build (target : String)
deriving DecidableEq, Repr

namespace Bazel

variable {ω : Type} (b : Bazel ω) (s : BazelMemory ω) (t u : String)

def command : Errand → Command
  | .info key => ⟨b.program, ["info", key], some b.root⟩
  | .version => ⟨b.program, ["--version"], none⟩
  | .build target => ⟨b.program, b.aspectArguments target, some b.root⟩

/-- What comes of an errand in a world. -/
def outcome (errand : Errand) (world : ω) : Except SystemError Outcome :=
  (b.launch (b.command errand) world).1

/-- The world that an errand leaves. -/
def left (errand : Errand) (world : ω) : ω :=
  (b.launch (b.command errand) world).2

/-- The arguments that are noted for an errand. -/
def started (errand : Errand) (world : ω) : List (List String) :=
  match b.outcome errand world with
  | .error _ => []
  | .ok _ => [(b.command errand).arguments]

theorem start_value (errand : Errand) :
    b.start (b.command errand).arguments (b.command errand).directory s =
      (b.outcome errand s.world, s.note (b.started errand s.world) (b.left errand s.world)) := by
  have hcommand : (⟨b.program, (b.command errand).arguments, (b.command errand).directory⟩ : Command) =
      b.command errand := by
    cases errand <;> rfl
  unfold start started outcome left
  rw [hcommand]
  cases b.launch (b.command errand) s.world with
  | mk result world => cases result <;> simp [BazelMemory.note]

/-- The aspect files that a build names in what it prints. -/
def announced (o : Outcome) : List Path :=
  aspectFiles b.root (o.outputText ++ '\n' :: o.messageText)

/-- What building the target with the aspect finds in a world. -/
def foundIn (b : Bazel ω) (world : ω) (t : String) : Except Failure Metadata :=
  match b.outcome (.build t) world with
  | .error e => .error e.toFailure
  | .ok o =>
    if o.succeeded then
      .ok (b.readAspectFiles (b.left (.build t) world) (b.announced o) .empty).value
    else .error (.queryFailed ("aspect build of " ++ t ++ " failed: " ++ lastLine o.messageText))

theorem build_value :
    (b.build t s).value =
      (b.foundIn s.world t,
        s.note (b.started (.build t) s.world) (b.left (.build t) s.world)) := by
  have hrun : (b.run (b.aspectArguments t) s).value =
      ((b.outcome (.build t) s.world).mapError SystemError.toFailure,
        s.note (b.started (.build t) s.world) (b.left (.build t) s.world)) := by
    simp only [run, Traced.bind_value, Traced.pure_value]
    rw [show b.start (b.aspectArguments t) (some b.root) s = _ from b.start_value s (.build t)]
  unfold foundIn
  simp only [build, Traced.bind_value, hrun]
  cases b.outcome (.build t) s.world with
  | error e => rfl
  | ok o =>
    cases o with
    | mk succeeded stdout stderr => cases succeeded <;> rfl

/-- The metadata of a target, from memory if it is there and from a build otherwise. -/
def recalled : Except Failure Metadata :=
  s.metadataOr t (b.foundIn s.world)

theorem metadataOf_of_some {m : Metadata} (h : s.metadataOf? t = some m) :
    (b.metadataOf t s).value = (.ok m, s) := by
  simp [metadataOf, h]

theorem metadataOf_of_none (h : s.metadataOf? t = none) :
    (b.metadataOf t s).value =
      let noted := s.note (b.started (.build t) s.world) (b.left (.build t) s.world)
      match b.foundIn s.world t with
      | .error f => (.error f, noted)
      | .ok m => (.ok m, noted.learn t m) := by
  simp only [metadataOf, h, Traced.bind_value, build_value]
  cases b.foundIn s.world t <;> rfl

theorem answer_metadataOf : (b.metadataOf t s).value.1 = b.recalled s t := by
  unfold recalled BazelMemory.metadataOr
  cases h : s.metadataOf? t with
  | some m => rw [metadataOf_of_some b s t h]
  | none =>
    rw [metadataOf_of_none b s t h]
    cases b.foundIn s.world t <;> rfl

theorem metadataOf?_metadataOf :
    (b.metadataOf t s).value.2.metadataOf? u =
      if u = t then (b.recalled s t).toOption else s.metadataOf? u := by
  unfold recalled BazelMemory.metadataOr
  cases h : s.metadataOf? t with
  | some m =>
    rw [metadataOf_of_some b s t h]
    by_cases hu : u = t <;> simp [hu, h, Except.toOption]
  | none =>
    rw [metadataOf_of_none b s t h]
    cases b.foundIn s.world t with
    | error f => by_cases hu : u = t <;> simp [hu, h, Except.toOption]
    | ok m => by_cases hu : u = t <;> simp [hu, Except.toOption]

theorem metadataOfAll_cons (rest : List String) (found : Metadata) :
    (b.metadataOfAll (t :: rest) found s).value =
      match b.recalled s t with
      | .error f => (.error f, (b.metadataOf t s).value.2)
      | .ok m => (b.metadataOfAll rest (found.union m) (b.metadataOf t s).value.2).value := by
  rw [← answer_metadataOf]
  simp only [metadataOfAll, Traced.bind_value]
  cases (b.metadataOf t s).value with
  | mk answer s' => cases answer <;> rfl

/-! ### Worlds -/

/-- The worlds that running Bazel can lead to. -/
inductive Reaches (start : ω) : ω → Prop
  | here : Reaches start start
  | run {world : ω} (h : Reaches start world) (arguments : List String)
    (directory : Option Path) :
    Reaches start (b.launch ⟨b.program, arguments, directory⟩ world).2

variable {b} in
theorem Reaches.trans {x y z : ω} (hxy : b.Reaches x y) (hyz : b.Reaches y z) :
    b.Reaches x z := by
  induction hyz with
  | here => exact hxy
  | run _ arguments directory ih => exact .run ih arguments directory

theorem reaches_left (errand : Errand) (world : ω) : b.Reaches world (b.left errand world) := by
  cases errand <;> exact .run .here _ _

theorem reaches_metadataOf : b.Reaches s.world (b.metadataOf t s).value.2.world := by
  cases h : s.metadataOf? t with
  | some m =>
    rw [metadataOf_of_some b s t h]
    exact .here
  | none =>
    rw [metadataOf_of_none b s t h]
    cases b.foundIn s.world t <;> exact b.reaches_left (.build t) s.world

theorem reaches_metadataOfAll (targets : List String) (found : Metadata) :
    b.Reaches s.world (b.metadataOfAll targets found s).value.2.world := by
  induction targets generalizing found s with
  | nil => exact .here
  | cons t rest ih =>
    have hfirst := b.reaches_metadataOf s t
    rw [metadataOfAll_cons]
    cases b.recalled s t with
    | error f => exact hfirst
    | ok m => exact hfirst.trans (ih _ _)

/-- Whatever running Bazel leads to, building a target finds what `ask` tells. -/
def Finds (ask : String → Except Failure Metadata) (start : ω) : Prop :=
  ∀ world, b.Reaches start world → b.foundIn world = ask

section

variable {b s} {ask : String → Except Failure Metadata}

theorem Finds.of_reaches {x y : ω} (h : b.Finds ask x) (hxy : b.Reaches x y) : b.Finds ask y :=
  fun world hworld => h world (hxy.trans hworld)

theorem Finds.recalled (h : b.Finds ask s.world) : b.recalled s t = s.metadataOr t ask := by
  unfold Bazel.recalled BazelMemory.metadataOr
  rw [h s.world .here]

/-- Asking for one target changes no answer. -/
theorem Finds.metadataOr_metadataOf (h : b.Finds ask s.world) :
    (b.metadataOf t s).value.2.metadataOr u ask = s.metadataOr u ask := by
  have hknown := b.metadataOf?_metadataOf s t u
  rw [h.recalled] at hknown
  by_cases hu : u = t
  · subst hu
    rw [if_pos rfl] at hknown
    unfold BazelMemory.metadataOr at hknown ⊢
    rw [hknown]
    cases s.metadataOf? u with
    | some m => rfl
    | none => cases ask u <;> rfl
  · rw [if_neg hu] at hknown
    unfold BazelMemory.metadataOr
    rw [hknown]

theorem Finds.answer_metadataOfAll (h : b.Finds ask s.world) (targets : List String)
    (found : Metadata) :
    (b.metadataOfAll targets found s).value.1 = gather (s.metadataOr · ask) targets found := by
  induction targets generalizing found s with
  | nil => rfl
  | cons t rest ih =>
    rw [metadataOfAll_cons, gather, h.recalled]
    cases s.metadataOr t ask with
    | error f => rfl
    | ok m =>
      rw [ih (h.of_reaches (b.reaches_metadataOf s t))]
      exact gather_congr (fun u _ => h.metadataOr_metadataOf t u) _

theorem Finds.metadataOf?_metadataOfAll (h : b.Finds ask s.world) (targets : List String)
    (found : Metadata) :
    (b.metadataOfAll targets found s).value.2.metadataOf? u =
      if u ∈ upToFailure (s.metadataOr · ask) targets then (s.metadataOr u ask).toOption
      else s.metadataOf? u := by
  induction targets generalizing found s with
  | nil => rfl
  | cons t rest ih =>
    rw [metadataOfAll_cons, upToFailure_cons, h.recalled]
    cases ht : s.metadataOr t ask with
    | error f =>
      have hunknown : s.metadataOf? t = none := by
        cases hs : s.metadataOf? t with
        | none => rfl
        | some m =>
          rw [BazelMemory.metadataOr, hs] at ht
          cases ht
      rw [metadataOf?_metadataOf, h.recalled, ht]
      by_cases hu : u = t <;> simp [hu, hunknown, Except.toOption]
    | ok m =>
      have hrest : (fun v => (b.metadataOf t s).value.2.metadataOr v ask) = (s.metadataOr · ask) :=
        funext fun v => h.metadataOr_metadataOf t v
      rw [ih (h.of_reaches (b.reaches_metadataOf s t)), hrest, h.metadataOr_metadataOf,
        metadataOf?_metadataOf, h.recalled]
      by_cases hu : u = t <;> simp [hu, ht, Except.toOption]

end

theorem query_value (r : Request) :
    (b.tool.query r s).value = (b.metadataOfAll r.targets .empty s).value := by
  show (b.answer r s).value = _
  simp only [answer, Traced.bind_value]
  cases (b.metadataOfAll r.targets .empty s).value with
  | mk answer s' => cases answer <;> rfl

/-! ### What is known -/

section

variable {b s t}

/-- What is known after a query was known before or has been found by a build. -/
theorem known_of_metadataOfAll {targets : List String} {found m : Metadata}
    (h : (b.metadataOfAll targets found s).value.2.metadataOf? t = some m) :
    s.metadataOf? t = some m ∨
      s.metadataOf? t = none ∧ ∃ world, b.Reaches s.world world ∧ b.foundIn world t = .ok m := by
  induction targets generalizing found s with
  | nil => exact .inl h
  | cons u rest ih =>
    have hone : (b.metadataOf u s).value.2.metadataOf? t = some m →
        s.metadataOf? t = some m ∨ s.metadataOf? t = none ∧
          ∃ world, b.Reaches s.world world ∧ b.foundIn world t = .ok m := by
      intro hknown
      rw [metadataOf?_metadataOf] at hknown
      split at hknown
      · rename_i htu
        subst htu
        unfold recalled BazelMemory.metadataOr at hknown
        cases hs : s.metadataOf? t with
        | some n =>
          rw [hs] at hknown
          exact .inl hknown
        | none =>
          rw [hs] at hknown
          cases hfound : b.foundIn s.world t with
          | error f =>
            simp [hfound, Except.toOption] at hknown
          | ok n =>
            simp only [hfound, Except.toOption, Option.some.injEq] at hknown
            exact .inr ⟨rfl, s.world, .here, hknown ▸ hfound⟩
      · exact .inl hknown
    rw [metadataOfAll_cons] at h
    cases hrecalled : b.recalled s u with
    | error f =>
      rw [hrecalled] at h
      exact hone h
    | ok n =>
      rw [hrecalled] at h
      obtain hknown | ⟨hunknown, world, hworld, hfound⟩ := ih h
      · exact hone hknown
      · rw [metadataOf?_metadataOf] at hunknown
        refine .inr ⟨?_, world, (b.reaches_metadataOf s u).trans hworld, hfound⟩
        split at hunknown
        · rw [hrecalled] at hunknown
          cases hunknown
        · exact hunknown

/-- A query forgets nothing. -/
theorem known_metadataOfAll {m : Metadata} (h : s.metadataOf? t = some m) (targets : List String)
    (found : Metadata) : (b.metadataOfAll targets found s).value.2.metadataOf? t = some m := by
  induction targets generalizing found s with
  | nil => exact h
  | cons u rest ih =>
    have hkept : (b.metadataOf u s).value.2.metadataOf? t = some m := by
      rw [metadataOf?_metadataOf]
      split
      · rename_i htu
        rw [← htu, recalled, BazelMemory.metadataOr, h]
        rfl
      · exact h
    rw [metadataOfAll_cons]
    cases b.recalled s u with
    | error f => exact hkept
    | ok n => exact ih hkept _

end

/-! ### Builds -/

theorem aspectArguments_injective : Function.Injective b.aspectArguments := by
  intro t u h
  simpa [aspectArguments] using h

theorem started_sublist (errand : Errand) (world : ω) :
    (b.started errand world).Sublist [(b.command errand).arguments] := by
  unfold started
  cases b.outcome errand world with
  | error e => exact List.nil_sublist _
  | ok o => exact List.Sublist.refl _

/-- A query changes the metadata, the history and the world only. -/
theorem metadataOf_frame :
    (b.metadataOf t s).value.2.roots = s.roots ∧
      (b.metadataOf t s).value.2.available = s.available ∧
      (b.metadataOf t s).value.2.history =
        s.history ++ if (s.metadataOf? t).isSome then [] else b.started (.build t) s.world := by
  cases h : s.metadataOf? t with
  | some m =>
    rw [metadataOf_of_some b s t h]
    simp
  | none =>
    rw [metadataOf_of_none b s t h]
    cases b.foundIn s.world t <;> exact ⟨rfl, rfl, rfl⟩

theorem metadataOfAll_frame (targets : List String) (found : Metadata) :
    (b.metadataOfAll targets found s).value.2.roots = s.roots ∧
      (b.metadataOfAll targets found s).value.2.available = s.available ∧
      s.history <+: (b.metadataOfAll targets found s).value.2.history := by
  induction targets generalizing found s with
  | nil => exact ⟨rfl, rfl, List.prefix_rfl⟩
  | cons t rest ih =>
    obtain ⟨hroots, havailable, hhistory⟩ := b.metadataOf_frame s t
    have hgrows : s.history <+: (b.metadataOf t s).value.2.history :=
      ⟨_, hhistory.symm⟩
    rw [metadataOfAll_cons]
    cases b.recalled s t with
    | error f => exact ⟨hroots, havailable, hgrows⟩
    | ok m =>
      obtain ⟨hroots', havailable', hhistory'⟩ := ih (b.metadataOf t s).value.2 (found.union m)
      exact ⟨hroots'.trans hroots, havailable'.trans havailable, hgrows.trans hhistory'⟩

/-- How often the build of a target was started, and once more as long as its metadata is not
known. -/
def dues (b : Bazel ω) (t : String) (s : BazelMemory ω) : Nat :=
  s.history.count (b.aspectArguments t) + if (s.metadataOf? t).isSome then 0 else 1

variable {t}

theorem dues_metadataOf {m : Metadata} (ht : b.foundIn s.world t = .ok m) :
    b.dues t (b.metadataOf u s).value.2 ≤ b.dues t s := by
  obtain ⟨-, -, hhistory⟩ := b.metadataOf_frame s u
  unfold dues
  rw [hhistory, metadataOf?_metadataOf, List.count_append]
  by_cases hu : t = u
  · subst hu
    have hstarted : (b.started (.build t) s.world).count (b.aspectArguments t) ≤ 1 :=
      Nat.le_trans ((b.started_sublist (.build t) s.world).count_le _)
        (Nat.le_of_eq List.count_singleton_self)
    unfold recalled BazelMemory.metadataOr
    cases s.metadataOf? t with
    | some n => simp [Except.toOption]
    | none =>
      simp only [ht, if_true, Except.toOption, Option.isSome_some, Option.isSome_none]
      simpa using hstarted
  · -- The build of another target has other arguments.
    have hstarted : (b.started (.build u) s.world).count (b.aspectArguments t) = 0 := by
      refine List.count_eq_zero.mpr fun hmem => hu ?_
      exact b.aspectArguments_injective
        (List.mem_singleton.mp ((b.started_sublist _ s.world).subset hmem))
    rw [if_neg hu]
    cases s.metadataOf? u <;> simp [hstarted]

theorem dues_metadataOfAll {m : Metadata}
    (ht : ∀ world, b.Reaches s.world world → b.foundIn world t = .ok m) (targets : List String)
    (found : Metadata) : b.dues t (b.metadataOfAll targets found s).value.2 ≤ b.dues t s := by
  induction targets generalizing found s with
  | nil => exact Nat.le_refl _
  | cons u rest ih =>
    have hfirst := b.dues_metadataOf s u (ht s.world .here)
    rw [metadataOfAll_cons]
    cases b.recalled s u with
    | error f => exact hfirst
    | ok n =>
      have hlater := ih (b.metadataOf u s).value.2
        (fun world hworld => ht world ((b.reaches_metadataOf s u).trans hworld)) (found.union n)
      exact Nat.le_trans hlater hfirst

end Bazel

end Buildpath
