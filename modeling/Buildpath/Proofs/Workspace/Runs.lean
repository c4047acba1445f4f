import Buildpath.Workspace.Index
import Mathlib.Data.List.Basic
import Mathlib.Data.List.Induction
import Mathlib.Data.List.Nodup

/-!
# Runs of a workspace

What is done to a workspace is a list of operations. Each leaves a change behind: a module was added,
a name was removed and was there or not, a reference was recorded and was new or not. The changes of a
run decide what the workspace holds after it (`Follows`): what a change brought about lasts until a
removal undoes it (`lasting`), a module stands where its name was first added since then and is what
was added last, and the references of a module stand in the order of the calls that recorded them.
-/

namespace Buildpath.Workspace

/-! ### Operations and changes -/

/-- What can be done to a workspace. -/
inductive Operation where
  | add (m : Module)
  | remove (name : String)
  | refer (source target : String)
deriving DecidableEq, Repr

/-- What an operation did, with the answer it gave. -/
inductive Change where
  | added (m : Module)
  | removed (name : String) (found : Bool)
  | referred (source target : String) (isNew : Bool)
deriving DecidableEq, Repr

def perform (w : Workspace) : Operation → Change × Workspace
  | .add m => (.added m, w.addModule m)
  | .remove name => (.removed name (w.hasModule name), w.removeModule name)
  | .refer source target =>
    let answer := (w.ensureReference source target).value
    (.referred source target answer.1, answer.2)

/-- The changes of a run, the first one first, and the workspace at its end. -/
def run (operations : List Operation) : List Change × Workspace :=
  operations.foldl (fun r o => (r.1 ++ [(r.2.perform o).1], (r.2.perform o).2)) ([], empty)

theorem run_concat (operations : List Operation) (o : Operation) :
    run (operations ++ [o]) =
      ((run operations).1 ++ [((run operations).2.perform o).1],
        ((run operations).2.perform o).2) := by
  simp [run]

/-- A workspace of given modules is the end of a run that adds them. -/
theorem ofModules_eq_run (modules : List Module) :
    ofModules modules = (run (modules.map .add)).2 := by
  induction modules using List.reverseRecOn with
  | nil => rfl
  | append_singleton front m ih =>
    rw [List.map_append, List.map_singleton, run_concat, ← ih, ofModules, List.foldl_append]
    rfl

namespace Change

/-- The module that was added. -/
def module? : Change → Option Module
  | .added m => some m
  | _ => none

/-- The reference that was recorded, if it was new. -/
def link? : Change → Option (String × String)
  | .referred source target true => some (source, target)
  | _ => none

/-- Whether a module of that name was there and was removed. -/
def removes (name : String) : Change → Bool
  | .removed n true => name == n
  | _ => false

end Change

section Lasting

variable {α : Type} (effect : Change → Option α) (undoes : α → Change → Bool)

/-- What the changes brought about, in order, without what a later change undid. -/
def lasting : List Change → List α
  | [] => []
  | c :: later =>
    match effect c with
    | none => lasting later
    | some a => if later.any (undoes a) then lasting later else a :: lasting later

/-- A change undoes some of what was there and adds what it brings about. -/
theorem lasting_concat (h : List Change) (c : Change) :
    lasting effect undoes (h ++ [c]) =
      (lasting effect undoes h).filter (fun a => !undoes a c) ++ (effect c).toList := by
  induction h with
  | nil => cases he : effect c <;> simp [lasting, he]
  | cons d later ih =>
    rw [List.cons_append, lasting, lasting, ih]
    cases effect d with
    | none => rfl
    | some a =>
      simp only [List.any_append, List.any_cons, List.any_nil, Bool.or_false, Bool.or_eq_true]
      by_cases hlater : later.any (undoes a) = true
      · simp [hlater]
      · by_cases hc : undoes a c = true <;> simp [hlater, hc]

end Lasting

/-- The modules that were added and not removed since, each as often as it was added. -/
def lastingModules (h : List Change) : List Module :=
  lasting Change.module? (fun m => Change.removes m.name) h

/-- The references that were recorded while neither end was removed since. -/
def lastingLinks (h : List Change) : List (String × String) :=
  lasting Change.link? (fun link c => c.removes link.1 || c.removes link.2) h

/-- The module of that name as it was added last, if it was not removed since. -/
def latest? (h : List Change) (name : String) : Option Module :=
  (lastingModules h).reverse.find? (·.name == name)

/-- The targets that were recorded for a source, in the order of the calls. -/
def recorded (h : List Change) (source : String) : List String :=
  ((lastingLinks h).filter (·.1 == source)).map (·.2)

/-- The changes account for everything that the workspace holds. -/
structure Follows (w : Workspace) (h : List Change) : Prop where
  distinct : (w.modules.map (·.name)).Nodup
  /-- A module stands where its name was first added since it was last removed. -/
  listed : w.modules.map (·.name) = ((lastingModules h).map (·.name)).eraseDups
  latest : ∀ name, w.module? name = latest? h name
  unrepeated : ∀ source, (w.references source).Nodup
  ordered : ∀ source, w.references source = recorded h source

/-! ### Adding -/

theorem hasModule_iff (w : Workspace) (name : String) :
    w.hasModule name = true ↔ name ∈ w.modules.map (·.name) := by
  simp [hasModule, module?]

theorem insertModule_of_not_mem {m : Module} {l : List Module} (h : m.name ∉ l.map (·.name)) :
    insertModule m l = l ++ [m] := by
  induction l with
  | nil => rfl
  | cons n rest ih =>
    rw [List.map_cons, List.mem_cons, not_or] at h
    rw [insertModule, if_neg (Ne.symm h.1), ih h.2, List.cons_append]

theorem names_insertModule {m : Module} {l : List Module} (h : m.name ∈ l.map (·.name)) :
    (insertModule m l).map (·.name) = l.map (·.name) := by
  induction l with
  | nil => exact absurd h List.not_mem_nil
  | cons n rest ih =>
    unfold insertModule
    split
    · rename_i hsame
      rw [List.map_cons, List.map_cons, hsame]
    · rename_i hother
      have hrest := (List.mem_cons.mp h).resolve_left (Ne.symm hother)
      rw [List.map_cons, List.map_cons, ih hrest]

/-- A module that is added again stands where it stood. -/
theorem insertModule_of_mem {m : Module} {l : List Module} (hdistinct : (l.map (·.name)).Nodup)
    (h : m.name ∈ l.map (·.name)) :
    insertModule m l = l.map fun n => if n.name = m.name then m else n := by
  induction l with
  | nil => exact absurd h List.not_mem_nil
  | cons n rest ih =>
    rw [List.map_cons, List.nodup_cons] at hdistinct
    unfold insertModule
    split
    · rename_i hsame
      have hothers : ∀ k ∈ rest, (if k.name = m.name then m else k) = k := fun k hk =>
        if_neg fun hk' => hdistinct.1 (List.mem_map.mpr ⟨k, hk, hk'.trans hsame.symm⟩)
      rw [List.map_cons, if_pos hsame, List.map_congr_left hothers, List.map_id']
    · rename_i hother
      have hrest := (List.mem_cons.mp h).resolve_left (Ne.symm hother)
      rw [List.map_cons, if_neg hother, ih hdistinct.2 hrest]

theorem module?_addModule (w : Workspace) (m : Module) (name : String) :
    (w.addModule m).module? name = if m.name = name then some m else w.module? name := by
  unfold addModule module?
  induction w.modules with
  | nil => by_cases hname : m.name = name <;> simp [insertModule, hname]
  | cons n rest ih =>
    unfold insertModule
    split
    · rename_i hsame
      by_cases hname : m.name = name
      · simp [hname]
      · simp [hname, hsame]
    · rename_i hother
      by_cases hn : n.name = name
      · simp [hn, hn ▸ Ne.symm hother]
      · simpa [List.find?_cons, hn] using ih

/-! ### Removing -/

/-- The links without a name: its own are gone, and it is gone from those of the others. -/
theorem lookup_without (l : List (String × List String)) (name source : String) :
    ((l.filter (·.1 != name)).map fun (k, targets) => (k, targets.filter (· != name))).lookup source =
      if source = name then none else (l.lookup source).map (·.filter (· != name)) := by
  induction l with
  | nil => simp
  | cons p rest ih =>
    obtain ⟨k, targets⟩ := p
    by_cases hk : k = name
    · rw [List.filter_cons_of_neg (by simp [hk]), ih]
      by_cases hs : source = name
      · simp [hs]
      · simp [hs, List.lookup_cons, hk, beq_false_of_ne hs]
    · rw [List.filter_cons_of_pos (by simp [hk]), List.map_cons, List.lookup_cons, ih]
      by_cases hs : source = k
      · simp [hs, hk]
      · simp [beq_false_of_ne hs, List.lookup_cons]

theorem find?_without (l : List Module) (removed name : String) :
    (l.filter (·.name != removed)).find? (·.name == name) =
      if name = removed then none else l.find? (·.name == name) := by
  rw [List.find?_filter]
  by_cases hn : name = removed
  · rw [if_pos hn, List.find?_eq_none]
    intro m _
    simp [hn]
  · rw [if_neg hn]
    congr 1
    funext m
    by_cases hm : m.name = name <;> simp [hm, hn]

theorem removeModule_of_missing {w : Workspace} {name : String} (h : w.hasModule name = false) :
    w.removeModule name = w := by
  rw [removeModule, h, if_neg Bool.false_ne_true]

theorem modules_removeModule {w : Workspace} {name : String} (h : w.hasModule name = true) :
    (w.removeModule name).modules = w.modules.filter (·.name != name) := by
  rw [removeModule, if_pos h]

theorem references_removeModule {w : Workspace} {name : String} (h : w.hasModule name = true)
    (source : String) :
    (w.removeModule name).references source =
      if source = name then [] else (w.references source).filter (· != name) := by
  rw [removeModule, if_pos h]
  unfold references
  rw [lookup_without]
  by_cases hs : source = name
  · simp [hs]
  · cases w.links.lookup source <;> simp [hs]

theorem perform_remove_eq_iff {w v : Workspace} {name : String} {found : Bool} :
    w.perform (.remove name) = (.removed name found, v) ↔
      w.hasModule name = found ∧ w.removeModule name = v := by
  simp [perform]

/-! ### First occurrences -/

theorem eraseDups_concat (l : List String) (s : String) :
    (l ++ [s]).eraseDups = if s ∈ l then l.eraseDups else l.eraseDups ++ [s] := by
  rw [List.eraseDups_append]
  by_cases h : s ∈ l <;> simp [List.removeAll, h, List.eraseDups_cons]

theorem eraseDups_filter (p : String → Bool) (l : List String) :
    (l.filter p).eraseDups = l.eraseDups.filter p := by
  induction l using List.reverseRecOn with
  | nil => rfl
  | append_singleton l s ih =>
    rw [List.filter_append, eraseDups_concat]
    cases hp : p s with
    | false => by_cases hs : s ∈ l <;> simp [hp, hs, ih]
    | true =>
      have hone : [s].filter p = [s] := List.filter_cons_of_pos hp
      rw [hone, eraseDups_concat, ih]
      by_cases hs : s ∈ l <;> simp [hp, hs, List.filter_append]

/-! ### The account after one more change -/

section Account

variable (h : List Change)

theorem lastingModules_added (m : Module) :
    lastingModules (h ++ [.added m]) = lastingModules h ++ [m] := by
  simp [lastingModules, lasting_concat, Change.removes, Change.module?]

theorem lastingModules_removed (name : String) :
    lastingModules (h ++ [.removed name true]) =
      (lastingModules h).filter (·.name != name) := by
  rw [lastingModules, lasting_concat]
  exact List.append_nil _

theorem lastingModules_idle {c : Change} (hadds : c.module? = none)
    (hkeeps : ∀ name, c.removes name = false) : lastingModules (h ++ [c]) = lastingModules h := by
  simp [lastingModules, lasting_concat, hadds, hkeeps]

theorem latest?_added (m : Module) (name : String) :
    latest? (h ++ [.added m]) name = if m.name = name then some m else latest? h name := by
  rw [latest?, lastingModules_added, List.reverse_append]
  by_cases hm : m.name = name <;> simp [latest?, hm]

theorem latest?_removed (removed name : String) :
    latest? (h ++ [.removed removed true]) name =
      if name = removed then none else latest? h name := by
  rw [latest?, lastingModules_removed, ← List.filter_reverse, find?_without]
  rfl

theorem recorded_removed (removed source : String) :
    recorded (h ++ [.removed removed true]) source =
      if source = removed then [] else (recorded h source).filter (· != removed) := by
  have hlinks : lastingLinks (h ++ [.removed removed true]) =
      (lastingLinks h).filter fun link => !(link.1 == removed || link.2 == removed) := by
    rw [lastingLinks, lasting_concat]
    exact List.append_nil _
  unfold recorded
  rw [hlinks, List.filter_filter]
  by_cases hs : source = removed
  · rw [if_pos hs, List.map_eq_nil_iff, List.filter_eq_nil_iff]
    intro link _
    by_cases hl : link.1 = removed <;> simp [hs, hl]
  · rw [if_neg hs, List.filter_map, List.filter_filter]
    congr 1
    refine List.filter_congr fun link _ => ?_
    by_cases hl : link.1 = source
    · simp [hl, hs, bne]
    · simp [beq_false_of_ne hl]

theorem recorded_referred (source target s : String) :
    recorded (h ++ [.referred source target true]) s =
      if s = source then recorded h s ++ [target] else recorded h s := by
  have hlinks : lastingLinks (h ++ [.referred source target true]) =
      lastingLinks h ++ [(source, target)] := by
    simp [lastingLinks, lasting_concat, Change.removes, Change.link?]
  unfold recorded
  rw [hlinks]
  by_cases hs : s = source
  · simp [hs]
  · simp [hs, Ne.symm hs]

theorem recorded_idle {c : Change} (hlinks : c.link? = none)
    (hkeeps : ∀ name, c.removes name = false) (source : String) :
    recorded (h ++ [c]) source = recorded h source := by
  simp [recorded, lastingLinks, lasting_concat, hlinks, hkeeps]

end Account

/-! ### Steps -/

namespace Follows

variable {w : Workspace} {h : List Change}

theorem mem_names_iff (hw : w.Follows h) {name : String} :
    name ∈ w.modules.map (·.name) ↔ name ∈ (lastingModules h).map (·.name) := by
  rw [hw.listed, List.mem_eraseDups]

theorem add (hw : w.Follows h) (m : Module) : (w.addModule m).Follows (h ++ [.added m]) := by
  have hidle : ∀ source, recorded (h ++ [.added m]) source = recorded h source :=
    recorded_idle h rfl fun _ => rfl
  have hnames : (lastingModules (h ++ [.added m])).map (·.name) =
      (lastingModules h).map (·.name) ++ [m.name] := by
    rw [lastingModules_added, List.map_append]
    rfl
  have hafter : (w.addModule m).modules.map (·.name) =
      if m.name ∈ w.modules.map (·.name) then w.modules.map (·.name)
      else w.modules.map (·.name) ++ [m.name] := by
    split
    · rename_i hm
      exact names_insertModule hm
    · rename_i hm
      rw [addModule, insertModule_of_not_mem hm, List.map_append]
      rfl
  exact
    { distinct := by
        rw [hafter]
        split
        · exact hw.distinct
        · rename_i hm
          rw [← List.concat_eq_append]
          exact hw.distinct.concat hm
      listed := by
        rw [hafter, hnames, eraseDups_concat, ← hw.listed]
        simp only [hw.mem_names_iff]
      latest := fun name => by rw [module?_addModule, latest?_added, hw.latest]
      unrepeated := hw.unrepeated
      ordered := fun source => (hw.ordered source).trans (hidle source).symm }

theorem remove (hw : w.Follows h) {name : String} (hfound : w.hasModule name = true) :
    (w.removeModule name).Follows (h ++ [.removed name true]) := by
  have hafter : (w.removeModule name).modules.map (·.name) =
      (w.modules.map (·.name)).filter (· != name) := by
    rw [modules_removeModule hfound, List.filter_map]
    rfl
  exact
    { distinct := by
        rw [hafter]
        exact hw.distinct.filter _
      listed := by
        rw [hafter, hw.listed, ← eraseDups_filter, lastingModules_removed, List.filter_map]
        rfl
      latest := fun n => by
        rw [latest?_removed, ← hw.latest, module?, modules_removeModule hfound, find?_without]
        rfl
      unrepeated := fun source => by
        rw [references_removeModule hfound]
        split
        · exact List.nodup_nil
        · exact (hw.unrepeated source).filter _
      ordered := fun source => by
        rw [references_removeModule hfound, recorded_removed, hw.ordered] }

theorem refer (hw : w.Follows h) {source target : String} (hnew : target ∉ w.references source) :
    (w.ensureReference source target).value.2.Follows (h ++ [.referred source target true]) := by
  have hidle : lastingModules (h ++ [.referred source target true]) = lastingModules h :=
    lastingModules_idle h rfl fun _ => rfl
  have hmodules := modules_ensureReference w source target
  exact
    { distinct := by rw [hmodules]; exact hw.distinct
      listed := by rw [hmodules, hidle]; exact hw.listed
      latest := fun name => by
        rw [module?, hmodules, latest?, hidle]
        exact hw.latest name
      unrepeated := fun s => by
        rw [references_ensureReference]
        split
        · rw [← List.concat_eq_append]
          exact (hw.unrepeated source).concat hnew
        · exact hw.unrepeated s
      ordered := fun s => by
        rw [references_ensureReference, recorded_referred, ← hw.ordered]
        by_cases hs : s = source <;> simp [hs, hnew] }

/-- A change that neither adds nor removes leaves the account as it was. -/
theorem idle (hw : w.Follows h) {c : Change} (hadds : c.module? = none) (hlinks : c.link? = none)
    (hkeeps : ∀ name, c.removes name = false) : w.Follows (h ++ [c]) where
  distinct := hw.distinct
  listed := by rw [lastingModules_idle h hadds hkeeps]; exact hw.listed
  latest name := by rw [latest?, lastingModules_idle h hadds hkeeps]; exact hw.latest name
  unrepeated := hw.unrepeated
  ordered source := (hw.ordered source).trans (recorded_idle h hlinks hkeeps source).symm

theorem perform (hw : w.Follows h) (o : Operation) :
    (w.perform o).2.Follows (h ++ [(w.perform o).1]) := by
  cases o with
  | add m => exact hw.add m
  | remove name =>
    cases hfound : w.hasModule name with
    | true =>
      have hstep := hw.remove hfound
      rwa [← hfound] at hstep
    | false =>
      have hstep := hw.idle (c := .removed name false) rfl rfl fun _ => rfl
      simpa only [Workspace.perform, hfound, removeModule_of_missing hfound] using hstep
  | refer source target =>
    by_cases hknown : target ∈ w.references source
    · have hstep := hw.idle (c := .referred source target false) rfl rfl fun _ => rfl
      simpa [Workspace.perform, ensureReference, hknown] using hstep
    · have hstep := hw.refer hknown
      have hanswer : (w.ensureReference source target).value.1 = true := by
        simp [ensureReference, hknown]
      rwa [← hanswer] at hstep

end Follows

theorem follows_run (operations : List Operation) :
    (run operations).2.Follows (run operations).1 := by
  induction operations using List.reverseRecOn with
  | nil =>
    exact
      { distinct := List.nodup_nil
        listed := rfl
        latest := fun _ => rfl
        unrepeated := fun _ => List.nodup_nil
        ordered := fun _ => rfl }
  | append_singleton operations o ih =>
    rw [run_concat]
    exact ih.perform o

/-- After every run the changes account for what the workspace holds: the names are distinct and
stand in the order in which each was first added since it was last removed, a module and its targets
are those that were added last, and the references of a source are without repetition, in the order
of the calls that recorded them. A module whose name is there takes the place of the one it replaces.
A call records a reference, and says so, exactly if it was not there. A removal that finds the module
takes its references along and takes it out of those of the others, whose order stays; one that finds
none changes nothing. -/
theorem workspace_follows_history (operations : List Operation) :
    let h := (run operations).1
    let w := (run operations).2
    w.Follows h ∧
    (∀ name, w.targetsOf name = ((latest? h name).map (·.targets)).getD []) ∧
    (∀ m, m.name ∈ w.modules.map (·.name) →
      (w.perform (.add m)).2.modules = w.modules.map fun n => if n.name = m.name then m else n) ∧
    (∀ source target, (w.perform (.refer source target)).1 =
      .referred source target (decide (target ∉ w.references source))) ∧
    (∀ name, (w.perform (.remove name)).1 =
      .removed name (decide (name ∈ w.modules.map (·.name)))) ∧
    (∀ name v, w.perform (.remove name) = (.removed name true, v) →
      v.modules = w.modules.filter (·.name != name) ∧ v.references name = [] ∧
        ∀ source, name ∉ v.references source ∧
          (source ≠ name → v.references source = (w.references source).filter (· != name))) ∧
    (∀ name v, w.perform (.remove name) = (.removed name false, v) → v = w) := by
  intro h w
  have hw : w.Follows h := follows_run operations
  refine ⟨hw, fun name => ?_, fun m hm => insertModule_of_mem hw.distinct hm,
    fun source target => ?_, fun name => ?_, fun name v hremove => ?_, fun name v hremove => ?_⟩
  · rw [targetsOf, hw.latest]
  · by_cases hknown : target ∈ w.references source <;> simp [perform, ensureReference, hknown]
  · have hanswer : w.hasModule name = decide (name ∈ w.modules.map (·.name)) := by
      rw [Bool.eq_iff_iff, hasModule_iff, decide_eq_true_eq]
    rw [← hanswer]
    rfl
  · obtain ⟨hfound, rfl⟩ := perform_remove_eq_iff.mp hremove
    refine ⟨modules_removeModule hfound, ?_, fun source => ⟨?_, fun hs => ?_⟩⟩
    · rw [references_removeModule hfound, if_pos rfl]
    · rw [references_removeModule hfound]
      split <;> simp
    · rw [references_removeModule hfound, if_neg hs]
  · obtain ⟨hmissing, rfl⟩ := perform_remove_eq_iff.mp hremove
    exact removeModule_of_missing hmissing

def coreModule : Module := ⟨"core", .ofString "/ws/core", [], ["//core"]⟩

def appModule : Module := ⟨"app", .ofString "/ws/app", [], ["//app:main"]⟩

/-- A module is added, removed and added again while another one refers to it. -/
def removedAndAdded : List Operation :=
  [.add coreModule, .add appModule, .refer "app" "core", .refer "app" "gone", .refer "app" "core",
    .remove "gone", .remove "core", .add coreModule, .refer "app" "core", .refer "core" "app"]

theorem workspace_follows_history_of_removed :
    let w := (run removedAndAdded).2
    let renewed : Module := { appModule with targets := ["//app:all"] }
    w.Follows (run removedAndAdded).1 ∧
      w.modules = [appModule, coreModule] ∧ w.references "app" = ["gone", "core"] ∧
      (w.perform (.add renewed)).2.modules = [renewed, coreModule] ∧
      (w.perform (.refer "app" "core")).1 = .referred "app" "core" false ∧
      (w.perform (.remove "core")).2.references "core" = [] ∧
      (w.perform (.remove "core")).2.references "app" = ["gone"] ∧
      (w.perform (.remove "gone")).2 = w := by
  intro w renewed
  have hmodules : w.modules = [appModule, coreModule] := by decide
  have hreferences : w.references "app" = ["gone", "core"] := by decide
  obtain ⟨hw, -, hadd, hrefer, -, hremove, hmissing⟩ := workspace_follows_history removedAndAdded
  obtain ⟨-, hown, hothers⟩ := hremove "core" (w.perform (.remove "core")).2 (by decide)
  refine ⟨hw, hmodules, hreferences, ?_, ?_, hown, ?_, hmissing "gone" _ (by decide)⟩
  · exact (hadd renewed (by decide)).trans (by decide)
  · exact (hrefer "app" "core").trans (by decide)
  · exact ((hothers "app").2 (by decide)).trans (by decide)

end Buildpath.Workspace
