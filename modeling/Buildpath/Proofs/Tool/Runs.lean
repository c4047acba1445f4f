import Buildpath.Proofs.Files.Growth
import Buildpath.Proofs.Tool.Queries
import Mathlib.Data.List.Induction

/-!
# Runs of the Bazel tool

One tool in use, call after call, while its surroundings may change: the files, and what comes of
running a program. As long as the builds of all targets stay as they are, what is remembered is what
a build would find (`Bazel.Remembers`), and no query can tell that anything is remembered.
-/

namespace Buildpath

/-- A call of the tool. -/
inductive BazelCall where
  | query (r : Request)
  | flush (targets : List String)
  | roots
  | check (targets : List String)
  | available
deriving DecidableEq, Repr

/-- What a tool meets outside: the files and what running a program comes to, in the world that a call
finds and in those that its own runs lead to. -/
structure Surroundings (ω : Type) where
  files : ω → FileSystem
  launch : LauncherIn ω
  world : ω

/-- A call and the surroundings in which it is made. -/
structure Visit (ω : Type) where
  around : Surroundings ω
  call : BazelCall

/-- Whether the visit makes the tool forget about the target. -/
def Visit.Flushes {ω : Type} (v : Visit ω) (t : String) : Prop :=
  ∃ targets, v.call = .flush targets ∧ t ∈ targets

namespace BazelMemory

variable {ω ω' : Type} (s : BazelMemory ω)

/-- What is remembered, in another world. -/
def within (world : ω') : BazelMemory ω' :=
  ⟨s.metadata, s.roots, s.available, s.history, world⟩

@[simp] theorem metadataOf?_within (world : ω') (t : String) :
    (s.within world).metadataOf? t = s.metadataOf? t := rfl

@[simp] theorem history_within (world : ω') : (s.within world).history = s.history := rfl

@[simp] theorem world_within (world : ω') : (s.within world).world = world := rfl

end BazelMemory

namespace Bazel

variable {ω : Type} (b : Bazel ω) (w : Bazel) (s : BazelMemory ω) (t u : String)

/-! ### One call -/

/-- What `info` tells about a key in a world. -/
def told (key : String) (world : ω) : Except Failure Path :=
  ((b.outcome (.info key) world).mapError SystemError.toFailure).bind (infoOf key)

theorem info_value (key : String) :
    (b.info key s).value =
      (b.told key s.world, s.note (b.started (.info key) s.world) (b.left (.info key) s.world)) := by
  simp only [info, run, told, Traced.bind_value, Traced.pure_value]
  rw [show b.start ["info", key] (some b.root) s = _ from b.start_value s (.info key)]

/-- The output roots that a tool finds in a world that remembers nothing. -/
def rootsTold (world : ω) : Except Failure OutputRoots := do
  let outputBase ← b.told "output_base" world
  let execRoot ← b.told "execution_root" (b.left (.info "output_base") world)
  return ⟨outputBase, execRoot⟩

/-- Whether the program answers with its version. -/
def responds (world : ω) : Bool :=
  match b.outcome .version world with
  | .ok o => o.succeeded
  | .error _ => false

/-- Programs other than the builds with the aspect. -/
def IsAside (history : List (List String)) : Prop :=
  ∀ t, b.aspectArguments t ∉ history

variable {b} in
theorem isAside_of_sublist {arguments : List String} {history : List (List String)}
    (hne : ∀ t, b.aspectArguments t ≠ arguments) (h : history.Sublist [arguments]) :
    b.IsAside history := fun t ht =>
  hne t (List.mem_singleton.mp (h.subset ht))

theorem outputRoots_value :
    ∃ l world, b.IsAside l ∧ (b.tool.outputRoots s).value =
      match s.roots with
      | some roots => (.ok roots, s)
      | none => (b.rootsTold s.world,
          { s.note l world with roots := (b.rootsTold s.world).toOption }) := by
  have haside : ∀ key world, b.IsAside (b.started (.info key) world) := fun key world =>
    isAside_of_sublist (fun t h => by simp [aspectArguments, command] at h) (b.started_sublist _ _)
  show ∃ l world, _ ∧ (b.outputRoots s).value = _
  unfold outputRoots rootsTold
  obtain ⟨metadata, roots, available, history, world⟩ := s
  cases roots with
  | some roots => exact ⟨[], world, fun t ht => absurd ht List.not_mem_nil, rfl⟩
  | none =>
    simp only [Traced.bind_value, info_value]
    cases b.told "output_base" world with
    | error f => exact ⟨_, _, haside "output_base" world, rfl⟩
    | ok outputBase =>
      simp only [Traced.bind_value, info_value]
      let between := b.left (.info "output_base") world
      refine ⟨b.started (.info "output_base") world ++ b.started (.info "execution_root") between,
        b.left (.info "execution_root") between, ?_, ?_⟩
      · intro t ht
        exact (List.mem_append.mp ht).elim (haside _ world t) (haside _ between t)
      · simp only [between, BazelMemory.note]
        cases b.told "execution_root" (b.left (.info "output_base") world) <;>
          simp [Bind.bind, Except.bind, Pure.pure, Except.pure, Except.toOption]

theorem isAvailable_value :
    (b.tool.isAvailable s).value =
      match s.available with
      | some known => (known, s)
      | none => (b.responds s.world,
          { s.note (b.started .version s.world) (b.left .version s.world) with
            available := some (b.responds s.world) }) := by
  show (b.isAvailable s).value = _
  unfold isAvailable responds
  cases s.available with
  | some known => rfl
  | none =>
    simp only
    rw [show b.start ["--version"] none s = _ from b.start_value s .version]
    cases b.outcome .version s.world <;> rfl

/-- The memory after a call. -/
def perform (s : BazelMemory ω) : BazelCall → BazelMemory ω
  | .query r => (b.tool.query r s).value.2
  | .flush targets => (b.tool.flush targets s).value
  | .roots => (b.tool.outputRoots s).value.2
  | .check targets => (b.tool.check targets s).value.2
  | .available => (b.tool.isAvailable s).value.2

/-- A check leaves nothing but a note of the build, and a world. -/
theorem perform_check (targets : List String) :
    ∃ l world, b.IsAside l ∧ b.perform s (.check targets) = s.note l world := by
  have haside : ∀ t, b.aspectArguments t ≠ ["build", "--keep_going"] ++ targets := by
    intro t h
    have hflag := (List.cons.inj (List.cons.inj h).2).1
    -- The third letters of the flags differ.
    have hletter := congrArg (fun flag : String => flag.toList[2]?) hflag
    simp at hletter
  show ∃ l world, _ ∧ (b.start _ _ s).2 = _
  unfold start
  cases b.launch ⟨b.program, ["build", "--keep_going"] ++ targets, some b.root⟩ s.world with
  | mk result world =>
    cases result with
    | error e =>
      exact ⟨[], world, fun t ht => absurd ht List.not_mem_nil, by simp [BazelMemory.note]⟩
    | ok o => exact ⟨_, world, isAside_of_sublist haside (List.Sublist.refl _), rfl⟩

/-- A call is a query, a flush, or one that touches no metadata and builds nothing with the
aspect. -/
theorem perform_cases (call : BazelCall) :
    (∃ r, call = .query r ∧ b.perform s call = (b.metadataOfAll r.targets .empty s).value.2) ∨
    (∃ targets, call = .flush targets ∧ b.perform s call = s.forget targets) ∨
    (b.perform s call).metadata = s.metadata ∧
      ∃ l, b.IsAside l ∧ (b.perform s call).history = s.history ++ l := by
  have hnothing : b.IsAside [] := fun t ht => absurd ht List.not_mem_nil
  cases call with
  | query r => exact Or.inl ⟨r, rfl, by rw [perform, query_value]⟩
  | flush targets => exact Or.inr (Or.inl ⟨targets, rfl, rfl⟩)
  | roots =>
    refine Or.inr (Or.inr ?_)
    obtain ⟨l, world, hl, hvalue⟩ := b.outputRoots_value s
    rw [perform, hvalue]
    cases s.roots with
    | some roots => exact ⟨rfl, [], hnothing, (List.append_nil _).symm⟩
    | none => exact ⟨rfl, l, hl, rfl⟩
  | check targets =>
    refine Or.inr (Or.inr ?_)
    obtain ⟨l, world, hl, hvalue⟩ := b.perform_check s targets
    exact hvalue ▸ ⟨rfl, l, hl, rfl⟩
  | available =>
    refine Or.inr (Or.inr ?_)
    rw [perform, isAvailable_value]
    cases s.available with
    | some known => exact ⟨rfl, [], hnothing, (List.append_nil _).symm⟩
    | none =>
      exact ⟨rfl, _, isAside_of_sublist (fun t h => by simp [aspectArguments, command] at h)
        (b.started_sublist .version s.world), rfl⟩

section

variable {b s t}

theorem Finds.metadataOf?_query {ask : String → Except Failure Metadata} (h : b.Finds ask s.world)
    (r : Request) :
    (b.perform s (.query r)).metadataOf? u =
      if u ∈ upToFailure (s.metadataOr · ask) r.targets then (s.metadataOr u ask).toOption
      else s.metadataOf? u := by
  rw [perform, query_value, h.metadataOf?_metadataOfAll]

/-- What is known after a call was known before or has been found by a build. -/
theorem known_of_perform {call : BazelCall} {m : Metadata}
    (h : (b.perform s call).metadataOf? t = some m) :
    s.metadataOf? t = some m ∨
      s.metadataOf? t = none ∧ ∃ world, b.Reaches s.world world ∧ b.foundIn world t = .ok m := by
  obtain ⟨r, -, hs⟩ | ⟨targets, -, hs⟩ | ⟨hmetadata, -⟩ := b.perform_cases s call
  · rw [hs] at h
    exact known_of_metadataOfAll h
  · rw [hs, BazelMemory.metadataOf?_forget] at h
    split at h
    · cases h
    · exact Or.inl h
  · exact Or.inl ((congrArg (List.lookup t) hmetadata).symm.trans h)

/-- Only a flush makes a tool forget. -/
theorem known_perform {call : BazelCall} {m : Metadata} (h : s.metadataOf? t = some m)
    (hflush : ∀ targets, call = .flush targets → t ∉ targets) :
    (b.perform s call).metadataOf? t = some m := by
  obtain ⟨r, -, hs⟩ | ⟨targets, hcall, hs⟩ | ⟨hmetadata, -⟩ := b.perform_cases s call
  · rw [hs]
    exact known_metadataOfAll h r.targets .empty
  · rw [hs, BazelMemory.metadataOf?_forget, if_neg (hflush targets hcall), h]
  · exact (congrArg (List.lookup t) hmetadata).trans h

theorem history_perform (call : BazelCall) : s.history <+: (b.perform s call).history := by
  obtain ⟨r, -, h⟩ | ⟨targets, -, h⟩ | ⟨-, l, -, hl⟩ := b.perform_cases s call
  · rw [h]
    exact (b.metadataOfAll_frame s r.targets .empty).2.2
  · rw [h]
    exact List.prefix_rfl
  · exact ⟨l, hl.symm⟩

/-- Without a flush of its target, a build that succeeds once is not repeated. -/
theorem dues_perform {m : Metadata}
    (ht : ∀ world, b.Reaches s.world world → b.foundIn world t = .ok m) {call : BazelCall}
    (hflush : ∀ targets, call = .flush targets → t ∉ targets) :
    b.dues t (b.perform s call) ≤ b.dues t s := by
  obtain ⟨r, -, h⟩ | ⟨targets, hcall, h⟩ | ⟨hmetadata, l, hl, hhistory⟩ := b.perform_cases s call
  · rw [h]
    exact b.dues_metadataOfAll s ht r.targets .empty
  · have hkept : b.dues t (b.perform s call) = b.dues t s := by
      unfold dues
      rw [h, BazelMemory.metadataOf?_forget, if_neg (hflush targets hcall)]
      rfl
    exact Nat.le_of_eq hkept
  · have hkept : b.dues t (b.perform s call) = b.dues t s := by
      unfold dues BazelMemory.metadataOf?
      rw [hmetadata, hhistory, List.count_append, List.count_eq_zero.mpr (hl t), Nat.add_zero]
    exact Nat.le_of_eq hkept

end

/-! ### Other surroundings -/

/-- The same tool in other surroundings. -/
def amid (x : Surroundings ω) : Bazel ω :=
  { program := w.program, root := w.root, aspect := w.aspect, files := x.files, launch := x.launch }

/-- What building the target with the aspect finds, where running Bazel changes nothing. -/
def found : String → Except Failure Metadata :=
  w.foundIn ()

/-- An errand in this world comes out as it does for `w`; after a build the files that it names hold
the same. -/
structure ActsAs (world : ω) (errand : Errand) : Prop where
  outcome : b.outcome errand world = w.outcome errand ()
  files : ∀ t, errand = .build t → ∀ o, w.outcome errand () = .ok o → ∀ file ∈ w.announced o,
    (b.files (b.left errand world)).readText file = (w.files ()).readText file

section

variable {b w t}

theorem readAspectFiles_congr {world : ω} {l : List Path}
    (h : ∀ file ∈ l, (b.files world).readText file = (w.files ()).readText file) (m : Metadata) :
    (b.readAspectFiles world l m).value = (w.readAspectFiles () l m).value := by
  induction l generalizing m with
  | nil => rfl
  | cons file rest ih =>
    obtain ⟨hfile, hrest⟩ := List.forall_mem_cons.mp h
    have hread : b.readAspectFile world file = w.readAspectFile () file := by
      unfold readAspectFile
      rw [hfile]
    unfold readAspectFiles
    rw [hread]
    cases w.readAspectFile () file with
    | ok d => exact ih hrest _
    | error e => exact ih hrest _

theorem ActsAs.found {world : ω} (h : b.ActsAs w world (.build t)) (hroot : b.root = w.root) :
    b.foundIn world t = w.found t := by
  unfold Bazel.found foundIn
  rw [h.outcome]
  cases ho : w.outcome (.build t) () with
  | error e => rfl
  | ok o =>
    have hannounced : b.announced o = w.announced o := by
      unfold announced
      rw [hroot]
    simp only [hannounced, readAspectFiles_congr (h.files t rfl o ho)]

end

/-! ### Runs -/

/-- The memory after a visit. The next visit may find any world, the one that this visit leaves among
them. -/
def visit (s : BazelMemory) (v : Visit ω) : BazelMemory :=
  ((w.amid v.around).perform (s.within v.around.world) v.call).within ()

/-- The memory of a tool that was new at the first visit. -/
def memoryAfter (visits : List (Visit ω)) : BazelMemory :=
  visits.foldl w.visit .empty

theorem metadataOf?_visit (s : BazelMemory) (v : Visit ω) :
    (w.visit s v).metadataOf? t =
      ((w.amid v.around).perform (s.within v.around.world) v.call).metadataOf? t := rfl

theorem memoryAfter_append (visits more : List (Visit ω)) :
    w.memoryAfter (visits ++ more) = more.foldl w.visit (w.memoryAfter visits) :=
  List.foldl_append

/-- No build with the aspect comes out differently, in no world that running Bazel leads to. -/
def Steady (x : Surroundings ω) : Prop :=
  ∀ t world, (w.amid x).Reaches x.world world → (w.amid x).ActsAs w world (.build t)

/-- What is remembered is what a build would find. -/
def Remembers (s : BazelMemory ω) : Prop :=
  ∀ t m, s.metadataOf? t = some m → w.found t = .ok m

section

variable {w t} {visits : List (Visit ω)}

theorem Steady.finds {x : Surroundings ω} (h : w.Steady x) :
    (w.amid x).Finds w.found x.world := fun world hworld =>
  funext fun t => (h t world hworld).found rfl

variable {s}

theorem Remembers.metadataOr_eq (h : w.Remembers s) : (s.metadataOr · w.found) = w.found := by
  funext t
  unfold BazelMemory.metadataOr
  cases hs : s.metadataOf? t with
  | some m => exact (h t m hs).symm
  | none => rfl

theorem Remembers.visit {s : BazelMemory} (h : w.Remembers s) {v : Visit ω}
    (hv : w.Steady v.around) : w.Remembers (w.visit s v) := by
  intro t m hm
  rw [metadataOf?_visit] at hm
  obtain hold | ⟨-, world, hworld, hfound⟩ := known_of_perform hm
  · exact h t m hold
  · exact (congrFun (hv.finds world hworld) t).symm.trans hfound

theorem remembers_memoryAfter (h : ∀ v ∈ visits, w.Steady v.around) :
    w.Remembers (w.memoryAfter visits) := by
  induction visits using List.reverseRecOn with
  | nil => exact nofun
  | append_singleton visits v ih =>
    obtain ⟨hvisits, hv⟩ := List.forall_mem_append.mp h
    rw [memoryAfter_append]
    exact (ih hvisits).visit (hv v List.mem_cons_self)

/-- Until its target is flushed, a build that succeeds is not started once more. -/
theorem dues_visits {m : Metadata} (ht : w.found t = .ok m)
    (h : ∀ v ∈ visits, w.Steady v.around) (hkept : ∀ v ∈ visits, ¬v.Flushes t) (s : BazelMemory) :
    s.history <+: (visits.foldl w.visit s).history ∧
      w.dues t (visits.foldl w.visit s) ≤ w.dues t s := by
  induction visits generalizing s with
  | nil => exact ⟨List.prefix_rfl, Nat.le_refl _⟩
  | cons v rest ih =>
    obtain ⟨hv, hrest⟩ := List.forall_mem_cons.mp h
    obtain ⟨hkeptv, hkeptrest⟩ := List.forall_mem_cons.mp hkept
    -- A build that is started is paid for by the metadata it leaves known.
    have hstep : w.dues t (w.visit s v) ≤ w.dues t s :=
      dues_perform (b := w.amid v.around) (s := s.within v.around.world)
        (fun world hworld => (congrFun (hv.finds world hworld) t).trans ht)
        fun targets hcall hmem => hkeptv ⟨targets, hcall, hmem⟩
    obtain ⟨hgrows, hdues⟩ := ih hrest hkeptrest (w.visit s v)
    have hfirst : s.history <+: (w.visit s v).history :=
      history_perform (s := s.within v.around.world) v.call
    exact ⟨hfirst.trans hgrows, Nat.le_trans hdues hstep⟩

end

/-- The answer of a tool that remembers nothing and builds a target whenever it is named. -/
def rebuilt (targets : List String) : Except Failure Metadata :=
  gather w.found targets .empty

/-- For every run in which the builds of the targets come out as they do for `w`: each query answers
as if nothing were remembered, and no target is built once more before it is flushed. -/
theorem queries_are_transparent {visits : List (Visit ω)} (h : ∀ v ∈ visits, w.Steady v.around) :
    (∀ before v after, visits = before ++ v :: after →
      let tool := (w.amid v.around).tool
      let s := w.memoryAfter before
      let s' := w.memoryAfter (before ++ [v])
      (∀ r, v.call = .query r →
        let answer := (tool.query r (s.within v.around.world)).value.1
        let served := upToFailure w.found r.targets
        answer = w.rebuilt r.targets ∧
        (∀ f, answer = .error f ↔
          ∃ t rest, r.targets = served ++ t :: rest ∧ w.found t = .error f) ∧
        (∀ all, answer = .ok all → ∀ d, d ∈ all.units ↔
          ∃ first t rest m, r.targets = first ++ t :: rest ∧ w.found t = .ok m ∧ d ∈ m.units ∧
            ∀ u ∈ rest, ∀ n, w.found u = .ok n → ∀ e ∈ n.units, d.label ≠ e.label) ∧
        (∀ t m, s.metadataOf? t = some m → s'.metadataOf? t = some m) ∧
        ∀ t, s'.metadataOf? t =
          if t ∈ served then (w.found t).toOption else s.metadataOf? t) ∧
      ∀ targets, v.call = .flush targets →
        ∀ t, s'.metadataOf? t = if t ∈ targets then none else s.metadataOf? t) ∧
    ∀ before stretch after t m, visits = before ++ stretch ++ after →
      (∀ v ∈ stretch, ¬v.Flushes t) → w.found t = .ok m →
      ∃ started, (w.memoryAfter (before ++ stretch)).history =
          (w.memoryAfter before).history ++ started ∧
        started.count (w.aspectArguments t) ≤
          if ((w.memoryAfter before).metadataOf? t).isSome then 0 else 1 := by
  refine ⟨fun before v after hsplit => ?_, fun before stretch after t m hsplit hkept ht => ?_⟩
  · intro tool s s'
    obtain ⟨hbefore, hlater⟩ := List.forall_mem_append.mp (hsplit ▸ h)
    have hv := (List.forall_mem_cons.mp hlater).1
    have hs : w.Remembers s := remembers_memoryAfter hbefore
    have hs' : s' = w.visit s v := w.memoryAfter_append before [v]
    let found := s.within v.around.world
    have hfinds : (w.amid v.around).Finds w.found found.world := hv.finds
    constructor
    · intro r hcall answer served
      have hrecall : (found.metadataOr · w.found) = w.found := Remembers.metadataOr_eq (s := found) hs
      have hanswer : answer = w.rebuilt r.targets := by
        show ((w.amid v.around).tool.query r found).value.1 = _
        rw [query_value, hfinds.answer_metadataOfAll, hrecall]
        rfl
      have hknown : ∀ t, s'.metadataOf? t =
          if t ∈ served then (w.found t).toOption else s.metadataOf? t := by
        intro t
        rw [hs', visit, hcall, BazelMemory.metadataOf?_within, hfinds.metadataOf?_query, hrecall,
          congrFun hrecall t]
        rfl
      refine ⟨hanswer, fun f => hanswer ▸ gather_eq_error_iff, fun all hall d => ?_, ?_, hknown⟩
      · rw [mem_gather_iff (hanswer.symm.trans hall) d]
        exact or_iff_left fun ⟨hd, _⟩ => List.not_mem_nil hd
      · intro t m hm
        rw [hs', metadataOf?_visit]
        exact known_perform hm fun targets hflush => nomatch hcall.symm.trans hflush
    · intro targets hcall t
      rw [hs', metadataOf?_visit, hcall]
      exact found.metadataOf?_forget t targets
  · rw [List.append_assoc] at hsplit
    have hstretch : ∀ v ∈ stretch, w.Steady v.around := fun v hv =>
      h v (hsplit ▸ List.mem_append_right _ (List.mem_append_left _ hv))
    obtain ⟨⟨started, hstarted⟩, hdues⟩ := dues_visits ht hstretch hkept (w.memoryAfter before)
    rw [memoryAfter_append]
    refine ⟨started, hstarted.symm, ?_⟩
    unfold dues at hdues
    rw [← hstarted, List.count_append] at hdues
    omega

/-! ### A Bazel that writes while it builds -/

/-- An aspect file, as a Bazel writes it. -/
structure Sheet where
  name : String
  text : String

namespace Sheet

def path (f : Sheet) : Path :=
  .ofString ("/ws/" ++ f.name)

/-- What a build prints that names the file. -/
def bytes (f : Sheet) : List Utf8.Byte :=
  f.name.toList.map fun c => UInt8.ofNat c.toNat

def plain : Sheet := ⟨"a.cpresolve.json", "\x7b\"label\": \"//x\"\x7d"⟩

def withSources : Sheet :=
  ⟨"b.cpresolve.json", "\x7b\"label\": \"//x\", \"sources\": [\"B\"]\x7d"⟩

end Sheet

/-- The two aspect files that there are; both are about one label. -/
def sheetOf (target : String) : Option Sheet :=
  if target = "//a" then some .plain
  else if target = "//b" then some .withSources
  else none

/-- Two targets that can be built, and others that cannot. -/
def twins : Bazel where
  program := .ofString "/bin/bazel"
  root := .ofString "/ws"
  aspect := "//:aspect"
  files := (((Tree.empty ⟨['/']⟩).addFile Sheet.plain.path Sheet.plain.text).addFile
    Sheet.withSources.path Sheet.withSources.text).fileSystem
  launch c _ :=
    match sheetOf (c.arguments.getLast?.getD "") with
    | some f => (.ok ⟨0, f.bytes, []⟩, ())
    | none => (.ok ⟨1, [], "no such target".toList.map fun c => UInt8.ofNat c.toNat⟩, ())

/-- The same answers of a Bazel that writes an aspect file when it is built; at first there is none. -/
def workshop : Surroundings Tree where
  files := Tree.fileSystem
  launch c tree :=
    let written := match sheetOf (c.arguments.getLast?.getD "") with
      | some f => tree.addFile f.path f.text
      | none => tree
    ((twins.launch c ()).1, written)
  world := .empty ⟨['/']⟩

theorem announced_sheetOf {t : String} {f : Sheet} (h : sheetOf t = some f) :
    twins.announced ⟨0, f.bytes, []⟩ = [f.path] ∧ f.path.isAbsolute = true ∧
      (twins.files ()).readText f.path = .ok f.text := by
  unfold sheetOf at h
  split at h
  · cases h
    decide +kernel
  · split at h
    · cases h
      decide +kernel
    · cases h

theorem steady_workshop : twins.Steady workshop := by
  intro t tree _
  refine ⟨rfl, fun u hu o ho file hfile => ?_⟩
  cases hu
  have hleft : (twins.amid workshop).left (.build t) tree =
      match sheetOf t with
      | some f => tree.addFile f.path f.text
      | none => tree := rfl
  have hanswer : twins.launch (twins.command (.build t)) () =
      match sheetOf t with
      | some f => (.ok ⟨0, f.bytes, []⟩, ())
      | none => (.ok ⟨1, [], "no such target".toList.map fun c => UInt8.ofNat c.toNat⟩, ()) := rfl
  rw [outcome, hanswer] at ho
  rw [hleft]
  cases hsheet : sheetOf t with
  | none =>
    rw [hsheet] at ho
    cases ho
    have hnothing : twins.announced
        ⟨1, [], "no such target".toList.map fun c => UInt8.ofNat c.toNat⟩ = [] := by
      decide +kernel
    rw [hnothing] at hfile
    exact absurd hfile List.not_mem_nil
  | some f =>
    rw [hsheet] at ho
    cases ho
    obtain ⟨hnamed, habsolute, hread⟩ := announced_sheetOf hsheet
    have hfiles : (twins.amid workshop).files = Tree.fileSystem := rfl
    have hreads : ∀ t : Tree, t.fileSystem.readText = t.readText := fun _ => rfl
    rw [hnamed, List.mem_singleton] at hfile
    rw [hfile, hread, hfiles, hreads]
    exact tree.readText_addFile habsolute f.text

theorem queries_are_transparent_of_twins :
    let here (call : BazelCall) : Visit Tree := ⟨workshop, call⟩
    let asks (targets : List String) : BazelCall := .query ⟨"app", targets, "test"⟩
    let first := [here (asks ["//a", "//bad", "//b"]), here (asks ["//b"])]
    let visits := first ++ here (asks ["//a", "//b"]) :: [here (.flush ["//a"])]
    (∀ v ∈ visits, twins.Steady v.around) ∧
    (((twins.amid workshop).tool.query ⟨"app", ["//a", "//b"], "test"⟩
      ((twins.memoryAfter first).within workshop.world)).value.1 = twins.rebuilt ["//a", "//b"]) ∧
    (twins.rebuilt ["//a", "//b"]).toOption.map (·.units) = some [⟨"//x", ["B"], [], []⟩] ∧
    (twins.memoryAfter visits).metadataOf? "//a" = none ∧
    (∃ m, twins.found "//b" = .ok m) ∧
    ((twins.memoryAfter visits).history.count (twins.aspectArguments "//b") ≤ 1) := by
  intro here asks first visits
  have hsteady : ∀ v ∈ visits, twins.Steady v.around := by
    intro v hv
    have haround : v.around = workshop := by
      simp only [visits, first, List.cons_append, List.nil_append, List.mem_cons, List.not_mem_nil,
        or_false] at hv
      rcases hv with rfl | rfl | rfl | rfl <;> rfl
    exact haround ▸ steady_workshop
  have hkept : ∀ v ∈ visits, ¬v.Flushes "//b" := by
    simp [visits, first, here, asks, Visit.Flushes]
  have hfound : (twins.found "//b").toOption.isSome := by decide +kernel
  obtain ⟨hvisit, hstretch⟩ := twins.queries_are_transparent hsteady
  obtain ⟨hquery, -⟩ := hvisit first _ _ rfl
  obtain ⟨-, hflush⟩ := hvisit (first ++ [here (asks ["//a", "//b"])]) _ [] rfl
  refine ⟨hsteady, (hquery _ rfl).1, by decide +kernel, hflush ["//a"] rfl "//a", ?_⟩
  cases hm : twins.found "//b" with
  | error f =>
    rw [hm] at hfound
    cases hfound
  | ok m =>
    obtain ⟨started, hstarted, hcount⟩ :=
      hstretch [] visits [] "//b" m (List.append_nil _).symm hkept hm
    rw [List.nil_append] at hstarted
    exact ⟨⟨m, rfl⟩, hstarted ▸ hcount⟩

end Bazel

end Buildpath
