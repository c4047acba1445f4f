import Buildpath.Proofs.Tool.Runs

/-!
# What failures leave behind

A tool whose Bazel works in some calls and misbehaves in others remembers the output roots only once
Bazel has told both, and no metadata of a target whose build failed. Two things last: the metadata
that a build found without the aspect files that could not be read, until it is flushed
(`Bazel.Spoiled`), and that Bazel was not available when that was asked for the first time.
-/

namespace Buildpath.Bazel

/-- The ways of Bazel to misbehave in a world: it cannot be started, it fails, it tells nothing, it
names an aspect file that cannot be read. -/
inductive Misbehaves {ω : Type} (b : Bazel ω) (world : ω) : Errand → Prop
  | unstarted {errand : Errand} {e : SystemError} (h : b.outcome errand world = .error e) :
    b.Misbehaves world errand
  | failed {errand : Errand} {o : Outcome} (h : b.outcome errand world = .ok o)
    (hfailed : o.succeeded = false) : b.Misbehaves world errand
  | silent {key : String} {o : Outcome} (h : b.outcome (.info key) world = .ok o)
    (hblank : Text.trim o.outputText = []) : b.Misbehaves world (.info key)
  | unreadable {t : String} {o : Outcome} {file : Path} {e : String}
    (h : b.outcome (.build t) world = .ok o) (hfile : file ∈ b.announced o)
    (hread : b.readAspectFile (b.left (.build t) world) file = .error e) :
    b.Misbehaves world (.build t)

variable {ω : Type} {w : Bazel} {x now : Surroundings ω} {visits : List (Visit ω)} {t : String}

variable (w) in
/-- Whatever Bazel is run for, in whatever world that leads to, it misbehaves or does what it does
for `w`. -/
def Wavers (x : Surroundings ω) : Prop :=
  ∀ errand world, (w.amid x).Reaches x.world world →
    (w.amid x).Misbehaves world errand ∨ (w.amid x).ActsAs w world errand

variable (w) in
/-- Whatever Bazel is run for, in whatever world that leads to, it does what it does for `w`. -/
def Works (x : Surroundings ω) : Prop :=
  ∀ errand world, (w.amid x).Reaches x.world world → (w.amid x).ActsAs w world errand

/-! ### What is told by a tool that wavers -/

theorem Misbehaves.told {b : Bazel ω} {world : ω} {key : String}
    (h : b.Misbehaves world (.info key)) (p : Path) : b.told key world ≠ .ok p := by
  unfold Bazel.told
  cases h with
  | unstarted h =>
    rw [h]
    exact nofun
  | @failed _ o h hfailed =>
    rw [h]
    change infoOf key o ≠ .ok p
    simp [infoOf, hfailed]
  | @silent _ o h hblank =>
    rw [h]
    change infoOf key o ≠ .ok p
    simp only [infoOf, hblank]
    split <;> exact nofun

theorem ActsAs.told {b : Bazel ω} {world : ω} {key : String} (h : b.ActsAs w world (.info key)) :
    b.told key world = w.told key () := by
  unfold Bazel.told
  rw [h.outcome]

theorem Wavers.told (h : w.Wavers x) {world : ω} (hworld : (w.amid x).Reaches x.world world)
    {key : String} {p : Path} (hp : (w.amid x).told key world = .ok p) : w.told key () = .ok p := by
  rcases h (.info key) world hworld with hmis | hacts
  · exact absurd hp (hmis.told p)
  · exact hacts.told.symm.trans hp

theorem Wavers.rootsTold (h : w.Wavers x) {roots : OutputRoots}
    (hroots : (w.amid x).rootsTold x.world = .ok roots) : w.rootsTold () = .ok roots := by
  unfold Bazel.rootsTold at hroots ⊢
  have hbetween := (w.amid x).reaches_left (.info "output_base") x.world
  cases hbase : (w.amid x).told "output_base" x.world with
  | error f =>
    rw [hbase] at hroots
    cases hroots
  | ok outputBase =>
    cases hexec : (w.amid x).told "execution_root"
        ((w.amid x).left (.info "output_base") x.world) with
    | error f =>
      simp [hbase, hexec, Bind.bind, Except.bind] at hroots
    | ok execRoot =>
      simp only [hbase, hexec] at hroots
      rw [h.told .here hbase]
      simp only [Bind.bind, Except.bind] at hroots ⊢
      rw [show w.told "execution_root" (w.left (.info "output_base") ()) = .ok execRoot from
        h.told hbetween hexec]
      exact hroots

theorem ActsAs.responds {b : Bazel ω} {world : ω} (h : b.ActsAs w world .version) :
    b.responds world = w.responds () := by
  unfold Bazel.responds
  rw [h.outcome]

theorem Wavers.responds (h : w.Wavers x) (hmis : ¬(w.amid x).Misbehaves x.world .version) :
    (w.amid x).responds x.world = w.responds () :=
  ((h .version x.world .here).resolve_left hmis).responds

namespace Works

variable (h : w.Works now)

include h

theorem finds : (w.amid now).Finds w.found now.world := fun world hworld =>
  funext fun t => (h (.build t) world hworld).found rfl

theorem rootsTold : (w.amid now).rootsTold now.world = w.rootsTold () := by
  have hbetween := (w.amid now).reaches_left (.info "output_base") now.world
  unfold Bazel.rootsTold
  rw [(h (.info "output_base") now.world .here).told, (h (.info "execution_root") _ hbetween).told]

theorem responds : (w.amid now).responds now.world = w.responds () :=
  (h .version now.world .here).responds

end Works

/-! ### What is remembered -/

/-- Only a call for the output roots changes what is known about them. -/
theorem roots_perform (b : Bazel ω) (s : BazelMemory ω) (call : BazelCall) :
    (b.perform s call).roots = s.roots ∨
      (b.perform s call).roots = (b.rootsTold s.world).toOption := by
  cases call with
  | query r =>
    rw [perform, query_value]
    exact Or.inl (b.metadataOfAll_frame s r.targets .empty).1
  | flush targets => exact Or.inl rfl
  | roots =>
    obtain ⟨l, world, -, hvalue⟩ := b.outputRoots_value s
    rw [perform, hvalue]
    cases hs : s.roots with
    | some roots => exact Or.inl hs
    | none => exact Or.inr rfl
  | check targets =>
    obtain ⟨l, world, -, hvalue⟩ := b.perform_check s targets
    rw [hvalue]
    exact Or.inl rfl
  | available =>
    rw [perform, isAvailable_value]
    cases s.available <;> exact Or.inl rfl

theorem available_perform (b : Bazel ω) (s : BazelMemory ω) (call : BazelCall) :
    (b.perform s call).available =
      if call = .available then some (s.available.getD (b.responds s.world)) else s.available := by
  cases call with
  | query r =>
    rw [perform, query_value]
    exact (b.metadataOfAll_frame s r.targets .empty).2.1
  | flush targets => rfl
  | roots =>
    obtain ⟨l, world, -, hvalue⟩ := b.outputRoots_value s
    rw [perform, hvalue]
    cases s.roots <;> rfl
  | check targets =>
    obtain ⟨l, world, -, hvalue⟩ := b.perform_check s targets
    rw [hvalue]
    rfl
  | available =>
    rw [perform, isAvailable_value]
    cases hs : s.available <;> simp [hs]

theorem roots_memoryAfter (h : ∀ v ∈ visits, w.Wavers v.around) {roots : OutputRoots}
    (hroots : (w.memoryAfter visits).roots = some roots) : w.rootsTold () = .ok roots := by
  induction visits using List.reverseRecOn with
  | nil => cases hroots
  | append_singleton visits v ih =>
    obtain ⟨hvisits, hv⟩ := List.forall_mem_append.mp h
    rw [memoryAfter_append] at hroots
    let found := (w.memoryAfter visits).within v.around.world
    rcases (w.amid v.around).roots_perform found v.call with hs | hs
    · exact ih hvisits (hs.symm.trans hroots)
    · have htold := hs.symm.trans hroots
      cases hanswer : (w.amid v.around).rootsTold v.around.world with
      | error f =>
        rw [show found.world = v.around.world from rfl, hanswer] at htold
        cases htold
      | ok told =>
        rw [show found.world = v.around.world from rfl, hanswer] at htold
        cases htold
        exact (hv v List.mem_cons_self).rootsTold hanswer

/-- The first visit that asks whether Bazel is available. -/
def firstAvailable? (visits : List (Visit ω)) : Option (Visit ω) :=
  visits.find? fun v => v.call = .available

/-- What is known about Bazel being available is what the first call for it found. -/
theorem available_memoryAfter (w : Bazel) (visits : List (Visit ω)) :
    (w.memoryAfter visits).available =
      (firstAvailable? visits).map fun v => (w.amid v.around).responds v.around.world := by
  induction visits using List.reverseRecOn with
  | nil => rfl
  | append_singleton visits v ih =>
    rw [memoryAfter_append]
    show ((w.amid v.around).perform ((w.memoryAfter visits).within v.around.world)
      v.call).available = _
    rw [available_perform]
    show (if v.call = .available then some ((w.memoryAfter visits).available.getD _)
      else (w.memoryAfter visits).available) = _
    rw [ih]
    unfold firstAvailable?
    rw [List.find?_append]
    by_cases hcall : v.call = .available <;>
      cases visits.find? fun v => v.call = .available <;> simp [hcall]

/-- What is known about the target comes from a build during which Bazel misbehaved, and it has not
been flushed. -/
def Spoiled (w : Bazel) (visits : List (Visit ω)) (t : String) : Prop :=
  ∃ before v after world m, visits = before ++ v :: after ∧
    (w.memoryAfter before).metadataOf? t = none ∧
    (w.memoryAfter (before ++ [v])).metadataOf? t = some m ∧
    (w.amid v.around).Reaches v.around.world world ∧
    (w.amid v.around).foundIn world t = .ok m ∧
    (w.amid v.around).Misbehaves world (.build t) ∧ ∀ x ∈ after, ¬x.Flushes t

theorem Spoiled.concat (h : w.Spoiled visits t) {v : Visit ω} (hv : ¬v.Flushes t) :
    w.Spoiled (visits ++ [v]) t := by
  obtain ⟨before, u, after, world, m, rfl, hunknown, hknown, hworld, hfound, hmis, hafter⟩ := h
  exact ⟨before, u, after ++ [v], world, m, by simp, hunknown, hknown, hworld, hfound, hmis,
    List.forall_mem_append.mpr ⟨hafter, List.forall_mem_singleton.mpr hv⟩⟩

theorem Spoiled.known (h : w.Spoiled visits t) :
    ∃ m, (w.memoryAfter visits).metadataOf? t = some m := by
  obtain ⟨before, u, after, world, m, rfl, -, hknown, -, -, -, hafter⟩ := h
  rw [List.append_cons, memoryAfter_append]
  refine ⟨m, ?_⟩
  induction after using List.reverseRecOn with
  | nil => exact hknown
  | append_singleton after v ih =>
    obtain ⟨hkept, hv⟩ := List.forall_mem_append.mp hafter
    rw [List.foldl_append, List.foldl_cons, List.foldl_nil, metadataOf?_visit]
    exact known_perform (ih hkept) fun targets hcall hmem =>
      hv v List.mem_cons_self ⟨targets, hcall, hmem⟩

theorem known_memoryAfter (h : ∀ v ∈ visits, w.Wavers v.around) {m : Metadata}
    (hm : (w.memoryAfter visits).metadataOf? t = some m) :
    w.found t = .ok m ∨ w.Spoiled visits t := by
  induction visits using List.reverseRecOn with
  | nil => cases hm
  | append_singleton visits v ih =>
    obtain ⟨hvisits, hv⟩ := List.forall_mem_append.mp h
    have hafter := hm
    rw [memoryAfter_append] at hm
    have hkept : ¬v.Flushes t := by
      rintro ⟨targets, hcall, hmem⟩
      have hgone : (w.visit (w.memoryAfter visits) v).metadataOf? t = none := by
        rw [metadataOf?_visit, hcall]
        exact (BazelMemory.metadataOf?_forget ..).trans (if_pos hmem)
      cases hgone.symm.trans hm
    -- What is known was known before the last visit, or a build in that visit has found it.
    rw [List.foldl_cons, List.foldl_nil, metadataOf?_visit] at hm
    obtain hold | ⟨hunknown, world, hworld, hfound⟩ := known_of_perform hm
    · exact (ih hvisits hold).imp_right fun hspoiled => hspoiled.concat hkept
    · rcases hv v List.mem_cons_self (.build t) world hworld with hmis | hacts
      · exact Or.inr
          ⟨visits, v, [], world, m, rfl, hunknown, hafter, hworld, hfound, hmis, nofun⟩
      · exact Or.inl ((hacts.found rfl).symm.trans hfound)

/-! ### Recovery -/

/-- After any run in which Bazel misbehaved now and then, a tool whose Bazel works now answers as a
new one does: about the output roots, about dependencies of targets that are not spoiled, and about
being available unless Bazel misbehaved when that was first asked. -/
theorem failures_are_forgotten (h : ∀ v ∈ visits, w.Wavers v.around) (hnow : w.Works now) :
    let tool := (w.amid now).tool
    let s := (w.memoryAfter visits).within now.world
    let new := BazelMemory.new now.world
    (tool.outputRoots s).value.1 = (tool.outputRoots new).value.1 ∧
    (∀ r, (∀ t ∈ r.targets, ¬w.Spoiled visits t) →
      (tool.query r s).value.1 = (tool.query r new).value.1) ∧
    ((∀ v, firstAvailable? visits = some v →
        ¬(w.amid v.around).Misbehaves v.around.world .version) →
      (tool.isAvailable s).value.1 = (tool.isAvailable new).value.1) := by
  intro tool s new
  refine ⟨?_, fun r hr => ?_, fun havailable => ?_⟩
  · obtain ⟨_, _, -, hthen⟩ := (w.amid now).outputRoots_value s
    obtain ⟨_, _, -, hnew⟩ := (w.amid now).outputRoots_value new
    rw [hthen, hnew]
    cases hs : s.roots with
    | none => rfl
    | some roots => exact ((hnow.rootsTold).trans (roots_memoryAfter h hs)).symm
  · have hsame : ∀ t ∈ r.targets, s.metadataOr t w.found = new.metadataOr t w.found := by
      intro t ht
      show s.metadataOr t w.found = w.found t
      unfold BazelMemory.metadataOr
      cases hs : s.metadataOf? t with
      | none => rfl
      | some m => exact ((known_memoryAfter h hs).resolve_right (hr t ht)).symm
    have hthen := Finds.answer_metadataOfAll (s := s) hnow.finds r.targets .empty
    have hnew := Finds.answer_metadataOfAll (s := new) hnow.finds r.targets .empty
    rw [query_value, query_value, hthen, hnew]
    exact gather_congr hsame .empty
  · have hknown : s.available = (w.memoryAfter visits).available := rfl
    rw [available_memoryAfter] at hknown
    rw [isAvailable_value, isAvailable_value, hknown]
    cases hfirst : firstAvailable? visits with
    | none => rfl
    | some v =>
      have hv : v ∈ visits := List.mem_of_find?_eq_some hfirst
      exact ((h v hv).responds (havailable v hfirst)).trans hnow.responds.symm

/-- A tool whose Bazel does everything it is asked to and always names one aspect file. -/
def mended : Bazel where
  program := .ofString "/bin/bazel"
  root := .ofString "/ws"
  aspect := "//:aspect"
  files := ((Tree.empty ⟨['/']⟩).addFile (.ofString "/ws/a.cpresolve.json")
    "\x7b\"label\": \"//x\"\x7d").fileSystem
  launch _ _ := (.ok ⟨0, "a.cpresolve.json".toList.map fun c => UInt8.ofNat c.toNat, []⟩, ())

/-- Everything is in order. -/
def atHome : Surroundings Unit := ⟨mended.files, mended.launch, ()⟩

/-- No program can be started. -/
def down : Surroundings Unit := ⟨mended.files, fun _ _ => (.error .noSuchFile, ()), ()⟩

/-- The aspect file is not there. -/
def unwritten : Surroundings Unit := ⟨(Tree.empty ⟨['/']⟩).fileSystem, mended.launch, ()⟩

theorem works_atHome : mended.Works atHome := fun _ _ _ => ⟨rfl, fun _ _ _ _ _ _ => rfl⟩

theorem wavers_down : mended.Wavers down := fun _ _ _ => Or.inl (.unstarted rfl)

theorem wavers_unwritten : mended.Wavers unwritten := by
  intro errand world _
  cases errand with
  | info key => exact Or.inr ⟨rfl, nofun⟩
  | version => exact Or.inr ⟨rfl, nofun⟩
  | build t =>
    have hfile : Path.ofString "/ws/a.cpresolve.json" ∈ (mended.amid unwritten).announced
        ⟨0, "a.cpresolve.json".toList.map fun c => UInt8.ofNat c.toNat, []⟩ := by
      decide
    exact Or.inl (.unreadable rfl hfile rfl)

theorem failures_are_forgotten_of_mended :
    let asks : BazelCall := .query ⟨"app", ["//a"], "test"⟩
    let visits : List (Visit Unit) := [⟨down, .roots⟩, ⟨unwritten, asks⟩, ⟨down, .flush ["//a"]⟩,
      ⟨down, asks⟩, ⟨unwritten, .available⟩]
    let s := mended.memoryAfter visits
    (∀ v ∈ visits, mended.Wavers v.around) ∧ mended.Works atHome ∧ ¬mended.Spoiled visits "//a" ∧
    (mended.tool.outputRoots s).value.1 = (mended.tool.outputRoots .empty).value.1 ∧
    (mended.tool.query ⟨"app", ["//a"], "test"⟩ s).value.1 =
      (mended.tool.query ⟨"app", ["//a"], "test"⟩ .empty).value.1 ∧
    (mended.tool.isAvailable s).value.1 = true := by
  intro asks visits s
  have hwavers : ∀ v ∈ visits, mended.Wavers v.around := by
    simp [visits, wavers_down, wavers_unwritten]
  have hclean : ¬mended.Spoiled visits "//a" := by
    intro hspoiled
    obtain ⟨m, hm⟩ := hspoiled.known
    have hgone : s.metadataOf? "//a" = none := rfl
    cases hgone.symm.trans hm
  have hversion : ∀ v, firstAvailable? visits = some v →
      ¬(mended.amid v.around).Misbehaves v.around.world .version := by
    intro v hv hmis
    cases hv
    cases hmis with
    | unstarted h => cases h
    | failed h hfailed =>
      cases h
      cases hfailed
  obtain ⟨hroots, hquery, havailable⟩ := failures_are_forgotten hwavers works_atHome
  refine ⟨hwavers, works_atHome, hclean, hroots, hquery ⟨"app", ["//a"], "test"⟩ ?_,
    havailable hversion⟩
  intro t ht
  rw [List.mem_singleton.mp ht]
  exact hclean

theorem failures_that_last :
    (mended.Wavers down ∧ (mended.tool.isAvailable .empty).value.1 = true ∧
      (mended.tool.isAvailable (mended.memoryAfter [⟨down, .available⟩])).value.1 = false) ∧
    let r : Request := ⟨"app", ["//a"], "test"⟩
    mended.Wavers unwritten ∧
      (mended.tool.query r .empty).value.1.toOption.map (·.units) = some [⟨"//x", [], [], []⟩] ∧
      (mended.tool.query r (mended.memoryAfter [⟨unwritten, .query r⟩])).value.1.toOption.map
        (·.units) = some [] :=
  ⟨⟨wavers_down, rfl, rfl⟩, wavers_unwritten, by decide +kernel, by decide +kernel⟩

end Buildpath.Bazel
