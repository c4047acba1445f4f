import Buildpath.Proofs.Files.Links

/-!
# What a tree answers at the end of the links

Links lead on in one way only, so whoever follows a chain to where no link stands comes past every
other point of the chain (`Leads.rest`). A chain that breaks off, runs in a circle or has more than
fifteen links therefore has no end (`not_endsAt_of_nowhere`), and a chain without an end breaks off or
has more than fifteen links (`nowhere_of_not_endsAt`). At the end, the answers are those about the node
that stands there (`answers_follow_links`).
-/

namespace Buildpath

/-- The content of a file. -/
def Node.content? : Node → Option String
  | .file content => some content
  | _ => none

namespace Tree

variable {t : Tree} {p q r : Path} {node : Node} {m n : ℕ}

/-! ### Going on along a chain -/

/-- No link stands at the path. -/
def Stops (t : Tree) (p : Path) : Prop :=
  ∀ target, t.node? p ≠ some (.link target)

theorem IsSettled.stops (h : t.IsSettled p) : t.Stops p := fun _ hlink =>
  not_settled_of_link hlink h

/-- Whoever comes to a stop has come past every point of the chain. -/
theorem Leads.rest (hq : t.Leads n p q) (hr : t.Leads m p r) (hstop : t.Stops r) :
    ∃ i, m = n + i ∧ t.Leads i q r := by
  induction hq generalizing m with
  | here p => exact ⟨m, (Nat.zero_add m).symm, hr⟩
  | @next n p target q hlink _ ih =>
    cases hr with
    | here => exact absurd hlink (hstop target)
    | @next m _ target' _ hlink' hrest =>
      rw [hlink] at hlink'
      cases hlink'
      obtain ⟨i, hm, hi⟩ := ih hrest
      exact ⟨i, by omega, hi⟩

/-- A circle leads to no stop: going round once more leaves less of the way to it. -/
theorem not_stops_of_circle (hround : t.Leads (n + 1) q q) (hr : t.Leads m q r) : ¬ t.Stops r := by
  intro hstop
  induction m using Nat.strongRecOn with
  | ind m ih =>
    obtain ⟨i, hm, hi⟩ := hround.rest hr hstop
    exact ih i (by omega) hi

/-- A chain stops within so many links or has at least so many. -/
theorem stops_or_leads (t : Tree) (n : ℕ) (p : Path) :
    (∃ m < n, ∃ q, t.Leads m p q ∧ t.Stops q) ∨ ∃ q, t.Leads n p q := by
  induction n generalizing p with
  | zero => exact Or.inr ⟨p, .here p⟩
  | succ n ih =>
    by_cases hstop : t.Stops p
    · exact Or.inl ⟨0, Nat.succ_pos n, p, .here p, hstop⟩
    · obtain ⟨target, hlink⟩ := not_forall_not.mp hstop
      rcases ih target with ⟨m, hm, q, hq, hstop⟩ | ⟨q, hq⟩
      · exact Or.inl ⟨m + 1, Nat.succ_lt_succ hm, q, .next hlink hq, hstop⟩
      · exact Or.inr ⟨q, .next hlink hq⟩

/-! ### Chains without an end -/

/-- Links lead from the path to where nothing is. -/
def BreaksOff (t : Tree) (p : Path) : Prop :=
  ∃ n q, t.Leads n (t.locate p) q ∧ t.node? q = none

/-- Links lead from the path to one that they lead back to. -/
def RunsInCircle (t : Tree) (p : Path) : Prop :=
  ∃ n q k, t.Leads n (t.locate p) q ∧ t.Leads (k + 1) q q

/-- Sixteen links or more follow each other from the path. -/
def IsTooLong (t : Tree) (p : Path) : Prop :=
  ∃ n ≥ 16, ∃ q, t.Leads n (t.locate p) q

theorem not_endsAt_of_breaksOff (h : t.BreaksOff p) : ¬ t.EndsAt p r := by
  rintro ⟨m, -, hr, hsettled⟩
  obtain ⟨n, q, hq, hnone⟩ := h
  obtain ⟨i, -, hi⟩ := hq.rest hr hsettled.stops
  cases hi with
  | here =>
    obtain ⟨node, hnode, -⟩ := hsettled
    rw [hnone] at hnode
    cases hnode
  | next hlink _ =>
    rw [hnone] at hlink
    cases hlink

theorem not_endsAt_of_circle (h : t.RunsInCircle p) : ¬ t.EndsAt p r := by
  rintro ⟨m, -, hr, hsettled⟩
  obtain ⟨n, q, k, hq, hround⟩ := h
  obtain ⟨i, -, hi⟩ := hq.rest hr hsettled.stops
  exact not_stops_of_circle hround hi hsettled.stops

theorem not_endsAt_of_tooLong (h : t.IsTooLong p) : ¬ t.EndsAt p r := by
  rintro ⟨m, hm, hr, hsettled⟩
  obtain ⟨n, hn, q, hq⟩ := h
  obtain ⟨i, hi, -⟩ := hq.rest hr hsettled.stops
  omega

theorem not_endsAt_of_nowhere (h : t.BreaksOff p ∨ t.RunsInCircle p ∨ t.IsTooLong p) :
    ¬ ∃ q, t.EndsAt p q := by
  rintro ⟨q, hq⟩
  rcases h with hbroken | hcircle | hlong
  · exact not_endsAt_of_breaksOff hbroken hq
  · exact not_endsAt_of_circle hcircle hq
  · exact not_endsAt_of_tooLong hlong hq

theorem nowhere_of_not_endsAt (h : ¬ ∃ q, t.EndsAt p q) : t.BreaksOff p ∨ t.IsTooLong p := by
  rcases t.stops_or_leads 16 (t.locate p) with ⟨m, hm, q, hq, hstop⟩ | ⟨q, hq⟩
  · rcases t.node?_cases q with hnone | ⟨target, hlink⟩ | hsettled
    · exact Or.inl ⟨m, q, hq, hnone⟩
    · exact absurd hlink (hstop target)
    · exact absurd ⟨q, m, by omega, hq, hsettled⟩ h
  · exact Or.inr ⟨16, Nat.le_refl 16, q, hq⟩

/-! ### Answers -/

theorem final?_of_endsAt (h : t.EndsAt p q) :
    ∃ node, t.node? q = some node ∧ node.kind ≠ .link ∧ t.final? p = some (q, node) := by
  obtain ⟨node, hfinal⟩ := exists_final?_iff.mpr h
  obtain ⟨n, -, -, hnode, hkind⟩ := follow_eq_some_iff.mp hfinal
  exact ⟨node, hnode, hkind, hfinal⟩

theorem final?_eq_none (h : ¬ ∃ q, t.EndsAt p q) : t.final? p = none := by
  cases hf : t.final? p with
  | none => rfl
  | some found => exact absurd ⟨found.1, exists_final?_iff.mp ⟨found.2, hf⟩⟩ h

theorem isDirectory_of_final (h : t.final? p = some (q, node)) :
    t.isDirectory p = true ↔ node = .directory := by
  unfold isDirectory
  rw [h]
  cases node <;> simp

theorem readText_of_final (h : t.final? p = some (q, node)) :
    t.readText p = node.content?.elim (.error (.notAFile p)) .ok := by
  unfold readText
  rw [h]
  cases node <;> rfl

/-- Without an end every answer is negative. -/
theorem answers_of_no_end (h : ¬ ∃ q, t.EndsAt p q) :
    t.resolve p = .error (.noPath p) ∧ t.isThere p = false ∧ t.isDirectory p = false ∧
      t.readText p = .error (.noFile p) := by
  have hfinal : t.final? p = none := final?_eq_none h
  unfold resolve isThere isDirectory readText
  rw [hfinal]
  exact ⟨rfl, rfl, rfl, rfl⟩

/-! ### Spelling -/

theorem node?_of_same (h : p.Same q) : t.node? p = t.node? q := by
  unfold node?
  rw [h]

theorem Leads.of_same (h : t.Leads n p r) (hsame : p.Same q) :
    ∃ s, t.Leads n q s ∧ r.Same s := by
  cases h with
  | here => exact ⟨q, .here q, hsame⟩
  | next hlink hrest => exact ⟨r, .next ((node?_of_same hsame).symm.trans hlink) hrest, Path.Same.refl r⟩

theorem IsSettled.of_same (h : t.IsSettled p) (hsame : p.Same q) : t.IsSettled q := by
  obtain ⟨node, hnode, hkind⟩ := h
  exact ⟨node, (node?_of_same hsame).symm.trans hnode, hkind⟩

/-- In every tree that has grown below an absolute root, a path resolves exactly to what no more than
fifteen links lead to, each standing where the last one leads, if an entry that is no link stands there.
Something is there exactly if the path resolves, and whether it is a directory and which text is read
depends on the entry at the end alone. Chains that break off, run in a circle or have sixteen links
have none of these answers, and every path without an answer is of such a kind. What a path resolves to
resolves to itself and is no link. A link resolves as the path it leads to does if no more than fourteen
links lead on from there. -/
theorem answers_follow_links {root : Path} (hroot : root.isAbsolute = true) (ht : t.Grown root) :
    (∀ p q, t.resolve p = .ok q ↔ ∃ n ≤ 15, t.Leads n (t.locate p) q ∧ t.IsSettled q) ∧
    (∀ p, t.isThere p = true ↔ ∃ q, t.resolve p = .ok q) ∧
    (∀ p q, t.resolve p = .ok q → ∃ node, t.node? q = some node ∧
      (t.isDirectory p = true ↔ node = .directory) ∧
      t.readText p = node.content?.elim (.error (.notAFile p)) .ok) ∧
    (∀ p, t.BreaksOff p ∨ t.RunsInCircle p ∨ t.IsTooLong p →
      t.resolve p = .error (.noPath p) ∧ t.isThere p = false ∧ t.isDirectory p = false ∧
        t.readText p = .error (.noFile p)) ∧
    (∀ p, t.isThere p = false → t.BreaksOff p ∨ t.IsTooLong p) ∧
    (∀ p q, t.resolve p = .ok q → t.resolve q = .ok q ∧ t.isLink q = false) ∧
    ∀ l p target q n, t.node? (t.locate l) = some (.link target) → (t.locate p).Same target →
      n ≤ 14 → t.Leads n (t.locate p) q → t.IsSettled q →
      t.resolve p = .ok q ∧ (∃ r, t.resolve l = .ok r ∧ r.Same q) ∧
        (t.locate p = target → t.resolve l = t.resolve p) := by
  have hanchored : t.Anchored := Anchored.of_grown hroot ht
  have hthere : ∀ p, t.isThere p = true ↔ ∃ q, t.resolve p = .ok q := by
    intro p
    simp only [isThere_iff, resolve_eq_ok_iff]
  refine ⟨fun p q => resolve_eq_ok_iff, hthere, ?_, ?_, ?_, ?_, ?_⟩
  · intro p q hq
    obtain ⟨node, hnode, -, hfinal⟩ := final?_of_endsAt (resolve_eq_ok_iff.mp hq)
    exact ⟨node, hnode, isDirectory_of_final hfinal, readText_of_final hfinal⟩
  · intro p hnowhere
    exact answers_of_no_end (not_endsAt_of_nowhere hnowhere)
  · intro p hgone
    refine nowhere_of_not_endsAt fun hend => ?_
    rw [isThere_iff.mpr hend] at hgone
    cases hgone
  · intro p q hq
    obtain ⟨hend, hlink⟩ := hanchored.endsAt_end (resolve_eq_ok_iff.mp hq)
    exact ⟨resolve_eq_ok_iff.mpr hend, hlink⟩
  · intro l p target q n hlink hsame hn hleads hsettled
    have hp : t.resolve p = .ok q := resolve_eq_ok_iff.mpr ⟨n, by omega, hleads, hsettled⟩
    obtain ⟨r, hr, hqr⟩ := hleads.of_same hsame
    have hl : t.resolve l = .ok r :=
      resolve_eq_ok_iff.mpr ⟨n + 1, by omega, .next hlink hr, hsettled.of_same hqr⟩
    refine ⟨hp, ⟨r, hl, hqr.symm⟩, ?_⟩
    intro htarget
    rw [← htarget] at hlink
    have hlq : t.resolve l = .ok q :=
      resolve_eq_ok_iff.mpr ⟨n + 1, by omega, .next hlink hleads, hsettled⟩
    rw [hlq, hp]

/-- Paths that lead each to the one before lead to the first. -/
theorem leads_of_links (path : ℕ → Path)
    (h : ∀ k < n, t.node? (path (k + 1)) = some (.link (path k))) : t.Leads n (path n) (path 0) := by
  induction n with
  | zero => exact .here (path 0)
  | succ n ih =>
    have hrest : t.Leads n (path n) (path 0) := ih fun k hk => h k (by omega)
    exact .next (h n (by omega)) hrest

/-- A file that stands where a directory was, with so many links in front of it. -/
def chainOfLinks : ℕ → Tree
  | 0 => ((Tree.empty (.ofString "/mock")).addDirectory (.ofString "x")).addFile (.ofString "x") "PK"
  | n + 1 => (chainOfLinks n).addLink ⟨List.replicate (n + 2) 'x'⟩ ⟨List.replicate (n + 1) 'x'⟩

theorem grown_chainOfLinks (n : ℕ) : (chainOfLinks n).Grown (.ofString "/mock") := by
  induction n with
  | zero => exact (Grown.empty.addDirectory _).addFile _ _
  | succ n ih => exact ih.addLink _ _

theorem answers_follow_links_of_chain :
    let t := ((chainOfLinks 16).addLink (.ofString "left") (.ofString "right")).addLink
      (.ofString "right") (.ofString "/mock//left")
    let path (k : ℕ) : Path := ⟨List.replicate (k + 1) 'x'⟩
    (Path.ofString "/mock").isAbsolute = true ∧ t.Grown (.ofString "/mock") ∧
      t.resolve (path 15) = .ok (.ofString "/mock/x") ∧ t.resolve (path 15) = t.resolve (path 14) ∧
      t.readText (path 15) = .ok "PK" ∧ t.isDirectory (path 15) = false ∧
      t.isLink (.ofString "/mock/x") = false ∧
      t.resolve (path 16) = .error (.noPath (path 16)) ∧
      t.resolve (.ofString "/mock//left") = .error (.noPath (.ofString "/mock//left")) ∧
      t.resolve (.ofString "gone") = .error (.noPath (.ofString "gone")) := by
  intro t path
  have hroot : (Path.ofString "/mock").isAbsolute = true := by decide +kernel
  have hgrown : t.Grown (.ofString "/mock") := ((grown_chainOfLinks 16).addLink _ _).addLink _ _
  obtain ⟨hresolve, -, hanswers, hnowhere, -, hend, hlink⟩ := answers_follow_links hroot hgrown
  have hlinks : ∀ k < 16, t.node? (t.locate (path (k + 1))) = some (.link (t.locate (path k))) := by
    decide +kernel
  have hleads : ∀ n ≤ 16, t.Leads n (t.locate (path n)) (t.locate (path 0)) := fun n hn =>
    leads_of_links (fun k => t.locate (path k)) fun k hk => hlinks k (by omega)
  have hfirst : t.locate (path 0) = .ofString "/mock/x" := by decide +kernel
  have hfile : t.node? (.ofString "/mock/x") = some (.file "PK") := by decide +kernel
  have hsettled : t.IsSettled (.ofString "/mock/x") := ⟨.file "PK", hfile, by decide⟩
  rw [hfirst] at hleads
  have hfound : t.resolve (path 15) = .ok (.ofString "/mock/x") :=
    (hresolve _ _).mpr ⟨15, Nat.le_refl 15, hleads 15 (by decide), hsettled⟩
  obtain ⟨-, -, hsame⟩ := hlink (path 15) (path 14) _ _ 14 (hlinks 14 (by decide)) (Path.Same.refl _)
    (Nat.le_refl 14) (hleads 14 (by decide)) hsettled
  obtain ⟨node, hnode, hdirectory, hread⟩ := hanswers _ _ hfound
  obtain rfl : node = .file "PK" := Option.some.inj (hnode.symm.trans hfile)
  have hright : t.node? (.ofString "/mock/right") = some (.link (.ofString "/mock//left")) := by
    decide +kernel
  have hleft : t.node? (.ofString "/mock//left") = some (.link (.ofString "/mock/right")) := by
    decide +kernel
  have hcircle : t.RunsInCircle (.ofString "/mock//left") :=
    ⟨0, .ofString "/mock//left", 1, .here _, .next hleft (.next hright (.here _))⟩
  refine ⟨hroot, hgrown, hfound, hsame rfl, hread, ?_, (hend _ _ hfound).2, ?_, ?_, ?_⟩
  · rw [Bool.eq_false_iff, ne_eq, hdirectory]
    decide
  · exact (hnowhere _ (Or.inr (Or.inr ⟨16, Nat.le_refl 16, _, hleads 16 (Nat.le_refl 16)⟩))).1
  · exact (hnowhere _ (Or.inr (Or.inl hcircle))).1
  · exact (hnowhere _ (Or.inl ⟨0, _, .here _, by decide +kernel⟩)).1

end Tree

end Buildpath
