import Buildpath.Files.Tree
import Mathlib.Data.List.Basic

/-!
# Links in a file tree

The links of a tree lead from a path to another (`Tree.Leads`). A path has an end if no more than
fifteen links lead from it to an entry that is no link (`Tree.EndsAt`); then, and only then, something
is there, and the end is what the path resolves to (`resolve_eq_ok_iff`, `isThere_iff`). Chains that
lead nowhere, run in a circle or are longer have no end. In a tree that has been built up by adding
entries below an absolute root all links lead to absolute paths, so an end is an end of its own.
-/

namespace Buildpath.Tree

variable {t : Tree} {p q r : Path} {node : Node} {m n : ℕ}

/-! ### Chains of links -/

/-- So many links lead from the first path to the second. -/
inductive Leads (t : Tree) : ℕ → Path → Path → Prop
  | here (p : Path) : Leads t 0 p p
  | next {n : ℕ} {p target q : Path} (h : t.node? p = some (.link target))
      (rest : Leads t n target q) : Leads t (n + 1) p q

/-- An entry that is no link stands at the path. -/
def IsSettled (t : Tree) (p : Path) : Prop :=
  ∃ node, t.node? p = some node ∧ node.kind ≠ .link

theorem node?_cases (t : Tree) (p : Path) :
    t.node? p = none ∨ (∃ target, t.node? p = some (.link target)) ∨
      ∃ node, t.node? p = some node ∧ node.kind ≠ .link := by
  cases h : t.node? p with
  | none => exact Or.inl rfl
  | some node =>
    cases node with
    | link target => exact Or.inr (Or.inl ⟨target, rfl⟩)
    | file content => exact Or.inr (Or.inr ⟨.file content, rfl, by simp [Node.kind]⟩)
    | directory => exact Or.inr (Or.inr ⟨.directory, rfl, by simp [Node.kind]⟩)

theorem not_settled_of_link {target : Path} (h : t.node? p = some (.link target)) :
    ¬ t.IsSettled p := by
  rintro ⟨node, hnode, hkind⟩
  rw [h] at hnode
  cases hnode
  exact hkind rfl

theorem follow_of_node (h : t.node? p = some node) (hkind : node.kind ≠ .link) (steps : ℕ) :
    t.follow (steps + 1) p = some (p, node) := by
  unfold follow
  cases node with
  | link target => exact absurd rfl hkind
  | file content => simp [h]
  | directory => simp [h]

/-- A search of so many paths finds what fewer links lead to. -/
theorem follow_eq_some_iff {steps : ℕ} :
    t.follow steps p = some (q, node) ↔
      ∃ n < steps, t.Leads n p q ∧ t.node? q = some node ∧ node.kind ≠ .link := by
  constructor
  · intro h
    induction steps generalizing p with
    | zero => cases h
    | succ steps ih =>
      rcases t.node?_cases p with hnone | ⟨target, hlink⟩ | ⟨found, hfound, hkind⟩
      · simp [follow, hnone] at h
      · rw [follow, hlink] at h
        obtain ⟨n, hn, hleads, hend⟩ := ih h
        exact ⟨n + 1, Nat.succ_lt_succ hn, .next hlink hleads, hend⟩
      · rw [follow_of_node hfound hkind] at h
        cases h
        exact ⟨0, Nat.succ_pos steps, .here _, hfound, hkind⟩
  · rintro ⟨n, hn, hleads, hnode, hkind⟩
    induction hleads generalizing steps with
    | here p =>
      obtain ⟨steps, rfl⟩ := Nat.exists_eq_add_one_of_ne_zero (Nat.ne_of_gt hn)
      exact follow_of_node hnode hkind steps
    | next hlink rest ih =>
      obtain ⟨steps, rfl⟩ := Nat.exists_eq_add_one_of_ne_zero (Nat.ne_of_gt (Nat.zero_lt_of_lt hn))
      rw [follow, hlink]
      exact ih (Nat.lt_of_succ_lt_succ hn) hnode

/-- No more than fifteen links lead from the path to the end, where an entry stands that is no
link. -/
def EndsAt (t : Tree) (p q : Path) : Prop :=
  ∃ n ≤ 15, t.Leads n (t.locate p) q ∧ t.IsSettled q

theorem exists_final?_iff : (∃ node, t.final? p = some (q, node)) ↔ t.EndsAt p q := by
  unfold final? EndsAt IsSettled
  simp only [follow_eq_some_iff, maxSteps, Nat.lt_succ_iff]
  constructor
  · rintro ⟨node, n, hn, hleads, hend⟩
    exact ⟨n, hn, hleads, node, hend⟩
  · rintro ⟨n, hn, hleads, node, hend⟩
    exact ⟨node, n, hn, hleads, hend⟩

theorem resolve_eq_ok_iff : t.resolve p = .ok q ↔ t.EndsAt p q := by
  rw [← exists_final?_iff, resolve]
  cases hf : t.final? p with
  | none => simp
  | some found => simp [Prod.ext_iff]

theorem EndsAt.unique (hq : t.EndsAt p q) (hr : t.EndsAt p r) : q = r := by
  have hok := (resolve_eq_ok_iff.mpr hq).symm.trans (resolve_eq_ok_iff.mpr hr)
  cases hok
  rfl

theorem isThere_iff : t.isThere p = true ↔ ∃ q, t.EndsAt p q := by
  simp only [← exists_final?_iff, isThere, Option.isSome_iff_exists, Prod.exists]

theorem isLink_iff : t.isLink p = true ↔ ∃ target, t.node? (t.locate p) = some (.link target) := by
  rw [isLink]
  rcases t.node?_cases (t.locate p) with hnone | ⟨target, hlink⟩ | ⟨found, hfound, hkind⟩
  · simp [hnone]
  · simp [hlink]
  · cases found with
    | link target => exact absurd rfl hkind
    | file content => simp [hfound]
    | directory => simp [hfound]

/-! ### Trees that have been built up -/

/-- The trees that come about by adding entries in any order. -/
inductive Grown (root : Path) : Tree → Prop
  | empty : Grown root (empty root)
  | addFile {t : Tree} (h : Grown root t) (p : Path) (content : String) :
      Grown root (t.addFile p content)
  | addDirectory {t : Tree} (h : Grown root t) (p : Path) : Grown root (t.addDirectory p)
  | addLink {t : Tree} (h : Grown root t) (p target : Path) : Grown root (t.addLink p target)

theorem mem_put {key : List Component} {entry : List Component × Node}
    {nodes : List (List Component × Node)} (h : entry ∈ put key node nodes) :
    entry.2 = node ∨ entry ∈ nodes := by
  induction nodes with
  | nil =>
    rw [List.mem_singleton.mp h]
    exact Or.inl rfl
  | cons e rest ih =>
    unfold put at h
    split at h
    · rcases List.mem_cons.mp h with rfl | h
      · exact Or.inl rfl
      · exact Or.inr (List.mem_cons_of_mem e h)
    · rcases List.mem_cons.mp h with rfl | h
      · exact Or.inr List.mem_cons_self
      · exact (ih h).imp_right (List.mem_cons_of_mem e)

theorem mem_putNew {key : List Component} {entry : List Component × Node}
    {nodes : List (List Component × Node)} (h : entry ∈ putNew key node nodes) :
    entry.2 = node ∨ entry ∈ nodes := by
  unfold putNew at h
  split at h
  · exact Or.inr h
  · rcases List.mem_append.mp h with h | h
    · exact Or.inr h
    · rw [List.mem_singleton.mp h]
      exact Or.inl rfl

theorem mem_addDirectories {entry : List Component × Node} {nodes : List (List Component × Node)}
    {key : List Component} (h : entry ∈ addDirectories nodes key) :
    entry.2 = .directory ∨ entry ∈ nodes := by
  unfold addDirectories at h
  generalize beginnings key = keys at h
  induction keys generalizing nodes with
  | nil => exact Or.inr h
  | cons key rest ih =>
    rcases ih h with hdirectory | hmem
    · exact Or.inl hdirectory
    · exact mem_putNew hmem

theorem mem_insert {entry : List Component × Node} (h : entry ∈ (t.insert p node).nodes) :
    entry.2 = node ∨ entry.2 = .directory ∨ entry ∈ t.nodes :=
  (mem_put h).imp_right mem_addDirectories

theorem locate_of_isAbsolute (h : p.isAbsolute = true) : t.locate p = p :=
  Path.join_of_isAbsolute t.root h

/-- An absolute root makes every path absolute. -/
theorem isAbsolute_locate (h : t.root.isAbsolute = true) (p : Path) :
    (t.locate p).isAbsolute = true := by
  cases hp : p.isAbsolute with
  | true => rw [locate_of_isAbsolute hp, hp]
  | false => exact (Path.isAbsolute_join t.root hp).trans h

/-- All links lead to absolute paths. -/
structure Anchored (t : Tree) : Prop where
  root : t.root.isAbsolute = true
  target {key : List Component} {target : Path} :
    (key, Node.link target) ∈ t.nodes → target.isAbsolute = true

namespace Anchored

theorem insert (h : t.Anchored) (hnode : ∀ target, node = .link target → target.isAbsolute = true) :
    (t.insert p node).Anchored where
  root := h.root
  target hmem := by
    rcases mem_insert hmem with heq | heq | hold
    · exact hnode _ heq.symm
    · cases heq
    · exact h.target hold

theorem of_grown {root : Path} (hroot : root.isAbsolute = true) (h : Grown root t) :
    t.Anchored := by
  induction h with
  | empty => exact ⟨hroot, fun hmem => absurd hmem List.not_mem_nil⟩
  | addFile _ p content ih => exact ih.insert fun target heq => by cases heq
  | addDirectory _ p ih => exact ih.insert fun target heq => by cases heq
  | addLink _ p target ih =>
    refine ih.insert fun target heq => ?_
    cases heq
    exact isAbsolute_locate ih.root _

theorem isAbsolute_of_leads (h : t.Anchored) (hleads : t.Leads n p q)
    (hp : p.isAbsolute = true) : q.isAbsolute = true := by
  induction hleads with
  | here p => exact hp
  | next hlink _ ih =>
    obtain ⟨before, after, hsplit, -⟩ := List.lookup_eq_some_iff.mp hlink
    exact ih (h.target (hsplit ▸ List.mem_append_cons_self))

/-- What stands at the end of a path is no link, and the end's own end is the end. -/
theorem endsAt_end (h : t.Anchored) (hq : t.EndsAt p q) :
    t.EndsAt q q ∧ t.isLink q = false := by
  obtain ⟨n, -, hleads, hsettled⟩ := hq
  have hlocate : t.locate q = q :=
    locate_of_isAbsolute (h.isAbsolute_of_leads hleads (isAbsolute_locate h.root p))
  refine ⟨⟨0, Nat.zero_le 15, by rw [hlocate]; exact .here q, hsettled⟩, ?_⟩
  rw [Bool.eq_false_iff]
  intro hlink
  obtain ⟨target, htarget⟩ := isLink_iff.mp hlink
  rw [hlocate] at htarget
  exact not_settled_of_link htarget hsettled

end Anchored

end Buildpath.Tree
