import Buildpath.Proofs.Files.Listing

/-!
# How a tree grows

Adding an entry puts it at its path, makes a directory of each path above where nothing stands yet, and
leaves everything else as it was (`node?_insert`). So in a tree to which entries have been added at
absolute paths, something stands exactly at these paths and above them, and the listing of the directory
above an entry shows it, once and under its own name (`nothing_is_orphaned`).
-/

namespace Buildpath

namespace Path

variable {p q r : Path} {l : List (List Char)}

/-! ### The path above -/

theorem filter_dropIdleEnd (l : List (List Char)) :
    (dropIdleEnd l).filter isProper = l.filter isProper := by
  rw [dropIdleEnd, List.filter_reverse, filter_dropIdle, List.filter_reverse, List.reverse_reverse]

theorem loose_of_isAbsolute (hp : p.isAbsolute = true) : p.loose = p.body := by
  rw [loose, startsHere_of_isAbsolute hp, if_neg Bool.false_ne_true]

theorem names_rebuild (hp : p.isAbsolute = true) (h : ∀ s ∈ l, '/' ∉ s) :
    (p.rebuild l).names = l.filter isProper := by
  have hcut : segments ('/' :: joinSegments l) = [] :: segments (joinSegments l) :=
    segments_append_slash [] (joinSegments l)
  rw [rebuild, if_pos hp, names_eq, hcut]
  by_cases hl : l = []
  · rw [hl]
    rfl
  · rw [segments_joinSegments hl h]
    rfl

/-- The names of the path above are all but the last; nothing is above the root. -/
theorem parent?_of_isAbsolute (hp : p.isAbsolute = true) :
    (p.names = [] ∧ p.parent? = none) ∨
      (p.names ≠ [] ∧ ∃ q, p.parent? = some q ∧ q.names = p.names.dropLast) := by
  have hnames : (dropIdleEnd p.loose).filter isProper = p.names := by
    rw [filter_dropIdleEnd, loose_of_isAbsolute hp]
    rfl
  have hsegments : ∀ s ∈ (dropIdleEnd p.loose).reverse, '/' ∉ s := by
    intro s hs
    rw [dropIdleEnd, List.reverse_reverse, loose_of_isAbsolute hp] at hs
    have hbody : s ∈ p.body := List.mem_reverse.mp ((List.dropWhile_sublist _).subset hs)
    exact not_mem_of_mem_segments hbody
  have hlast := List.head?_dropWhile_not (!isProper ·) p.loose.reverse
  have hreverse : (dropIdleEnd p.loose).reverse = dropIdle p.loose.reverse := List.reverse_reverse _
  unfold parent?
  rw [← List.reverse_reverse (dropIdleEnd p.loose), hreverse] at hnames
  rw [hreverse] at hsegments ⊢
  cases hcut : dropIdle p.loose.reverse with
  | nil =>
    rw [hcut] at hnames
    left
    rw [hp]
    exact ⟨hnames.symm, rfl⟩
  | cons s rest =>
    have hs : isProper s = true := by
      rw [← dropIdle, hcut] at hlast
      simpa using hlast
    rw [hcut, List.reverse_cons, List.filter_append, List.filter_cons_of_pos hs, List.filter_nil]
      at hnames
    have hrest : ∀ s ∈ (dropIdle rest).reverse, '/' ∉ s := by
      intro s hmem
      have hold : s ∈ rest := (List.dropWhile_sublist _).subset (List.mem_reverse.mp hmem)
      exact hsegments s (hcut ▸ List.mem_cons_of_mem _ hold)
    right
    refine ⟨?_, _, rfl, ?_⟩
    · rw [← hnames]
      exact List.concat_ne_nil _ _
    · rw [names_rebuild hp hrest, List.filter_reverse, filter_dropIdle, ← List.filter_reverse,
        ← hnames, List.dropLast_concat]

theorem isAbsolute_of_parent {q : Path} (hp : p.isAbsolute = true) (h : p.parent? = some q) :
    q.isAbsolute = true := by
  have hrebuild : ∀ segments, (p.rebuild segments).isAbsolute = true := by
    intro segments
    unfold Path.rebuild
    rw [if_pos hp]
    rfl
  unfold Path.parent? at h
  split at h
  · rw [← Option.some.inj h]
    exact hrebuild _
  · rw [hp] at h
    cases h

/-- An absolute path is the root or one step below the path above it. -/
theorem parent?_cases (hp : p.isAbsolute = true) :
    (p.components = [.root] ∧ p.parent? = none) ∨
      ∃ q step, p.parent? = some q ∧ q.isAbsolute = true ∧ p.components = q.components ++ [step] := by
  rw [components_of_isAbsolute hp]
  rcases parent?_of_isAbsolute hp with ⟨hnames, hnone⟩ | ⟨hnames, q, hq, hfront⟩
  · left
    rw [hnames]
    exact ⟨rfl, hnone⟩
  · right
    have hqa : q.isAbsolute = true := isAbsolute_of_parent hp hq
    refine ⟨q, componentOf (p.names.getLast hnames), hq, hqa, ?_⟩
    rw [components_of_isAbsolute hqa, hfront, List.cons_append, ← List.map_singleton,
      ← List.map_append, List.dropLast_concat_getLast]

/-- The first path is the second or above it. -/
def IsOnTheWay (q p : Path) : Prop :=
  q.components ≠ [] ∧ q.Contains p

instance (q p : Path) : Decidable (q.IsOnTheWay p) :=
  inferInstanceAs (Decidable (q.components ≠ [] ∧ q.Contains p))

theorem IsOnTheWay.trans (hq : q.IsOnTheWay p) (hp : p.IsOnTheWay r) : q.IsOnTheWay r :=
  ⟨hq.1, hq.2.trans hp.2⟩

end Path

namespace Tree

variable {t : Tree} {p q : Path} {node : Node} {key k : List Component}
  {nodes : List (List Component × Node)}

/-! ### Adding an entry -/

theorem lookup_cons (entry : List Component × Node) (nodes : List (List Component × Node))
    (k : List Component) :
    (entry :: nodes).lookup k = if k = entry.1 then some entry.2 else nodes.lookup k := by
  obtain ⟨key, node⟩ := entry
  rw [List.lookup_cons]
  by_cases hk : k = key
  · simp [hk]
  · have hne : (k == key) = false := beq_eq_false_iff_ne.mpr hk
    simp [hne, hk]

theorem lookup_put (key : List Component) (node : Node) (nodes : List (List Component × Node))
    (k : List Component) :
    (put key node nodes).lookup k = if k = key then some node else nodes.lookup k := by
  induction nodes with
  | nil => exact lookup_cons (key, node) [] k
  | cons entry rest ih =>
    obtain ⟨other, n⟩ := entry
    by_cases hother : other = key
    · rw [put, if_pos hother, hother, lookup_cons, lookup_cons]
      by_cases hk : k = key
      · rw [if_pos hk, if_pos hk]
      · rw [if_neg hk, if_neg hk, if_neg hk]
    · rw [put, if_neg hother, lookup_cons, lookup_cons, ih]
      by_cases hk : k = other
      · have hne : k ≠ key := hk ▸ hother
        rw [if_pos hk, if_neg hne, if_pos hk]
      · rw [if_neg hk, if_neg hk]

theorem lookup_putNew (key : List Component) (node : Node) (nodes : List (List Component × Node))
    (k : List Component) :
    (putNew key node nodes).lookup k = (nodes.lookup k).or (if k = key then some node else none) := by
  unfold putNew
  by_cases hthere : (nodes.lookup key).isSome = true
  · rw [if_pos hthere]
    by_cases hk : k = key
    · obtain ⟨old, hold⟩ := Option.isSome_iff_exists.mp hthere
      rw [hk, hold, Option.some_or]
    · rw [if_neg hk, Option.or_none]
  · rw [if_neg hthere, List.lookup_append, lookup_cons]
    rfl

theorem lookup_addDirectories (nodes : List (List Component × Node)) (key k : List Component) :
    (addDirectories nodes key).lookup k =
      (nodes.lookup k).or (if k ∈ beginnings key then some .directory else none) := by
  unfold addDirectories
  generalize beginnings key = keys
  induction keys generalizing nodes with
  | nil => simp
  | cons first rest ih =>
    rw [List.foldl_cons, ih, lookup_putNew, Option.or_assoc]
    by_cases hk : k = first <;> simp [hk]

/-- After an entry was added it stands at its path, what stood elsewhere still stands there, and on the
way to the path directories have been made where nothing stood. -/
theorem node?_insert (t : Tree) (p : Path) (node : Node) (q : Path) :
    (t.insert p node).node? q =
      if q.Same p then some node
      else (t.node? q).or (if q.IsOnTheWay p then some .directory else none) := by
  have hnode : (t.insert p node).node? q =
      if q.Same p then some node
      else (addDirectories t.nodes p.components.dropLast).lookup q.components :=
    lookup_put p.components node _ q.components
  rw [hnode]
  by_cases hsame : q.Same p
  · rw [if_pos hsame, if_pos hsame]
  · rw [if_neg hsame, if_neg hsame, lookup_addDirectories]
    have hproper : q.components ≠ p.components := hsame
    have hway : q.components ∈ beginnings p.components.dropLast ↔ q.IsOnTheWay p := by
      rw [mem_beginnings]
      refine and_congr_right fun hne => ⟨fun h => h.trans (List.dropLast_prefix _), fun h => ?_⟩
      obtain ⟨rest, hrest⟩ := h
      rcases rest.eq_nil_or_concat' with rfl | ⟨front, last, rfl⟩
      · exact absurd (by simpa using hrest) hproper
      · rw [← hrest, ← List.append_assoc, List.dropLast_concat]
        exact List.prefix_append _ _
    simp only [hway]
    rfl

/-- A file that was added is read as it was added. -/
theorem readText_addFile (t : Tree) (hp : p.isAbsolute = true) (content : String) :
    (t.addFile p content).readText p = .ok content := by
  have hplace : ∀ tree : Tree, tree.locate p = p := fun tree => Path.join_of_isAbsolute _ hp
  have hnode : (t.addFile p content).node? p = some (.file content) := by
    rw [addFile, hplace t, node?_insert, if_pos (Path.Same.refl p)]
  have hfinal : (t.addFile p content).final? p = some (p, .file content) := by
    unfold final?
    rw [hplace]
    exact follow_of_node hnode (by simp [Node.kind]) 15
  unfold readText
  rw [hfinal]

theorem isSome_node?_insert (hp : p.isAbsolute = true) (node : Node) (q : Path) :
    ((t.insert p node).node? q).isSome = true ↔ q.IsOnTheWay p ∨ (t.node? q).isSome = true := by
  rw [node?_insert]
  by_cases hsame : q.Same p
  · have hway : q.IsOnTheWay p := by
      have hself : p.IsOnTheWay p := ⟨components_ne_nil hp, List.prefix_rfl⟩
      unfold Path.IsOnTheWay Path.Contains
      rw [hsame]
      exact hself
    rw [if_pos hsame]
    exact iff_of_true rfl (Or.inl hway)
  · rw [if_neg hsame, Option.isSome_or, Bool.or_eq_true, or_comm]
    by_cases hway : q.IsOnTheWay p <;> simp [hway]

/-! ### Adding entries in turn -/

/-- An entry that is added to a tree. -/
inductive Addition where
  | file (path : Path) (content : String)
  | directory (path : Path)
  | link (path target : Path)

namespace Addition

def path : Addition → Path
  | .file path _ => path
  | .directory path => path
  | .link path _ => path

/-- What stands at the path then. -/
def newNode (root : Path) : Addition → Node
  | .file _ content => .file content
  | .directory _ => .directory
  | .link _ target => .link (root.join target)

/-- The path is written absolute, or seen from an absolute root. -/
def IsPlaced (root : Path) (a : Addition) : Prop :=
  a.path.isAbsolute = true ∨ root.isAbsolute = true

theorem IsPlaced.isAbsolute {root : Path} {a : Addition} (h : a.IsPlaced root) :
    (root.join a.path).isAbsolute = true := by
  cases hp : a.path.isAbsolute with
  | true => rw [Path.join_of_isAbsolute root hp, hp]
  | false =>
    rw [IsPlaced, hp] at h
    exact (Path.isAbsolute_join root hp).trans (h.resolve_left Bool.false_ne_true)

end Addition

def add (t : Tree) : Addition → Tree
  | .file path content => t.addFile path content
  | .directory path => t.addDirectory path
  | .link path target => t.addLink path target

/-- The tree in which the entries have been added one after the other. -/
def ofAdditions (root : Path) (additions : List Addition) : Tree :=
  additions.foldl add (empty root)

theorem ofAdditions_concat (root : Path) (additions : List Addition) (a : Addition) :
    ofAdditions root (additions ++ [a]) = (ofAdditions root additions).add a := by
  rw [ofAdditions, List.foldl_append]
  rfl

theorem add_eq_insert (t : Tree) (a : Addition) :
    t.add a = t.insert (t.locate a.path) (a.newNode t.root) := by
  cases a <;> rfl

theorem root_add (t : Tree) (a : Addition) : (t.add a).root = t.root := by
  rw [add_eq_insert]
  rfl

theorem root_ofAdditions (root : Path) (additions : List Addition) :
    (ofAdditions root additions).root = root := by
  induction additions using List.reverseRecOn with
  | nil => rfl
  | append_singleton additions a ih => rw [ofAdditions_concat, root_add, ih]

section Placed

variable {root : Path} {additions : List Addition} (h : ∀ a ∈ additions, a.IsPlaced root)
include h

theorem wellKept_ofAdditions : WellKept (ofAdditions root additions).nodes := by
  induction additions using List.reverseRecOn with
  | nil => exact ⟨List.nodup_nil, fun key hkey => absurd hkey List.not_mem_nil⟩
  | append_singleton additions a ih =>
    have hold := ih fun b hb => h b (List.mem_append_left [a] hb)
    have ha : a.IsPlaced root := h a (List.mem_append_right additions List.mem_cons_self)
    rw [ofAdditions_concat, add_eq_insert, locate, root_ofAdditions]
    exact hold.insert ha.isAbsolute _

/-- Something stands at the paths of the entries that were added and above them, and nowhere else. -/
theorem isSome_node?_ofAdditions (q : Path) :
    ((ofAdditions root additions).node? q).isSome = true ↔
      ∃ a ∈ additions, q.IsOnTheWay (root.join a.path) := by
  induction additions using List.reverseRecOn with
  | nil => exact iff_of_false Bool.false_ne_true fun ⟨a, ha, _⟩ => absurd ha List.not_mem_nil
  | append_singleton additions a ih =>
    have hold := ih fun b hb => h b (List.mem_append_left [a] hb)
    have ha : a.IsPlaced root := h a (List.mem_append_right additions List.mem_cons_self)
    rw [ofAdditions_concat, add_eq_insert, locate, root_ofAdditions,
      isSome_node?_insert ha.isAbsolute, hold]
    simp only [List.mem_append, List.mem_singleton]
    constructor
    · rintro (hway | ⟨b, hb, hway⟩)
      · exact ⟨a, Or.inr rfl, hway⟩
      · exact ⟨b, Or.inl hb, hway⟩
    · rintro ⟨b, hb | rfl, hway⟩
      · exact Or.inr ⟨b, hb, hway⟩
      · exact Or.inl hway

end Placed

/-! ### Listing what stands -/

theorem WellKept.isAbsolute (h : WellKept t.nodes) (hp : (t.node? p).isSome = true) :
    p.isAbsolute = true := by
  obtain ⟨q, hq, hcomponents⟩ := h.rooted p.components (isSome_lookup_iff.mp hp)
  exact Path.Same.isAbsolute hcomponents hq

/-- The directory above shows what stands at a path, once. -/
theorem count_listed (h : WellKept t.nodes)
    (hclosed : ∀ q, q.IsOnTheWay p → (t.node? q).isSome = true) (hnode : t.node? p = some node)
    (hroot : p.components ≠ [.root]) :
    ∃ dir l, p.parent? = some dir ∧ t.list dir = .ok l ∧ t.Lists dir l ∧
      l.count ⟨shownName p, node.kind⟩ = 1 := by
  have hp : p.isAbsolute = true := h.isAbsolute (by rw [hnode]; rfl)
  rcases Path.parent?_cases hp with ⟨heq, -⟩ | ⟨dir, step, hdir, habsolute, hstep⟩
  · exact absurd heq hroot
  · have hway : dir.IsOnTheWay p := ⟨components_ne_nil habsolute, [step], hstep.symm⟩
    have hlocate : t.locate dir = dir := locate_of_isAbsolute habsolute
    have hthere : (t.node? (t.locate dir)).isSome = true := by
      rw [hlocate]
      exact hclosed dir hway
    have hlists := lists_sort h habsolute
    have hlist := list_eq_ok hthere
    rw [hlocate] at hlist
    have hmem := (hlists.mem_iff ⟨shownName p, node.kind⟩).mpr ⟨p, step, node, hstep, hnode, rfl⟩
    have hnodup : (Listed.sort ((t.childEntries dir).map listedEntry)).Nodup := by
      refine hlists.ascending.imp ?_
      rintro a b hlt rfl
      exact lt_irrefl a.name hlt
    exact ⟨dir, _, hdir, hlist, hlists, List.count_eq_one_of_mem hnodup hmem⟩

/-- Below the root, a path that does not go up ends with a name, which is the one that is shown. -/
theorem fileName?_of_stays_below (hp : p.isAbsolute = true) (hstays : ['.', '.'] ∉ p.names)
    (hroot : p.components ≠ [.root]) : p.fileName?.map String.ofList = some (shownName p) := by
  have hup : Component.up ∉ p.components := by
    rw [Path.components_of_isAbsolute hp]
    intro hmem
    rcases List.mem_cons.mp hmem with heq | hmem
    · cases heq
    · obtain ⟨s, hs, heq⟩ := List.mem_map.mp hmem
      have hdots : s = ['.', '.'] := Path.componentOf_injective heq
      exact hstays (hdots ▸ hs)
  rcases Path.parent?_cases hp with ⟨heq, -⟩ | ⟨dir, step, -, habsolute, hstep⟩
  · exact absurd heq hroot
  · rcases last_step hp (components_ne_nil habsolute) hstep with rfl | ⟨s, -, rfl⟩
    · exact absurd (hstep ▸ List.mem_append_right dir.components List.mem_cons_self) hup
    · have hname : p.fileName? = some s := by
        rw [Path.fileName?, hstep, List.getLast?_concat]
      rw [shownName, hname]
      rfl

/-- In a tree to which entries have been added one after the other, at absolute paths or below an absolute
root, something stands exactly at the paths of the entries and above them, so whatever is above something
stands as well. One more entry stands at its path, and what stands at any other path, be it above, stays
what it is. Everything but the root is shown once in the listing of the directory above it, with its kind
and the name it is shown by, and the names of the listing ascend. Unless an entry's path goes up, the
shown name is the last name of the path. -/
theorem nothing_is_orphaned {root : Path} {additions : List Addition}
    (h : ∀ a ∈ additions, a.IsPlaced root) :
    let t := ofAdditions root additions
    (∀ p, (t.node? p).isSome = true ↔ ∃ a ∈ additions, p.IsOnTheWay (root.join a.path)) ∧
    (∀ p q, (t.node? p).isSome = true → q.IsOnTheWay p → (t.node? q).isSome = true) ∧
    (∀ a, a.IsPlaced root → (t.add a).node? (root.join a.path) = some (a.newNode root) ∧
      ∀ q node, t.node? q = some node → ¬ q.Same (root.join a.path) →
        (t.add a).node? q = some node) ∧
    (∀ p node, t.node? p = some node → p.components ≠ [.root] →
      ∃ dir l, p.parent? = some dir ∧ t.list dir = .ok l ∧ t.Lists dir l ∧
        l.count ⟨shownName p, node.kind⟩ = 1) ∧
    ((∀ a ∈ additions, ['.', '.'] ∉ (root.join a.path).names) →
      ∀ p, (t.node? p).isSome = true → p.components ≠ [.root] →
        p.fileName?.map String.ofList = some (shownName p)) := by
  intro t
  have hroot : t.root = root := root_ofAdditions root additions
  have hkept : WellKept t.nodes := wellKept_ofAdditions h
  have hstands : ∀ p, (t.node? p).isSome = true ↔
      ∃ a ∈ additions, p.IsOnTheWay (root.join a.path) := isSome_node?_ofAdditions h
  have hclosed : ∀ p q, (t.node? p).isSome = true → q.IsOnTheWay p → (t.node? q).isSome = true := by
    intro p q hp hq
    obtain ⟨a, ha, hway⟩ := (hstands p).mp hp
    exact (hstands q).mpr ⟨a, ha, hq.trans hway⟩
  refine ⟨hstands, hclosed, ?_, ?_, ?_⟩
  · intro a ha
    have hinsert : ∀ q, (t.add a).node? q =
        if q.Same (root.join a.path) then some (a.newNode root)
        else (t.node? q).or (if q.IsOnTheWay (root.join a.path) then some .directory else none) := by
      rw [add_eq_insert, locate, hroot]
      exact node?_insert t _ (a.newNode root)
    refine ⟨?_, ?_⟩
    · rw [hinsert, if_pos (Path.Same.refl _)]
    · intro q node hnode hother
      rw [hinsert, if_neg hother, hnode, Option.some_or]
  · intro p node hnode hbelow
    have hthere : (t.node? p).isSome = true := by
      rw [hnode]
      rfl
    exact count_listed hkept (fun q => hclosed p q hthere) hnode hbelow
  · intro hstays p hp hbelow
    have habsolute : p.isAbsolute = true := hkept.isAbsolute hp
    obtain ⟨a, ha, hway⟩ := (hstands p).mp hp
    have hbegins := (Path.contains_iff_names habsolute (h a ha).isAbsolute).mp hway.2
    exact fileName?_of_stays_below habsolute (fun hup => hstays a ha (hbegins.subset hup)) hbelow

/-- A file below a path at which a link is put afterwards, and a directory that is there already. -/
def linkedParent : List Addition :=
  [.file (.ofString "a/b/c") "PK", .link (.ofString "/mock/a//b") (.ofString "gone"),
    .directory (.ofString "./a")]

theorem nothing_is_orphaned_of_linked :
    let root : Path := .ofString "/mock"
    let t := ofAdditions root linkedParent
    let link : Path := .ofString "/mock/a/b"
    (∀ a ∈ linkedParent, a.IsPlaced root) ∧
      (∀ a ∈ linkedParent, ['.', '.'] ∉ (root.join a.path).names) ∧
      t.node? link = some (.link (.ofString "/mock/gone")) ∧ link.components ≠ [.root] ∧
      link.fileName? = some ['b'] ∧
      (∃ dir l, link.parent? = some dir ∧ t.list dir = .ok l ∧ l.count ⟨"b", .link⟩ = 1) ∧
      (t.node? (.ofString "/mock/a/b/c")).isSome = true ∧
      (Path.ofString "/").IsOnTheWay (.ofString "/mock/a/b/c") ∧
      (t.node? (.ofString "/")).isSome = true ∧
      (t.add (.file (.ofString "a/b/d") "PK")).node? link = some (.link (.ofString "/mock/gone")) := by
  intro root t link
  have hroot : root.isAbsolute = true := by decide +kernel
  have hplaced : ∀ a ∈ linkedParent, a.IsPlaced root := fun a _ => Or.inr hroot
  have hstays : ∀ a ∈ linkedParent, ['.', '.'] ∉ (root.join a.path).names := by decide +kernel
  obtain ⟨-, hclosed, hadd, hlisted, hnames⟩ := nothing_is_orphaned hplaced
  have hlink : t.node? link = some (.link (.ofString "/mock/gone")) := by decide +kernel
  have hbelow : link.components ≠ [.root] := by decide +kernel
  have hchild : (t.node? (.ofString "/mock/a/b/c")).isSome = true := by decide +kernel
  have hway : (Path.ofString "/").IsOnTheWay (.ofString "/mock/a/b/c") := by decide +kernel
  have hname := hnames hstays link (by rw [hlink]; rfl) hbelow
  have hlast : link.fileName? = some ['b'] := by decide +kernel
  have hshown : shownName link = "b" := by
    rw [hlast] at hname
    exact (Option.some.inj hname).symm
  obtain ⟨dir, l, hdir, hl, -, hcount⟩ := hlisted link _ hlink hbelow
  rw [hshown] at hcount
  obtain ⟨-, hother⟩ := hadd (.file (.ofString "a/b/d") "PK") (Or.inr hroot)
  exact ⟨hplaced, hstays, hlink, hbelow, hlast, ⟨dir, l, hdir, hl, hcount⟩, hchild, hway,
    hclosed _ _ hchild hway, hother link _ hlink (by decide +kernel)⟩

/-- The listing of a directory does not show every name that is below it: `..` is not shown, below a root
that goes up, and a name that is no text is not, so that two of them are shown alike. -/
theorem names_that_are_not_shown :
    (let root : Path := .ofString "/a/.."
      let x : Addition := .file (.ofString "x") "PK"
      let t := ofAdditions root [x]
      x.IsPlaced root ∧ ['.', '.'] ∉ x.path.names ∧
        t.node? (.ofString "/a/..") = some .directory ∧
        t.list (.ofString "/a") = .ok [⟨"", .directory⟩]) ∧
    let first : List Component := [.root, .name ['a'], .raw [0xFF] (by decide)]
    let second : List Component := [.root, .name ['a'], .raw [0xFE] (by decide)]
    let t := ((empty ⟨['/']⟩).insertAt first (.file "1")).insertAt second (.file "2")
    first ≠ second ∧ t.nodes.lookup first = some (.file "1") ∧
      t.nodes.lookup second = some (.file "2") ∧
      t.list (.ofString "/a") = .ok [⟨"", .file⟩, ⟨"", .file⟩] := by
  have hsorted : Listed.sort [⟨"", .file⟩, ⟨"", .file⟩] = [⟨"", .file⟩, ⟨"", .file⟩] :=
    List.mergeSort_of_pairwise (by decide)
  refine ⟨⟨Or.inr (by decide +kernel), by decide +kernel, by decide +kernel, by decide +kernel⟩, ?_⟩
  intro first second t
  refine ⟨by decide +kernel, by decide +kernel, by decide +kernel, ?_⟩
  rw [← hsorted]
  rfl

end Tree

end Buildpath
