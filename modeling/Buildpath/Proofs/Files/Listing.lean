import Buildpath.Proofs.Archive.Location
import Buildpath.Proofs.Files.Ends
import Buildpath.Proofs.Path.Joining
import Mathlib.Data.List.Sort
import Mathlib.Data.String.Basic

/-!
# Listing a directory of a tree

The keys of a tree are those of absolute paths, and each stands once (`WellKept`), however the tree has
grown. A listing therefore shows each child of a directory once, in the order of the names (`Lists`).
The directory that is listed is the one that stands at the path itself: what is asked about the end of
the links (`isDirectory`) and what is listed agree exactly as long as no link stands there, or the link
has the same children as the directory (`directories_are_listed_unless_linked`).
-/

namespace Buildpath.Tree

variable {t : Tree} {p q dir : Path} {node : Node} {key : List Component}
  {nodes : List (List Component × Node)} {l k : List Listed}

/-! ### Keys -/

/-- The keys with one more, unless it is among them. -/
def withKey (key : List Component) (keys : List (List Component)) : List (List Component) :=
  if key ∈ keys then keys else keys ++ [key]

theorem mem_withKey {other : List Component} {keys : List (List Component)} :
    other ∈ withKey key keys ↔ other = key ∨ other ∈ keys := by
  unfold withKey
  by_cases hkey : key ∈ keys
  · rw [if_pos hkey]
    constructor
    · exact Or.inr
    · rintro (rfl | hother)
      · exact hkey
      · exact hother
  · rw [if_neg hkey, List.mem_append, List.mem_singleton, or_comm]

theorem nodup_withKey {keys : List (List Component)} (h : keys.Nodup) : (withKey key keys).Nodup := by
  unfold withKey
  by_cases hkey : key ∈ keys
  · rw [if_pos hkey]
    exact h
  · rw [if_neg hkey]
    refine List.nodup_append.mpr ⟨h, List.nodup_singleton key, ?_⟩
    intro a ha b hb hab
    rw [List.mem_singleton.mp hb] at hab
    exact hkey (hab ▸ ha)

theorem keys_put (key : List Component) (node : Node) (nodes : List (List Component × Node)) :
    (put key node nodes).map Prod.fst = withKey key (nodes.map Prod.fst) := by
  unfold withKey
  induction nodes with
  | nil => rfl
  | cons entry rest ih =>
    obtain ⟨k, n⟩ := entry
    by_cases hk : k = key
    · rw [put, if_pos hk, if_pos (hk ▸ List.mem_cons_self)]
      rfl
    · rw [put, if_neg hk, List.map_cons, ih]
      by_cases hrest : key ∈ rest.map Prod.fst
      · have hknown : key ∈ ((k, n) :: rest).map Prod.fst := List.mem_cons_of_mem k hrest
        rw [if_pos hrest, if_pos hknown]
        rfl
      · have hnew : key ∉ ((k, n) :: rest).map Prod.fst := by
          intro hmem
          rcases List.mem_cons.mp hmem with heq | hmem
          · exact hk heq.symm
          · exact hrest hmem
        rw [if_neg hrest, if_neg hnew]
        rfl

theorem isSome_lookup_iff : (nodes.lookup key).isSome = true ↔ key ∈ nodes.map Prod.fst := by
  rw [List.lookup_isSome_iff, List.mem_map]
  constructor
  · rintro ⟨entry, hentry, hkey⟩
    exact ⟨entry, hentry, (beq_iff_eq.mp hkey).symm⟩
  · rintro ⟨entry, hentry, hkey⟩
    exact ⟨entry, hentry, beq_iff_eq.mpr hkey.symm⟩

theorem keys_putNew (key : List Component) (node : Node) (nodes : List (List Component × Node)) :
    (putNew key node nodes).map Prod.fst = withKey key (nodes.map Prod.fst) := by
  unfold putNew withKey
  by_cases hkey : key ∈ nodes.map Prod.fst
  · rw [if_pos hkey, if_pos (isSome_lookup_iff.mpr hkey)]
  · rw [if_neg hkey, if_neg (mt isSome_lookup_iff.mp hkey), List.map_append]
    rfl

/-- What stands once is found. -/
theorem lookup_of_mem (h : (nodes.map Prod.fst).Nodup) (hmem : (key, node) ∈ nodes) :
    nodes.lookup key = some node := by
  obtain ⟨before, after, rfl⟩ := List.append_of_mem hmem
  refine List.lookup_eq_some_iff.mpr ⟨before, after, rfl, ?_⟩
  intro entry hentry
  rw [List.map_append, List.map_cons] at h
  obtain ⟨-, -, hdisjoint⟩ := List.nodup_append.mp h
  have hne : entry.1 ≠ key :=
    hdisjoint entry.1 (List.mem_map_of_mem hentry) key List.mem_cons_self
  exact bne_iff_ne.mpr hne.symm

theorem mem_of_lookup (h : nodes.lookup key = some node) : (key, node) ∈ nodes := by
  obtain ⟨before, after, rfl, -⟩ := List.lookup_eq_some_iff.mp h
  exact List.mem_append_cons_self

/-! ### Trees that have been built up -/

/-- The key is that of an absolute path. -/
def IsRooted (key : List Component) : Prop :=
  ∃ p : Path, p.isAbsolute = true ∧ p.components = key

/-- Each key stands once, and is that of an absolute path. -/
structure WellKept (nodes : List (List Component × Node)) : Prop where
  nodup : (nodes.map Prod.fst).Nodup
  rooted : ∀ key ∈ nodes.map Prod.fst, IsRooted key

theorem mem_beginnings {α : Type} {front l : List α} :
    front ∈ beginnings l ↔ front ≠ [] ∧ front <+: l := by
  unfold beginnings
  rw [List.mem_map]
  constructor
  · rintro ⟨i, hi, rfl⟩
    have hpos : l ≠ [] := by
      rintro rfl
      exact absurd hi List.not_mem_nil
    exact ⟨by simp [hpos], List.take_prefix _ _⟩
  · rintro ⟨hne, hbegins⟩
    have hpos := List.length_pos_iff.mpr hne
    have hle := hbegins.length_le
    refine ⟨front.length - 1, List.mem_range.mpr (by omega), ?_⟩
    rw [Nat.sub_add_cancel hpos]
    exact (List.prefix_iff_eq_take.mp hbegins).symm

theorem isRooted_of_mem_beginnings (hp : p.isAbsolute = true) (h : key ∈ beginnings p.components) :
    IsRooted key := by
  obtain ⟨i, -, rfl⟩ := List.mem_map.mp h
  have hnames : Path.AreNames (p.names.take i) := fun s hs =>
    Path.areNames_names p s (List.mem_of_mem_take hs)
  refine ⟨Path.ofNames true (p.names.take i), hnames.isAbsolute_ofNames true, ?_⟩
  rw [hnames.components_ofNames true, Path.components_of_isAbsolute hp, List.take_succ_cons,
    List.map_take]
  rfl

namespace WellKept

theorem of_withKey {other : List (List Component × Node)} (h : WellKept nodes) (hkey : IsRooted key)
    (hkeys : other.map Prod.fst = withKey key (nodes.map Prod.fst)) : WellKept other where
  nodup := by
    rw [hkeys]
    exact nodup_withKey h.nodup
  rooted k hk := by
    rw [hkeys, mem_withKey] at hk
    rcases hk with rfl | hold
    · exact hkey
    · exact h.rooted k hold

theorem addDirectories (h : WellKept nodes) (hkeys : ∀ k ∈ beginnings key, IsRooted k) :
    WellKept (addDirectories nodes key) := by
  unfold Tree.addDirectories
  generalize beginnings key = keys at hkeys
  induction keys generalizing nodes with
  | nil => exact h
  | cons k rest ih =>
    obtain ⟨hk, hrest⟩ := List.forall_mem_cons.mp hkeys
    exact ih (h.of_withKey hk (keys_putNew k .directory nodes)) hrest

theorem insert (h : WellKept t.nodes) (hp : p.isAbsolute = true) (node : Node) :
    WellKept (t.insert p node).nodes := by
  have habove : WellKept (Tree.addDirectories t.nodes p.components.dropLast) := by
    refine h.addDirectories fun k hk => isRooted_of_mem_beginnings hp ?_
    obtain ⟨hne, hbegins⟩ := mem_beginnings.mp hk
    exact mem_beginnings.mpr ⟨hne, hbegins.trans (List.dropLast_prefix _)⟩
  exact habove.of_withKey ⟨p, hp, rfl⟩ (keys_put p.components node _)

theorem of_grown {root : Path} (hroot : root.isAbsolute = true) (h : Grown root t) :
    WellKept t.nodes := by
  induction h with
  | empty => exact ⟨List.nodup_nil, fun key hkey => absurd hkey List.not_mem_nil⟩
  | addFile h p content ih =>
    exact ih.insert (isAbsolute_locate (Anchored.of_grown hroot h).root p) (.file content)
  | addDirectory h p ih =>
    exact ih.insert (isAbsolute_locate (Anchored.of_grown hroot h).root p) .directory
  | addLink h p target ih =>
    exact ih.insert (isAbsolute_locate (Anchored.of_grown hroot h).root p) _

end WellKept

/-! ### Children -/

/-- The last name of the path as a listing shows it; nothing is shown for `..`. -/
def shownName (p : Path) : String :=
  (p.fileName?.map String.ofList).getD ""

/-- Something stands one step below the directory; a listing shows it so. -/
def HasChild (t : Tree) (dir : Path) (child : Listed) : Prop :=
  ∃ c step node, c.components = dir.components ++ [step] ∧ t.node? c = some node ∧
    child = ⟨shownName c, node.kind⟩

/-- The children of the directory, each once, in the order of their names. -/
structure Lists (t : Tree) (dir : Path) (l : List Listed) : Prop where
  ascending : l.Pairwise fun a b => a.name < b.name
  mem_iff : ∀ child, child ∈ l ↔ t.HasChild dir child

theorem lastName_components (p : Path) : lastName p.components = shownName p := by
  unfold lastName shownName Path.fileName?
  cases p.components.getLast? with
  | none => rfl
  | some step => cases step <;> rfl

theorem isChildOf_iff {parent : List Component} (hparent : parent ≠ []) :
    isChildOf parent key = true ↔ ∃ step, key = parent ++ [step] := by
  simp only [isChildOf, Bool.and_eq_true, bne_iff_ne, beq_iff_eq]
  constructor
  · rintro ⟨⟨-, hne⟩, hdrop⟩
    exact ⟨key.getLast hne, by rw [← hdrop, List.dropLast_concat_getLast]⟩
  · rintro ⟨step, rfl⟩
    refine ⟨⟨?_, List.concat_ne_nil step parent⟩, List.dropLast_concat⟩
    intro hroot
    have hsplit : parent ++ [step] = [] ++ [.root] := hroot
    exact hparent (List.append_inj' hsplit rfl).1

section Names

variable {c d : Path} {parent : List Component} {step other : Component}

theorem shownName_of_concat (h : c.components = parent ++ [step]) :
    shownName c = lastName [step] := by
  rw [← lastName_components, h]
  unfold lastName
  rw [List.getLast?_concat]
  rfl

/-- The last step of a path with something above it is `..` or a name. -/
theorem last_step (hc : c.isAbsolute = true) (hparent : parent ≠ [])
    (h : c.components = parent ++ [step]) : step = .up ∨ ∃ s, s ≠ [] ∧ step = .name s := by
  rw [Path.components_of_isAbsolute hc] at h
  rcases c.names.eq_nil_or_concat' with hnil | ⟨front, s, hnames⟩
  · rw [hnil] at h
    have hsplit : [] ++ [.root] = parent ++ [step] := h
    exact absurd (List.append_inj' hsplit rfl).1.symm hparent
  · have hproper : Path.isProper s = true :=
      (Path.areNames_names c s (hnames ▸ List.mem_append_cons_self)).1
    have hs : s ≠ [] := by
      rintro rfl
      cases hproper
    rw [hnames, List.map_append, ← List.cons_append] at h
    obtain rfl : Path.componentOf s = step := List.singleton_inj.mp (List.append_inj' h rfl).2
    unfold Path.componentOf
    by_cases hup : s = ['.', '.']
    · exact Or.inl (if_pos hup)
    · exact Or.inr ⟨s, hs, if_neg hup⟩

theorem lastName_ne {s : List Char} (hs : s ≠ []) : lastName [.name s] ≠ lastName [.up] := by
  intro heq
  exact hs (String.ofList_injective heq)

/-- Of two children of one directory, the shown names tell which is which. -/
theorem eq_of_shownName (hc : c.isAbsolute = true) (hd : d.isAbsolute = true) (hparent : parent ≠ [])
    (hstep : c.components = parent ++ [step]) (hother : d.components = parent ++ [other])
    (hname : shownName c = shownName d) : c.components = d.components := by
  rw [shownName_of_concat hstep, shownName_of_concat hother] at hname
  rw [hstep, hother]
  rcases last_step hc hparent hstep with rfl | ⟨s, hs, rfl⟩ <;>
    rcases last_step hd hparent hother with rfl | ⟨s', hs', rfl⟩
  · rfl
  · exact absurd hname.symm (lastName_ne hs')
  · exact absurd hname (lastName_ne hs)
  · rw [String.ofList_injective hname]

end Names

/-! ### Listings -/

/-- The entries one step below the directory. -/
def childEntries (t : Tree) (dir : Path) : List (List Component × Node) :=
  t.nodes.filter fun entry => isChildOf dir.components entry.1

def listedEntry (entry : List Component × Node) : Listed :=
  ⟨lastName entry.1, entry.2.kind⟩

theorem list_eq_ok (h : (t.node? (t.locate p)).isSome = true) :
    t.list p = .ok (Listed.sort ((t.childEntries (t.locate p)).map listedEntry)) := by
  have hfound : ¬ (t.nodes.lookup (t.locate p).components).isNone = true := by
    rw [Option.isNone_iff_eq_none, ← ne_eq, ← Option.isSome_iff_ne_none]
    exact h
  unfold list
  simp only
  rw [if_neg hfound]
  rfl

section WellKept

variable (h : WellKept t.nodes) (hdir : dir.isAbsolute = true)

include hdir in
theorem components_ne_nil : dir.components ≠ [] := by
  rw [Path.components_of_isAbsolute hdir]
  exact List.cons_ne_nil _ _

include h hdir in
/-- An entry below the directory is that of a path one step below. -/
theorem exists_of_mem_childEntries {entry : List Component × Node}
    (hentry : entry ∈ t.childEntries dir) :
    ∃ (c : Path) (step : Component), c.isAbsolute = true ∧ c.components = entry.1 ∧
      c.components = dir.components ++ [step] := by
  obtain ⟨hmem, hchild⟩ := List.mem_filter.mp hentry
  obtain ⟨c, hc, hcomponents⟩ := h.rooted entry.1 (List.mem_map_of_mem hmem)
  obtain ⟨step, hstep⟩ := (isChildOf_iff (components_ne_nil hdir)).mp hchild
  exact ⟨c, step, hc, hcomponents, hcomponents.trans hstep⟩

include h hdir in
theorem mem_childEntries_iff {child : Listed} :
    child ∈ (t.childEntries dir).map listedEntry ↔ t.HasChild dir child := by
  constructor
  · intro hchild
    obtain ⟨entry, hentry, rfl⟩ := List.mem_map.mp hchild
    obtain ⟨c, step, -, hcomponents, hstep⟩ := exists_of_mem_childEntries h hdir hentry
    have hnode : t.node? c = some entry.2 := by
      unfold node?
      rw [hcomponents]
      exact lookup_of_mem h.nodup (List.mem_of_mem_filter hentry)
    refine ⟨c, step, entry.2, hstep, hnode, ?_⟩
    rw [← lastName_components, hcomponents]
    rfl
  · rintro ⟨c, step, node, hstep, hnode, rfl⟩
    have hmem : (c.components, node) ∈ t.childEntries dir :=
      List.mem_filter.mpr ⟨mem_of_lookup hnode,
        (isChildOf_iff (components_ne_nil hdir)).mpr ⟨step, hstep⟩⟩
    refine List.mem_map.mpr ⟨(c.components, node), hmem, ?_⟩
    rw [listedEntry, lastName_components]

include h hdir in
theorem nodup_names_childEntries :
    ((t.childEntries dir).map listedEntry |>.map Listed.name).Nodup := by
  have hkeys : ((t.childEntries dir).map Prod.fst).Nodup :=
    h.nodup.sublist (List.filter_sublist.map Prod.fst)
  rw [List.map_map]
  refine List.pairwise_map.mpr ((List.pairwise_map.mp hkeys).imp_of_mem ?_)
  intro a b ha hb hne hname
  obtain ⟨c, step, hc, hcomponents, hstep⟩ := exists_of_mem_childEntries h hdir ha
  obtain ⟨d, other, hd, hcomponents', hother⟩ := exists_of_mem_childEntries h hdir hb
  have hshown : shownName c = shownName d := by
    rw [← lastName_components, ← lastName_components, hcomponents, hcomponents']
    exact hname
  have hsame := eq_of_shownName hc hd (components_ne_nil hdir) hstep hother hshown
  exact hne (hcomponents.symm.trans (hsame.trans hcomponents'))

theorem sorted_sort (l : List Listed) : (Listed.sort l).Pairwise fun a b => a.name ≤ b.name := by
  have hsorted := @List.pairwise_mergeSort Listed (fun a b => decide (a.name ≤ b.name))
    (fun a b c hab hbc => decide_eq_true (le_trans (of_decide_eq_true hab) (of_decide_eq_true hbc)))
    (fun a b => by simpa using le_total a.name b.name) l
  exact hsorted.imp of_decide_eq_true

/-- Sorting by names that differ leaves them in ascending order. -/
theorem ascending_sort (hnames : (l.map Listed.name).Nodup) :
    (Listed.sort l).Pairwise fun a b => a.name < b.name := by
  have hperm : (Listed.sort l).Perm l := List.mergeSort_perm l _
  have hdistinct : (Listed.sort l).Pairwise fun a b => a.name ≠ b.name :=
    List.pairwise_map.mp ((hperm.map Listed.name).nodup_iff.mpr hnames)
  exact (sorted_sort l).imp₂ (fun a b hle hne => lt_of_le_of_ne hle hne) hdistinct

include h hdir in
theorem lists_sort : t.Lists dir (Listed.sort ((t.childEntries dir).map listedEntry)) where
  ascending := ascending_sort (nodup_names_childEntries h hdir)
  mem_iff child := by
    have hperm := List.mergeSort_perm ((t.childEntries dir).map listedEntry)
      fun a b => a.name ≤ b.name
    exact hperm.mem_iff.trans (mem_childEntries_iff h hdir)

end WellKept

/-- A directory has one listing, which its children determine. -/
theorem Lists.eq_iff (hl : t.Lists p l) (hk : t.Lists q k) :
    l = k ↔ ∀ child, t.HasChild p child ↔ t.HasChild q child := by
  constructor
  · rintro rfl child
    rw [← hl.mem_iff, ← hk.mem_iff]
  · intro hsame
    have hirrefl : Std.Irrefl fun a b : Listed => a.name < b.name :=
      ⟨fun a => lt_irrefl a.name⟩
    have hantisymm : Std.Antisymm fun a b : Listed => a.name < b.name :=
      ⟨fun a b hab hba => absurd hba (lt_asymm hab)⟩
    apply hl.ascending.eq_of_mem_iff hk.ascending
    intro child
    rw [hl.mem_iff, hk.mem_iff, hsame]

theorem exists_listing (hroot : t.Anchored) (h : WellKept t.nodes)
    (hp : (t.node? (t.locate p)).isSome = true) :
    ∃ l, t.list p = .ok l ∧ t.Lists (t.locate p) l :=
  ⟨_, list_eq_ok hp, lists_sort h (isAbsolute_locate hroot.root p)⟩

theorem isSome_of_leads {n : ℕ} (h : t.Leads n p q) (hq : (t.node? q).isSome = true) :
    (t.node? p).isSome = true := by
  cases h with
  | here => exact hq
  | next hlink _ => rw [hlink, Option.isSome_some]

theorem eq_of_leads {n : ℕ} (h : t.Leads n (t.locate p) q) (hp : t.isLink p = false) :
    q = t.locate p := by
  cases h with
  | here => rfl
  | @next _ _ target _ hlink _ =>
    rw [isLink_iff.mpr ⟨target, hlink⟩] at hp
    cases hp

/-- A directory is listed, at the path that is asked for and at the end of the links. -/
theorem listings_of_directory (hroot : t.Anchored) (h : WellKept t.nodes)
    (hp : t.isDirectory p = true) :
    ∃ q l k, t.resolve p = .ok q ∧ t.list p = .ok l ∧ t.Lists (t.locate p) l ∧ t.list q = .ok k ∧
      t.Lists q k ∧ (t.isLink p = false → q = t.locate p) := by
  have hthere : ∃ q, t.EndsAt p q := by
    by_contra hnone
    obtain ⟨-, -, hdirectory, -⟩ := answers_of_no_end hnone
    exact Bool.false_ne_true (hdirectory.symm.trans hp)
  obtain ⟨q, hq⟩ := hthere
  have hresolve : t.resolve p = .ok q := resolve_eq_ok_iff.mpr hq
  obtain ⟨n, -, hleads, node, hnode, -⟩ := hq
  have hend : (t.node? q).isSome = true := by rw [hnode, Option.isSome_some]
  have hlocate : t.locate q = q :=
    locate_of_isAbsolute (hroot.isAbsolute_of_leads hleads (isAbsolute_locate hroot.root p))
  obtain ⟨l, hl, hlists⟩ := exists_listing hroot h (isSome_of_leads hleads hend)
  obtain ⟨k, hk, hends⟩ := exists_listing (p := q) hroot h (by rw [hlocate]; exact hend)
  rw [hlocate] at hends
  exact ⟨q, l, k, hresolve, hl, hlists, hk, hends, eq_of_leads hleads⟩

/-- What a report says about the surroundings of a path: the listing of the nearest directory. -/
theorem surroundings_of_directory (roots : OutputRoots) (marker : String)
    (hdir : (p.ancestors.drop 1).find? t.isDirectory = some dir) (hl : t.list dir = .ok l) :
    (t.finder roots marker).surroundings p =
      dir.toString ++ ": [" ++ String.intercalate ", " (ArchiveFinder.listedNames l) ++ "]" := by
  have hfind : (p.ancestors.drop 1).find? (t.finder roots marker).files.isDirectory = some dir := hdir
  have hlist : (t.finder roots marker).files.list dir = .ok l := hl
  unfold ArchiveFinder.surroundings
  rw [hfind]
  simp only [hlist]

/-- In every tree that has grown below an absolute root, a path that is a directory at the end of its
links is listed, and so is the end: each of the two listings shows what stands right below the very path
it is asked for, once and in the order of the names. They are the same if no link stands at the path, and
otherwise exactly if the same stands below the link's own path. A report on what surrounds a missing
archive shows the listing of the nearest directory, which is that of the directory at the end of the
links if no link stands there. -/
theorem directories_are_listed_unless_linked {root : Path} (hroot : root.isAbsolute = true)
    (ht : t.Grown root) :
    (∀ p, t.isDirectory p = true →
      ∃ q l k, t.resolve p = .ok q ∧ t.list p = .ok l ∧ t.list q = .ok k ∧
        t.Lists (t.locate p) l ∧ t.Lists q k ∧ (t.isLink p = false → l = k) ∧
        (l = k ↔ ∀ child, t.HasChild (t.locate p) child ↔ t.HasChild q child)) ∧
    ∀ roots marker p dir, (p.ancestors.drop 1).find? t.isDirectory = some dir →
      ∃ q l k, t.resolve dir = .ok q ∧ t.Lists (t.locate dir) l ∧ t.Lists q k ∧
        (t.finder roots marker).surroundings p =
          dir.toString ++ ": [" ++ String.intercalate ", " (ArchiveFinder.listedNames l) ++ "]" ∧
        (t.isLink dir = false → l = k) := by
  have hanchored : t.Anchored := Anchored.of_grown hroot ht
  have hkept : WellKept t.nodes := WellKept.of_grown hroot ht
  have hunlinked : ∀ {p q l k}, t.Lists (t.locate p) l → t.Lists q k →
      (t.isLink p = false → q = t.locate p) → t.isLink p = false → l = k := by
    intro p q l k hl hk hsame hlink
    rw [hsame hlink] at hk
    exact (hl.eq_iff hk).mpr fun child => Iff.rfl
  refine ⟨fun p hp => ?_, fun roots marker p dir hdir => ?_⟩
  · obtain ⟨q, l, k, hq, hl, hlists, hk, hends, hsame⟩ := listings_of_directory hanchored hkept hp
    exact ⟨q, l, k, hq, hl, hk, hlists, hends, hunlinked hlists hends hsame, hlists.eq_iff hends⟩
  · obtain ⟨q, l, k, hq, hl, hlists, -, hends, hsame⟩ :=
      listings_of_directory hanchored hkept (List.find?_some hdir)
    exact ⟨q, l, k, hq, hlists, hends, surroundings_of_directory roots marker hdir hl,
      hunlinked hlists hends hsame⟩

/-- A directory with an archive in it, and a link to the directory. -/
def linkedDirectory : Tree :=
  ((Tree.empty (.ofString "/mock")).addFile (.ofString "real/a.jar") "PK").addLink
    (.ofString "link") (.ofString "real")

theorem grown_linkedDirectory : linkedDirectory.Grown (.ofString "/mock") :=
  (Grown.empty.addFile _ _).addLink _ _

theorem directories_are_listed_unless_linked_of_real :
    let real : Path := .ofString "/mock/real"
    let finder := linkedDirectory.finder ⟨.ofString "/mock", .ofString "/mock"⟩ "external"
    (Path.ofString "/mock").isAbsolute = true ∧ linkedDirectory.Grown (.ofString "/mock") ∧
      linkedDirectory.isDirectory real = true ∧ linkedDirectory.isLink real = false ∧
      (∃ q l, linkedDirectory.resolve real = .ok q ∧ linkedDirectory.list real = .ok l ∧
        linkedDirectory.list q = .ok l ∧ linkedDirectory.Lists q l) ∧
      ∃ q l, linkedDirectory.resolve real = .ok q ∧ linkedDirectory.Lists q l ∧
        finder.surroundings (.ofString "/mock/real/b.jar") =
          "/mock/real: [" ++ String.intercalate ", " (ArchiveFinder.listedNames l) ++ "]" := by
  intro real finder
  have hroot : (Path.ofString "/mock").isAbsolute = true := by decide +kernel
  have hdirectory : linkedDirectory.isDirectory real = true := by decide +kernel
  have hlink : linkedDirectory.isLink real = false := by decide +kernel
  obtain ⟨hlisted, hreported⟩ := directories_are_listed_unless_linked hroot grown_linkedDirectory
  obtain ⟨q, l, k, hq, hl, hk, -, hends, hsame, -⟩ := hlisted real hdirectory
  obtain rfl : l = k := hsame hlink
  have hnearest : ((Path.ofString "/mock/real/b.jar").ancestors.drop 1).find?
      linkedDirectory.isDirectory = some real := by decide +kernel
  obtain ⟨q', l', k', hq', -, hends', hshown, hsame'⟩ := hreported
    ⟨.ofString "/mock", .ofString "/mock"⟩ "external" _ real hnearest
  obtain rfl : l' = k' := hsame' hlink
  exact ⟨hroot, grown_linkedDirectory, hdirectory, hlink, ⟨q, l, hq, hl, hk, hends⟩, q', l', hq',
    hends', hshown⟩

/-- A directory that is reached through a link is listed as if it were empty, and so it is in a report
on a missing archive. -/
theorem linked_directory_is_listed_empty :
    (Path.ofString "/mock").isAbsolute = true ∧ linkedDirectory.Grown (.ofString "/mock") ∧
      linkedDirectory.isDirectory (.ofString "/mock/link") = true ∧
      linkedDirectory.resolve (.ofString "/mock/link") = .ok (.ofString "/mock/real") ∧
      linkedDirectory.list (.ofString "/mock/link") = .ok [] ∧
      linkedDirectory.list (.ofString "/mock/real") = .ok [⟨"a.jar", .file⟩] ∧
      (linkedDirectory.finder ⟨.ofString "/mock", .ofString "/mock"⟩ "external").surroundings
        (.ofString "/mock/link/b.jar") = "/mock/link: []" := by
  exact ⟨by decide +kernel, grown_linkedDirectory, by decide +kernel, by decide +kernel,
    by decide +kernel, by decide +kernel, by decide +kernel⟩

end Buildpath.Tree
