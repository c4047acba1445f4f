import Buildpath.Proofs.Path.Spelling
import Buildpath.Workspace.Manifest

/-!
# Joined and resolved paths

The names of a path are the proper segments of its text (`names_eq`), so joining a relative path to a
base puts its names after those of the base (`names_join`). A relative path seen from a base is these
names, written with single slashes (`under_of_relative`); seen from an absolute base it is the same
path as the joined one (`same_under`). Nothing of this goes up: a `..` stays a name of the path, and
what it would come to is a path of its own (`climbed`).
-/

namespace Buildpath.Path

variable {base base' p q : Path} {l : List (List Char)}

/-! ### Names -/

/-- The slash in front of an absolute path begins no name. -/
theorem names_eq (p : Path) : p.names = (segments p.chars).filter isProper := by
  unfold names body
  split
  · rename_i hp
    obtain ⟨cs, hcs⟩ := exists_slash_cons hp
    rw [hcs]
    exact (congrArg (List.filter isProper) (segments_append_slash [] cs)).symm
  · rfl

theorem withSlash_concat (front : List Char) (c : Char) :
    withSlash (front ++ [c]) = if c = '/' then front ++ [c] else front ++ [c] ++ ['/'] := by
  simp [withSlash]

theorem mem_withSlash {c : Char} {cs : List Char} (h : c ∈ withSlash cs) : c = '/' ∨ c ∈ cs := by
  rcases List.eq_nil_or_concat' cs with rfl | ⟨front, last, rfl⟩
  · exact Or.inr h
  · rw [withSlash_concat] at h
    by_cases hlast : last = '/'
    · rw [if_pos hlast] at h
      exact Or.inr h
    · rw [if_neg hlast] at h
      rcases List.mem_append.mp h with hold | hslash
      · exact Or.inr hold
      · exact Or.inl (List.mem_singleton.mp hslash)

theorem filter_segments_withSlash (cs ds : List Char) :
    (segments (withSlash cs ++ ds)).filter isProper =
      (segments cs).filter isProper ++ (segments ds).filter isProper := by
  rcases List.eq_nil_or_concat cs with rfl | ⟨front, c, rfl⟩
  · rfl
  · rw [List.concat_eq_append, withSlash_concat]
    by_cases hc : c = '/'
    · have hend : (segments (front ++ [c])).filter isProper = (segments front).filter isProper := by
        rw [hc, segments_append_slash, List.filter_append]
        exact List.append_nil _
      rw [hend, if_pos hc, hc, List.append_assoc, List.singleton_append, segments_append_slash,
        List.filter_append]
    · rw [if_neg hc, List.append_assoc, List.singleton_append, segments_append_slash,
        List.filter_append]

/-- The names of a relative path come after those of its base. -/
theorem names_join (base : Path) (hp : p.isAbsolute = false) :
    (base.join p).names = base.names ++ p.names := by
  rw [join_of_relative base hp, names_eq, names_eq base, names_eq p]
  exact filter_segments_withSlash base.chars p.chars

/-! ### Paths that are the same -/

theorem same_of_names (hp : p.isAbsolute = true) (hq : q.isAbsolute = true)
    (h : p.names = q.names) : Same p q := by
  rw [Same, components_of_isAbsolute hp, components_of_isAbsolute hq, h]

theorem contains_iff_names (hp : p.isAbsolute = true) (hq : q.isAbsolute = true) :
    p.Contains q ↔ p.names <+: q.names := by
  have hinjective : Function.Injective componentOf := fun s t => componentOf_injective
  rw [Contains, components_of_isAbsolute hp, components_of_isAbsolute hq, List.cons_prefix_cons,
    List.prefix_map_iff_of_injective hinjective]
  exact and_iff_right rfl

/-- What a path comes to does not depend on how its base is written. -/
theorem Same.join (h : Same base base') (hbase : base.isAbsolute = true) (p : Path) :
    Same (base.join p) (base'.join p) := by
  cases hp : p.isAbsolute with
  | true =>
    rw [join_of_isAbsolute base hp, join_of_isAbsolute base' hp]
    exact Same.refl p
  | false =>
    refine same_of_names ?_ ?_ ?_
    · rw [isAbsolute_join base hp, hbase]
    · rw [isAbsolute_join base' hp, h.isAbsolute hbase]
    · rw [names_join base hp, names_join base' hp, h.names_eq hbase]

/-! ### Writing names -/

/-- The names, with single slashes between them and in front of them if the path is absolute. -/
def ofNames (absolute : Bool) (names : List (List Char)) : Path :=
  ⟨(if absolute then ['/'] else []) ++ joinSegments names⟩

/-- The segments are names: neither empty nor a single dot, and cut at no slash. -/
def AreNames (l : List (List Char)) : Prop :=
  ∀ s ∈ l, isProper s = true ∧ '/' ∉ s

theorem areNames_names (p : Path) : AreNames p.names := fun s hs =>
  ⟨(spells_gaps p).proper s hs, (spells_gaps p).whole s hs⟩

theorem areNames_append (p q : Path) : AreNames (p.names ++ q.names) := fun s hs =>
  (List.mem_append.mp hs).elim (areNames_names p s) (areNames_names q s)

namespace AreNames

theorem filter_segments (h : AreNames l) : (segments (joinSegments l)).filter isProper = l := by
  by_cases hne : l = []
  · rw [hne]
    rfl
  · rw [segments_joinSegments hne fun s hs => (h s hs).2]
    exact List.filter_eq_self.mpr fun s hs => (h s hs).1

theorem head?_joinSegments_ne (h : AreNames l) : (joinSegments l).head? ≠ some '/' := by
  cases l with
  | nil => simp [joinSegments]
  | cons s rest =>
    obtain ⟨hproper, hwhole⟩ := h s List.mem_cons_self
    obtain ⟨c, cs, hs⟩ : ∃ c cs, s = c :: cs :=
      List.exists_cons_of_ne_nil fun hs => by rw [hs] at hproper; cases hproper
    have hc : c ≠ '/' := fun hc => hwhole (hs ▸ hc ▸ List.mem_cons_self)
    cases rest <;> simpa [joinSegments, hs] using hc

theorem isAbsolute_ofNames (h : AreNames l) (absolute : Bool) :
    (ofNames absolute l).isAbsolute = absolute := by
  cases absolute with
  | true => rfl
  | false => simpa [ofNames, isAbsolute] using h.head?_joinSegments_ne

theorem names_ofNames (h : AreNames l) (absolute : Bool) : (ofNames absolute l).names = l := by
  rw [names_eq]
  cases absolute with
  | true =>
    have hcut := segments_append_slash [] (joinSegments l)
    exact (congrArg (List.filter isProper) hcut).trans h.filter_segments
  | false => exact h.filter_segments

theorem dot_not_mem_segments (h : AreNames l) (absolute : Bool) :
    ['.'] ∉ segments (ofNames absolute l).chars := by
  have hjoined : ['.'] ∉ segments (joinSegments l) := by
    by_cases hne : l = []
    · rw [hne]
      decide
    · rw [segments_joinSegments hne fun s hs => (h s hs).2]
      exact fun hdot => Bool.false_ne_true (h _ hdot).1
  cases absolute with
  | true =>
    have hcut := segments_append_slash [] (joinSegments l)
    intro hdot
    change ['.'] ∈ segments ([] ++ '/' :: joinSegments l) at hdot
    rw [hcut] at hdot
    rcases List.mem_append.mp hdot with hdot | hdot
    · exact absurd hdot (by decide)
    · exact hjoined hdot
  | false => exact hjoined

theorem components_ofNames (h : AreNames l) (absolute : Bool) :
    (ofNames absolute l).components =
      (if absolute then [.root] else []) ++ l.map componentOf := by
  have hstart : (ofNames absolute l).startsHere = false := by
    rw [startsHere, beq_eq_false_iff_ne]
    exact fun hhead => h.dot_not_mem_segments absolute (List.mem_of_head? hhead)
  have hanchor : (ofNames absolute l).anchor = if absolute then [.root] else [] := by
    simp [anchor, h.isAbsolute_ofNames, hstart]
  have hnames := h.names_ofNames absolute
  rw [names] at hnames
  rw [components, hanchor, hnames]

end AreNames

/-! ### Building up -/

theorem text_componentOf (s : List Char) : (componentOf s).text = s := by
  unfold componentOf
  split
  · rename_i hs
    exact hs.symm
  · rfl

theorem AreNames.exists_joinSegments (h : AreNames l) (hne : l ≠ []) :
    ∃ text c, joinSegments l = text ++ [c] ∧ c ≠ '/' := by
  obtain ⟨front, s, rfl⟩ := List.eq_nil_or_concat' l |>.resolve_left hne
  obtain ⟨hproper, hwhole⟩ := h s (List.mem_append_right front (List.mem_singleton.mpr rfl))
  obtain ⟨text, htext⟩ := exists_joinSegments_concat front s
  rcases List.eq_nil_or_concat' s with rfl | ⟨t, c, rfl⟩
  · cases hproper
  · refine ⟨text ++ t, c, by rw [htext, List.append_assoc], ?_⟩
    rintro rfl
    exact hwhole (List.mem_append_right t (List.mem_singleton.mpr rfl))

/-- Names that are joined one after the other are written with single slashes. -/
theorem AreNames.foldl_join (h : AreNames l) {front : List Char} (hfront : withSlash front = front) :
    (l.map componentOf).foldl (fun p c => join p ⟨c.text⟩) ⟨front⟩ = ⟨front ++ joinSegments l⟩ := by
  induction l using List.reverseRecOn with
  | nil => simp [joinSegments]
  | append_singleton l s ih =>
    have hl : AreNames l := fun t ht => h t (List.mem_append_left [s] ht)
    have hs : AreNames [s] := fun t ht => h t (List.mem_append_right l ht)
    have hone : joinSegments [s] = s := rfl
    have hrelative : (Path.mk s).isAbsolute = false := hs.isAbsolute_ofNames false
    rw [List.map_append, List.foldl_append, ih hl, List.map_singleton, List.foldl_cons,
      List.foldl_nil, text_componentOf, join_of_relative _ hrelative]
    by_cases hne : l = []
    · rw [hne, List.nil_append, hone, joinSegments, List.append_nil, hfront]
    · obtain ⟨text, c, hend, hc⟩ := hl.exists_joinSegments hne
      rw [joinSegments_append hne (List.cons_ne_nil s []), hone, hend, ← List.append_assoc,
        withSlash_concat, if_neg hc]
      simp

theorem ofComponents_of_names (h : AreNames l) (absolute : Bool) :
    ofComponents ((if absolute then [.root] else []) ++ l.map componentOf) = ofNames absolute l := by
  cases absolute with
  | true => exact h.foldl_join rfl
  | false => exact h.foldl_join rfl

/-- Without the dot that a relative path may begin with, only its names are left of it. -/
theorem components_without_dot (p : Path) :
    p.components.filter (· ≠ .current) =
      (if p.isAbsolute then [.root] else []) ++ p.names.map componentOf := by
  have hnames : (p.names.map componentOf).filter (· ≠ .current) = p.names.map componentOf := by
    refine List.filter_eq_self.mpr fun c hc => ?_
    obtain ⟨s, -, rfl⟩ := List.mem_map.mp hc
    unfold componentOf
    split <;> rfl
  have hanchor : p.anchor.filter (· ≠ .current) = if p.isAbsolute then [.root] else [] := by
    unfold anchor
    split
    · rfl
    · split <;> rfl
  rw [components, List.filter_append, hanchor]
  exact congrArg _ hnames

/-- A relative path seen from a base is the names of both. -/
theorem under_of_relative (base : Path) (hp : p.isAbsolute = false) :
    base.under p = ofNames base.isAbsolute (base.names ++ p.names) := by
  rw [under, hp, if_neg Bool.false_ne_true, components_without_dot, isAbsolute_join base hp,
    names_join base hp, ofComponents_of_names (areNames_append base p)]

theorem under_of_isAbsolute (base : Path) (hp : p.isAbsolute = true) : base.under p = p := by
  rw [under, if_pos hp]

theorem isAbsolute_under (hbase : base.isAbsolute = true) (p : Path) :
    (base.under p).isAbsolute = true := by
  cases hp : p.isAbsolute with
  | true => rw [under_of_isAbsolute base hp, hp]
  | false =>
    rw [under_of_relative base hp, (areNames_append base p).isAbsolute_ofNames, hbase]

/-- Seen from an absolute base a path is the joined one. -/
theorem same_under (hbase : base.isAbsolute = true) (p : Path) :
    Same (base.under p) (base.join p) := by
  cases hp : p.isAbsolute with
  | true =>
    rw [under_of_isAbsolute base hp, join_of_isAbsolute base hp]
    exact Same.refl p
  | false =>
    refine same_of_names (isAbsolute_under hbase p) ?_ ?_
    · rw [isAbsolute_join base hp, hbase]
    · rw [under_of_relative base hp, names_join base hp, (areNames_append base p).names_ofNames]

/-! ### Going up -/

/-- What is left of the names when every `..` takes away the name before it, or nothing at the top.
The names before are kept in `above`, the nearest first. -/
def climb (above : List (List Char)) : List (List Char) → List (List Char)
  | [] => above.reverse
  | s :: rest => if s = ['.', '.'] then climb above.tail rest else climb (s :: above) rest

/-- The absolute path that is left when every `..` is carried out on the names. -/
def climbed (p : Path) : Path :=
  ofNames true (climb [] p.names)

theorem climb_of_not_mem (h : ['.', '.'] ∉ l) (above : List (List Char)) :
    climb above l = above.reverse ++ l := by
  induction l generalizing above with
  | nil => exact (List.append_nil _).symm
  | cons s rest ih =>
    rw [List.mem_cons, not_or] at h
    rw [climb, if_neg (Ne.symm h.1), ih h.2, List.reverse_cons, List.append_assoc,
      List.singleton_append]

/-- Where nothing goes up nothing is carried out. -/
theorem same_climbed (hp : p.isAbsolute = true) (h : ['.', '.'] ∉ p.names) : Same p.climbed p := by
  have hclimb : climb [] p.names = p.names := climb_of_not_mem h []
  refine same_of_names ?_ hp ?_
  · rw [climbed, hclimb, (areNames_names p).isAbsolute_ofNames]
  · rw [climbed, hclimb, (areNames_names p).names_ofNames]

end Buildpath.Path
