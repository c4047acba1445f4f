import Buildpath.Path.Parts
import Buildpath.Proofs.Text.Cutting

/-!
# How a path is written

An absolute path is written as its names, each after a gap: the segments that are empty or a single
dot. The names are what the path means, the gaps are its spelling (`gaps`). What is left of a path
below a base is written with the names below the base and the gaps between these; the rest of the
spelling, be it within the base, right below it or at the end, is lost (`below?_of_contains`). So two
paths of the same components leave the same text below a base exactly if the gaps between the names
below it are the same (`below?_eq_iff`).
-/

namespace Buildpath.Path

/-! ### Segments -/

theorem not_mem_of_mem_segments {cs segment : List Char} (h : segment ∈ segments cs) :
    '/' ∉ segment :=
  Text.not_mem_of_mem_splitOn h

theorem segments_append_slash (cs ds : List Char) :
    segments (cs ++ '/' :: ds) = segments cs ++ segments ds :=
  Text.splitOn_append_splitOn cs ds

theorem segments_append {segment : List Char} (h : '/' ∉ segment) (cs : List Char) :
    segments (segment ++ '/' :: cs) = segment :: segments cs :=
  Text.splitOn_append h cs

theorem segments_of_not_mem {segment : List Char} (h : '/' ∉ segment) :
    segments segment = [segment] :=
  Text.splitOn_of_not_mem h

theorem joinSegments_cons {segment : List Char} {l : List (List Char)} (h : l ≠ []) :
    joinSegments (segment :: l) = segment ++ '/' :: joinSegments l := by
  cases l with
  | nil => exact absurd rfl h
  | cons s rest => rfl

/-- Cutting at the slashes undoes joining. -/
theorem segments_joinSegments {l : List (List Char)} (hne : l ≠ []) (h : ∀ s ∈ l, '/' ∉ s) :
    segments (joinSegments l) = l := by
  induction l with
  | nil => exact absurd rfl hne
  | cons s rest ih =>
    obtain ⟨hs, hrest⟩ := List.forall_mem_cons.mp h
    by_cases hr : rest = []
    · rw [hr]
      exact segments_of_not_mem hs
    · rw [joinSegments_cons hr, segments_append hs, ih hr hrest]

theorem joinSegments_append {l k : List (List Char)} (hl : l ≠ []) (hk : k ≠ []) :
    joinSegments (l ++ k) = joinSegments l ++ '/' :: joinSegments k := by
  induction l with
  | nil => exact absurd rfl hl
  | cons s rest ih =>
    by_cases hr : rest = []
    · rw [hr, List.singleton_append, joinSegments_cons hk]
      rfl
    · rw [List.cons_append, joinSegments_cons (List.append_ne_nil_of_left_ne_nil hr k),
        joinSegments_cons hr, ih hr, List.append_assoc, List.cons_append]

theorem segments_joinSegments_append {l : List (List Char)} (hne : l ≠ []) (h : ∀ s ∈ l, '/' ∉ s)
    (cs : List Char) : segments (joinSegments l ++ '/' :: cs) = l ++ segments cs := by
  rw [segments_append_slash, segments_joinSegments hne h]

/-- A text goes on after a slash exactly if there are more segments. -/
theorem joinSegments_prefix_iff {l k : List (List Char)} (hne : l ≠ []) (hl : ∀ s ∈ l, '/' ∉ s)
    (hk : ∀ s ∈ k, '/' ∉ s) : joinSegments l ++ ['/'] <+: joinSegments k ↔ l <+: k ∧ l ≠ k := by
  constructor
  · rintro ⟨rest, hrest⟩
    rw [List.append_assoc, List.singleton_append] at hrest
    have hkne : k ≠ [] := by
      rintro rfl
      simp [joinSegments] at hrest
    have hcut : k = l ++ segments rest := by
      rw [← segments_joinSegments_append hne hl, hrest, segments_joinSegments hkne hk]
    refine ⟨⟨segments rest, hcut.symm⟩, fun heq => Text.splitOn_ne_nil '/' rest ?_⟩
    exact List.self_eq_append_right.mp (heq.trans hcut)
  · rintro ⟨⟨rest, rfl⟩, hmore⟩
    have hrest : rest ≠ [] := by
      rintro rfl
      exact hmore (List.append_nil l).symm
    refine ⟨joinSegments rest, ?_⟩
    rw [joinSegments_append hne hrest, List.append_assoc, List.singleton_append]

theorem exists_joinSegments_concat (l : List (List Char)) (s : List Char) :
    ∃ front, joinSegments (l ++ [s]) = front ++ s := by
  induction l with
  | nil => exact ⟨[], rfl⟩
  | cons t rest ih =>
    obtain ⟨front, hfront⟩ := ih
    refine ⟨t ++ '/' :: front, ?_⟩
    rw [List.cons_append, joinSegments_cons (by simp), hfront]
    simp

theorem isProper_eq_false_iff {s : List Char} : isProper s = false ↔ s = [] ∨ s = ['.'] := by
  by_cases h : s = [] <;> simp [isProper, h]

/-! ### Gaps -/

/-- The gaps before the proper segments of a list that comes after the `pending` ones. -/
def gapsAfter (pending : List (List Char)) : List (List Char) → List (List (List Char))
  | [] => []
  | s :: rest => if isProper s then pending :: gapsAfter [] rest else gapsAfter (pending ++ [s]) rest

/-- The proper segments, each after its gap. -/
def fill : List (List (List Char)) → List (List Char) → List (List Char)
  | gap :: gaps, name :: names => gap ++ name :: fill gaps names
  | _, _ => []

/-- What is written between the names of the path: the `i`-th gap stands before the `i`-th name. -/
def gaps (p : Path) : List (List (List Char)) :=
  gapsAfter [] p.body

/-- The segments of the path that count. -/
def names (p : Path) : List (List Char) :=
  p.body.filter isProper

/-- There is one gap of idle segments for each of the names, which are segments of a path. -/
structure Spells (gaps : List (List (List Char))) (names : List (List Char)) : Prop where
  length : gaps.length = names.length
  idle : ∀ gap ∈ gaps, ∀ s ∈ gap, isProper s = false
  proper : ∀ name ∈ names, isProper name = true
  whole : ∀ name ∈ names, '/' ∉ name

theorem length_gapsAfter (pending l : List (List Char)) :
    (gapsAfter pending l).length = (l.filter isProper).length := by
  induction l generalizing pending with
  | nil => rfl
  | cons s rest ih =>
    unfold gapsAfter
    cases hs : isProper s <;> simp [hs, ih]

theorem idle_of_mem_gapsAfter {pending : List (List Char)} (h : ∀ s ∈ pending, isProper s = false)
    (l : List (List Char)) : ∀ gap ∈ gapsAfter pending l, ∀ s ∈ gap, isProper s = false := by
  induction l generalizing pending with
  | nil => exact fun gap hg => absurd hg List.not_mem_nil
  | cons s rest ih =>
    unfold gapsAfter
    cases hs : isProper s with
    | true =>
      intro gap hg
      rcases List.mem_cons.mp hg with rfl | hg
      · exact h
      · exact ih (fun s hs => absurd hs List.not_mem_nil) gap hg
    | false =>
      refine ih fun t ht => ?_
      rcases List.mem_append.mp ht with ht | ht
      · exact h t ht
      · rw [List.mem_singleton.mp ht]
        exact hs

theorem spells_gaps (p : Path) : Spells p.gaps p.names where
  length := length_gapsAfter [] p.body
  idle := idle_of_mem_gapsAfter (fun _ hs => absurd hs List.not_mem_nil) p.body
  proper _ hn := (List.mem_filter.mp hn).2
  whole _ hn := not_mem_of_mem_segments (List.mem_filter.mp hn).1

namespace Spells

variable {G H : List (List (List Char))} {N : List (List Char)}

theorem drop (h : Spells G N) (n : ℕ) : Spells (G.drop n) (N.drop n) where
  length := by rw [List.length_drop, List.length_drop, h.length]
  idle gap hg := h.idle gap (List.mem_of_mem_drop hg)
  proper name hn := h.proper name (List.mem_of_mem_drop hn)
  whole name hn := h.whole name (List.mem_of_mem_drop hn)

/-- The first gap may be closed. -/
theorem close (h : Spells G N) : Spells (G.modifyHead fun _ => []) N where
  length := by rw [List.length_modifyHead, h.length]
  idle := by
    cases G with
    | nil => exact h.idle
    | cons gap rest =>
      intro g hg
      rcases List.mem_cons.mp hg with rfl | hg
      · exact fun s hs => absurd hs List.not_mem_nil
      · exact h.idle g (List.mem_cons_of_mem gap hg)
  proper := h.proper
  whole := h.whole

theorem gapsAfter_fill (h : Spells G N) : gapsAfter [] (fill G N) = G := by
  -- A gap is read segment by segment: those behind it are pending.
  have hpending : ∀ (gap pending l : List (List Char)), (∀ s ∈ gap, isProper s = false) →
      gapsAfter pending (gap ++ l) = gapsAfter (pending ++ gap) l := by
    intro gap
    induction gap with
    | nil => intro pending l _; simp
    | cons s rest ih =>
      intro pending l hidle
      obtain ⟨hs, hrest⟩ := List.forall_mem_cons.mp hidle
      rw [List.cons_append, gapsAfter, hs, if_neg Bool.false_ne_true, ih _ _ hrest]
      simp
  induction G generalizing N with
  | nil => simp [fill, gapsAfter]
  | cons gap rest ih =>
    cases N with
    | nil => cases h.length
    | cons name names =>
      have hname := h.proper name List.mem_cons_self
      have hrest := ih (h.drop 1)
      rw [fill, hpending gap [] _ (h.idle gap List.mem_cons_self), gapsAfter, if_pos hname,
        List.nil_append]
      exact congrArg (gap :: ·) hrest

theorem not_mem_fill (h : Spells G N) : ∀ s ∈ fill G N, '/' ∉ s := by
  induction G generalizing N with
  | nil => exact fun s hs => absurd hs List.not_mem_nil
  | cons gap rest ih =>
    cases N with
    | nil => cases h.length
    | cons name names =>
      intro s hs
      rcases List.mem_append.mp hs with hs | hs
      · rcases isProper_eq_false_iff.mp (h.idle gap List.mem_cons_self s hs) with rfl | rfl
        · exact List.not_mem_nil
        · decide
      · rcases List.mem_cons.mp hs with rfl | hs
        · exact h.whole s List.mem_cons_self
        · exact ih (h.drop 1) s hs

/-- What is written ends with a name. -/
theorem exists_fill_eq_concat (h : Spells G N) (hne : N ≠ []) :
    ∃ front last, fill G N = front ++ [last] ∧ last ∈ N := by
  induction G generalizing N with
  | nil => exact absurd (List.length_eq_zero_iff.mp h.length.symm) hne
  | cons gap rest ih =>
    cases N with
    | nil => exact absurd rfl hne
    | cons name names =>
      by_cases hn : names = []
      · refine ⟨gap, name, ?_, List.mem_cons_self⟩
        rw [hn, fill]
        cases rest <;> rfl
      · obtain ⟨front, last, hfill, hlast⟩ := ih (h.drop 1) hn
        refine ⟨gap ++ name :: front, last, ?_, List.mem_cons_of_mem name hlast⟩
        have hrest : fill rest names = front ++ [last] := hfill
        rw [fill, hrest]
        simp

theorem fill_ne_nil (h : Spells G N) (hne : N ≠ []) : fill G N ≠ [] := by
  obtain ⟨front, last, hfill, -⟩ := h.exists_fill_eq_concat hne
  rw [hfill]
  simp

/-- The text of a spelling tells its gaps. -/
theorem joinSegments_fill_eq_iff (hG : Spells G N) (hH : Spells H N) :
    joinSegments (fill G N) = joinSegments (fill H N) ↔ G = H := by
  constructor
  · intro h
    by_cases hne : N = []
    · have hG0 : G = [] := List.length_eq_zero_iff.mp (by rw [hG.length, hne]; rfl)
      have hH0 : H = [] := List.length_eq_zero_iff.mp (by rw [hH.length, hne]; rfl)
      rw [hG0, hH0]
    · have hsegments := congrArg segments h
      rw [segments_joinSegments (hG.fill_ne_nil hne) hG.not_mem_fill,
        segments_joinSegments (hH.fill_ne_nil hne) hH.not_mem_fill] at hsegments
      rw [← hG.gapsAfter_fill, ← hH.gapsAfter_fill, hsegments]
  · rintro rfl
    rfl

theorem getLast?_joinSegments_fill (h : Spells G N) (hne : N ≠ []) (front : List Char) :
    (front ++ joinSegments (fill G N)).getLast? ≠ some '/' := by
  obtain ⟨l, last, hfill, hlast⟩ := h.exists_fill_eq_concat hne
  obtain ⟨text, htext⟩ := exists_joinSegments_concat l last
  have hlast0 : last ≠ [] := by
    rintro rfl
    cases h.proper [] hlast
  rw [hfill, htext, ← List.append_assoc, List.getLast?_append_of_ne_nil _ hlast0]
  intro hend
  exact h.whole last hlast (List.mem_of_getLast? hend)

end Spells

/-! ### Cutting -/

theorem dropIdleEnd_concat (l : List (List Char)) {s : List Char} (h : isProper s = true)
    (rest : List (List Char)) : dropIdleEnd (l ++ s :: rest) = l ++ s :: dropIdleEnd rest := by
  unfold dropIdleEnd dropIdle
  rw [List.reverse_append, List.reverse_cons, List.append_assoc, List.dropWhile_append]
  split
  · rename_i hnone
    simp [List.isEmpty_iff.mp hnone, h]
  · simp

/-- Without what is idle at the end every segment is a name or in the gap before one. -/
theorem dropIdleEnd_append_eq_fill {pending : List (List Char)}
    (h : ∀ s ∈ pending, isProper s = false) (l : List (List Char)) :
    dropIdleEnd (pending ++ l) = fill (gapsAfter pending l) (l.filter isProper) := by
  induction l generalizing pending with
  | nil =>
    have hnothing : dropIdle pending.reverse = [] :=
      List.dropWhile_eq_nil_iff.mpr fun s hs => by simp [h s (List.mem_reverse.mp hs)]
    rw [List.append_nil, dropIdleEnd, hnothing]
    rfl
  | cons s rest ih =>
    unfold gapsAfter
    cases hs : isProper s with
    | true =>
      have hrest := @ih [] fun s hs => absurd hs List.not_mem_nil
      rw [dropIdleEnd_concat _ hs, List.filter_cons_of_pos hs, if_pos rfl, fill]
      rw [List.nil_append] at hrest
      rw [hrest]
    | false =>
      have hpending : ∀ t ∈ pending ++ [s], isProper t = false := by
        intro t ht
        rcases List.mem_append.mp ht with ht | ht
        · exact h t ht
        · rw [List.mem_singleton.mp ht]
          exact hs
      rw [List.append_cons, ih hpending, List.filter_cons_of_neg (by simp [hs]),
        if_neg Bool.false_ne_true]

theorem dropIdleEnd_eq_fill (l : List (List Char)) :
    dropIdleEnd l = fill (gapsAfter [] l) (l.filter isProper) :=
  dropIdleEnd_append_eq_fill (fun _ hs => absurd hs List.not_mem_nil) l

theorem gapsAfter_dropIdle (pending l : List (List Char)) :
    gapsAfter [] (dropIdle l) = (gapsAfter pending l).modifyHead fun _ => [] := by
  induction l generalizing pending with
  | nil => rfl
  | cons s rest ih =>
    cases hs : isProper s with
    | true => simp [dropIdle, gapsAfter, hs]
    | false =>
      rw [gapsAfter, hs, if_neg Bool.false_ne_true, ← ih]
      simp [dropIdle, hs]

theorem filter_dropIdle (l : List (List Char)) :
    (dropIdle l).filter isProper = l.filter isProper := by
  induction l with
  | nil => rfl
  | cons s rest ih =>
    cases hs : isProper s with
    | true => simp [dropIdle, hs]
    | false =>
      rw [List.filter_cons_of_neg (by simp [hs]), ← ih]
      simp [dropIdle, hs]

theorem gapsAfter_dropProper (n : ℕ) (l : List (List Char)) :
    gapsAfter [] (dropProper n l) = (gapsAfter [] l).drop n ∧
      (dropProper n l).filter isProper = (l.filter isProper).drop n := by
  -- What is pending does not matter once a proper segment has been taken off.
  have hany : ∀ (l pending : List (List Char)) (n : ℕ),
      gapsAfter [] (dropProper (n + 1) l) = (gapsAfter pending l).drop (n + 1) ∧
        (dropProper (n + 1) l).filter isProper = (l.filter isProper).drop (n + 1) := by
    intro l
    induction l with
    | nil => exact fun _ _ => ⟨rfl, rfl⟩
    | cons s rest ih =>
      intro pending n
      cases hs : isProper s with
      | false =>
        rw [List.filter_cons_of_neg (by simp [hs]), dropProper, gapsAfter, hs,
          if_neg Bool.false_ne_true, if_neg Bool.false_ne_true]
        exact ih (pending ++ [s]) n
      | true =>
        rw [List.filter_cons_of_pos hs, dropProper, gapsAfter, hs, if_pos rfl, if_pos rfl,
          List.drop_succ_cons, List.drop_succ_cons]
        cases n with
        | zero => exact ⟨by rw [dropProper, List.drop_zero], by rw [dropProper, List.drop_zero]⟩
        | succ n => exact ih [] n
  cases n with
  | zero => exact ⟨by rw [dropProper, List.drop_zero], by rw [dropProper, List.drop_zero]⟩
  | succ n => exact hany l [] n

/-! ### Components -/

theorem componentOf_injective {s t : List Char} (h : componentOf s = componentOf t) : s = t := by
  unfold componentOf at h
  split at h <;> split at h <;> simp_all

theorem componentOf_ne_root (s : List Char) : componentOf s ≠ .root := by
  unfold componentOf
  split <;> simp

variable {base p q : Path}

theorem exists_slash_cons (h : p.isAbsolute = true) : ∃ cs, p.chars = '/' :: cs :=
  ⟨p.chars.tail, List.eq_cons_of_mem_head? (beq_iff_eq.mp h)⟩

theorem startsHere_of_isAbsolute (h : p.isAbsolute = true) : p.startsHere = false := by
  obtain ⟨cs, hcs⟩ := exists_slash_cons h
  rw [startsHere, hcs, segments, Text.splitOn, if_pos rfl]
  rfl

theorem components_of_isAbsolute (h : p.isAbsolute = true) :
    p.components = .root :: p.names.map componentOf := by
  simp [components, anchor, names, h]

theorem isAbsolute_iff : p.isAbsolute = true ↔ p.components.head? = some .root := by
  constructor
  · intro h
    rw [components_of_isAbsolute h]
    rfl
  · intro h
    by_contra hrel
    have hnames : .root ∉ (p.body.filter isProper).map componentOf := by
      rw [List.mem_map]
      rintro ⟨s, -, hs⟩
      exact componentOf_ne_root s hs
    have hmem := List.mem_of_head? h
    simp only [components, anchor, hrel, List.mem_append, hnames, or_false] at hmem
    split at hmem <;> simp_all

theorem Same.isAbsolute (h : Same p q) (hp : p.isAbsolute = true) : q.isAbsolute = true := by
  rw [isAbsolute_iff] at hp ⊢
  rwa [← h]

theorem Same.names_eq (h : Same p q) (hp : p.isAbsolute = true) : p.names = q.names := by
  have hcomponents : p.components = q.components := h
  rw [components_of_isAbsolute hp, components_of_isAbsolute (h.isAbsolute hp)] at hcomponents
  exact List.map_injective_iff.mpr (fun s t => componentOf_injective) (List.cons.inj hcomponents).2

/-! ### Below a base -/

/-- The base stands at the front of the path. -/
def Contains (base p : Path) : Prop :=
  base.components <+: p.components

instance (base p : Path) : Decidable (Contains base p) :=
  inferInstanceAs (Decidable (base.components <+: p.components))

theorem isSome_below?_iff : (base.below? p).isSome = true ↔ base.Contains p := by
  unfold below? Contains
  rw [← List.isPrefixOf_iff_prefix]
  split
  · rename_i h
    split <;> simp [h]
  · rename_i h
    simp [h]

theorem below?_eq_none_iff : base.below? p = none ↔ ¬ base.Contains p := by
  rw [← isSome_below?_iff, Option.not_isSome_iff_eq_none]

theorem Contains.of_same (hc : base.Contains p) (h : Same p q) : base.Contains q := by
  have hcomponents : p.components = q.components := h
  unfold Contains at hc ⊢
  rwa [← hcomponents]

/-- A path with components that stands at the front of an absolute one is absolute. -/
theorem Contains.isAbsolute (hc : base.Contains p) (hp : p.isAbsolute = true)
    (hne : base.components ≠ []) : base.isAbsolute = true := by
  obtain ⟨rest, hrest⟩ := hc
  obtain ⟨c, cs, hbase⟩ := List.exists_cons_of_ne_nil hne
  rw [hbase, components_of_isAbsolute hp] at hrest
  rw [isAbsolute_iff, hbase, (List.cons.inj hrest).1]
  rfl

/-- Below a base without components an absolute path stands as it is, apart from its end. -/
theorem below?_of_empty (hp : p.isAbsolute = true) (hbase : base.components = []) :
    base.below? p = some ⟨'/' :: joinSegments (fill p.gaps p.names)⟩ := by
  have hstart : p.startsHere = false := startsHere_of_isAbsolute hp
  have hend : dropIdleEnd p.loose = fill p.gaps p.names := by
    have hloose : p.loose = p.body := by simp [loose, hstart]
    rw [hloose]
    exact dropIdleEnd_eq_fill p.body
  simp [below?, hbase, trimEnd, rebuild, hp, hend]

/-- Below another base that contains the path the names below it are left, with the gaps between
them. -/
theorem below?_of_contains (hp : p.isAbsolute = true) (hc : base.Contains p)
    (hbase : base.components ≠ []) :
    let n := base.components.length - 1
    base.below? p =
      some ⟨joinSegments (fill ((p.gaps.drop n).modifyHead fun _ => []) (p.names.drop n))⟩ := by
  intro n
  have hanchor : base.anchor.length = 1 := by
    simp [anchor, hc.isAbsolute hp hbase]
  obtain ⟨hgaps, hnames⟩ := gapsAfter_dropProper n p.body
  have hleft := dropIdleEnd_eq_fill (dropIdle (dropProper n p.body))
  rw [gapsAfter_dropIdle [], filter_dropIdle, hgaps, hnames] at hleft
  have hprefix : base.components.isPrefixOf p.components = true :=
    List.isPrefixOf_iff_prefix.mpr hc
  simp only [below?, hprefix, hbase, if_true, if_false, hanchor]
  exact congrArg (fun l => some (Path.mk (joinSegments l))) hleft

/-- The gaps between the names below the base are the same. Below a base without components the first
slashes count as well. -/
def WrittenAlikeBelow (base p q : Path) : Prop :=
  p.gaps.drop base.components.length = q.gaps.drop base.components.length

instance (base p q : Path) : Decidable (WrittenAlikeBelow base p q) :=
  inferInstanceAs (Decidable (_ = _))

/-- Two spellings of a path leave the same text below a base exactly if they are written alike
there. -/
theorem below?_eq_iff (hp : p.isAbsolute = true) (h : Same p q) :
    base.below? p = base.below? q ↔ (base.Contains p → WrittenAlikeBelow base p q) := by
  have hq := h.isAbsolute hp
  have hnames := h.names_eq hp
  have hspells : Spells q.gaps p.names := hnames ▸ spells_gaps q
  by_cases hc : base.Contains p
  · unfold WrittenAlikeBelow
    by_cases hbase : base.components = []
    · rw [below?_of_empty hp hbase, below?_of_empty hq hbase, ← hnames, hbase]
      simp [(spells_gaps p).joinSegments_fill_eq_iff hspells, hc]
    · have hlength : base.components.length = base.components.length - 1 + 1 := by
        have hpos := List.length_pos_iff.mpr hbase
        omega
      rw [below?_of_contains hp hc hbase, below?_of_contains hq (hc.of_same h) hbase, ← hnames]
      generalize base.components.length - 1 = n at hlength
      rw [hlength, ← List.tail_drop, ← List.tail_drop]
      have hcount : (p.gaps.drop n).length = (q.gaps.drop n).length :=
        (((spells_gaps p).drop n).length).trans ((hspells.drop n).length).symm
      have hclosed := ((spells_gaps p).drop n).close.joinSegments_fill_eq_iff (hspells.drop n).close
      rw [Option.some_inj, Path.mk.injEq, hclosed]
      cases hG : p.gaps.drop n <;> cases hH : q.gaps.drop n <;> simp_all
  · have hcq : ¬ base.Contains q := fun hcq => hc (hcq.of_same h.symm)
    simp [below?_eq_none_iff.mpr hc, below?_eq_none_iff.mpr hcq, hc]

/-- Where the spelling matters the text that is left does not end with a slash. -/
theorem getLast?_below?_ne (hp : p.isAbsolute = true) (h : Same p q)
    (hdiffer : ¬ WrittenAlikeBelow base p q) {relative : Path}
    (hr : base.below? p = some relative) : relative.chars.getLast? ≠ some '/' := by
  have hspells : Spells q.gaps p.names := h.names_eq hp ▸ spells_gaps q
  have hne : ∀ n, n ≤ base.components.length → p.names.drop n ≠ [] := by
    intro n hn hnothing
    have hshort := List.drop_eq_nil_iff.mp hnothing
    refine hdiffer ?_
    unfold WrittenAlikeBelow
    rw [List.drop_eq_nil_iff.mpr (by rw [(spells_gaps p).length]; omega),
      List.drop_eq_nil_iff.mpr (by rw [hspells.length]; omega)]
  by_cases hbase : base.components = []
  · rw [below?_of_empty hp hbase] at hr
    cases hr
    exact (spells_gaps p).getLast?_joinSegments_fill (hne 0 (Nat.zero_le _)) ['/']
  · have hc : base.Contains p := isSome_below?_iff.mp (by rw [hr]; rfl)
    rw [below?_of_contains hp hc hbase] at hr
    cases hr
    exact ((spells_gaps p).drop _).close.getLast?_joinSegments_fill (hne _ (Nat.sub_le _ 1)) []

/-! ### Plain paths -/

/-- The path is written as its names and nothing else, with single slashes, and never goes up. -/
structure IsPlain (p : Path) : Prop where
  spelled : p.chars = (if p.isAbsolute then ['/'] else []) ++ joinSegments p.names
  stays_below : ['.', '.'] ∉ p.names

instance (p : Path) : Decidable (IsPlain p) :=
  decidable_of_iff (p.chars = (if p.isAbsolute then ['/'] else []) ++ joinSegments p.names ∧
    ['.', '.'] ∉ p.names) ⟨fun h => ⟨h.1, h.2⟩, fun h => ⟨h.1, h.2⟩⟩

namespace IsPlain

theorem chars_eq (h : p.IsPlain) (hp : p.isAbsolute = false) : p.chars = joinSegments p.names := by
  have hspelled := h.spelled
  rwa [hp, if_neg Bool.false_ne_true, List.nil_append] at hspelled

theorem names_ne_nil (h : p.IsPlain) (hp : p.isAbsolute = false) (hne : p.chars ≠ []) :
    p.names ≠ [] := by
  intro hnames
  rw [h.chars_eq hp, hnames] at hne
  exact hne rfl

theorem components_eq (h : p.IsPlain) (hp : p.isAbsolute = false) :
    p.components = p.names.map componentOf := by
  have hstart : p.startsHere = false := by
    rw [startsHere, h.chars_eq hp]
    by_cases hnames : p.names = []
    · rw [hnames]
      rfl
    · rw [segments_joinSegments hnames (spells_gaps p).whole]
      obtain ⟨name, rest, hcons⟩ := List.exists_cons_of_ne_nil hnames
      have hname : isProper name = true :=
        (spells_gaps p).proper name (hcons ▸ List.mem_cons_self)
      have hdot : name ≠ ['.'] := by
        rintro rfl
        cases hname
      simp [hcons, hdot]
  simp [components, anchor, names, hp, hstart]

/-- Of plain paths one lies below the other exactly if its text goes on after a slash. -/
theorem slash_prefix_iff (hp : p.IsPlain) (hq : q.IsPlain) (hrel : p.isAbsolute = false)
    (hne : p.chars ≠ []) :
    p.chars ++ ['/'] <+: q.chars ↔ p.Contains q ∧ ¬ Same p q := by
  have hnames := hp.names_ne_nil hrel hne
  cases hqa : q.isAbsolute with
  | true =>
    -- An absolute path is not below a relative one and does not begin with its text.
    have hcomponents : p.components ≠ [] := by simp [hp.components_eq hrel, hnames]
    constructor
    · rintro ⟨rest, hrest⟩
      obtain ⟨c, cs, hchars⟩ := List.exists_cons_of_ne_nil hne
      have hhead : q.chars.head? = some c := by
        rw [← hrest, hchars]
        rfl
      have hslash : c = '/' := by simpa [isAbsolute, hhead] using hqa
      simp [isAbsolute, hchars, hslash] at hrel
    · rintro ⟨hc, -⟩
      rw [hc.isAbsolute hqa hcomponents] at hrel
      cases hrel
  | false =>
    have hinjective : Function.Injective componentOf := fun s t => componentOf_injective
    rw [Contains, Same, hp.chars_eq hrel, hq.chars_eq hqa, hp.components_eq hrel,
      hq.components_eq hqa, List.prefix_map_iff_of_injective hinjective,
      (List.map_injective_iff.mpr hinjective).eq_iff]
    exact joinSegments_prefix_iff hnames (spells_gaps p).whole (spells_gaps q).whole

end IsPlain

end Buildpath.Path
