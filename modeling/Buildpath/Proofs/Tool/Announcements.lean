import Buildpath.Proofs.Text.Cutting
import Buildpath.Tool.Aspect

/-!
# Announced aspect files

A line of a build's output announces a file if, trimmed, it ends as the names of aspect files do
(`Announces`); the file may be announced again in another spelling, relative or absolute
(`Denotes`). The lines are read one after the other, and `Collects` says what has been collected after
some of them: each announced file once, as it was spelled first, in the order of these first
announcements (`collects_aspectFiles`). What a second output adds are its files that the first does not
have (`files_follow_first_announcements`).
-/

namespace Buildpath

/-! ### Announcements -/

/-- The line announces the file at this path: below the root unless the path is absolute. -/
structure Announces (root : Path) (line : List Char) (p : Path) : Prop where
  ending : aspectSuffix <:+ Text.trim line
  path_eq : p = if (Path.mk (Text.trim line)).isAbsolute then ⟨Text.trim line⟩
    else root.join ⟨Text.trim line⟩

/-- The line announces the file at this path, in some spelling. -/
def Denotes (root : Path) (line : List Char) (p : Path) : Prop :=
  ∃ q, Announces root line q ∧ q.Same p

variable {root p q : Path} {line : List Char} {lines : List (List Char)} {files l k : List Path}

theorem aspectFileOfLine?_eq_some_iff :
    aspectFileOfLine? root line = some p ↔ Announces root line p := by
  have hjoin : (if (Path.mk (Text.trim line)).isAbsolute then Path.mk (Text.trim line)
      else root.join ⟨Text.trim line⟩) = root.join ⟨Text.trim line⟩ := by
    split
    · rename_i habs
      exact (Path.join_of_isAbsolute root habs).symm
    · rfl
  unfold aspectFileOfLine?
  constructor
  · intro h
    by_cases hending : Text.endsWith aspectSuffix (Text.trim line) = true
    · rw [if_pos hending] at h
      exact ⟨Text.endsWith_iff.mp hending, by rw [hjoin]; exact (Option.some.inj h).symm⟩
    · rw [if_neg hending] at h
      cases h
  · intro h
    have hpath := h.path_eq
    rw [hjoin] at hpath
    rw [if_pos (Text.endsWith_iff.mpr h.ending), hpath]

theorem aspectFileOfLine?_dropReturn (root : Path) (line : List Char) :
    aspectFileOfLine? root (Text.dropReturn line) = aspectFileOfLine? root line := by
  unfold aspectFileOfLine?
  rw [Text.trim_dropReturn]

theorem Denotes.same (h : Denotes root line p) (hpq : p.Same q) : Denotes root line q := by
  obtain ⟨r, hr, hrp⟩ := h
  exact ⟨r, hr, hrp.trans hpq⟩

theorem Announces.denotes_iff (h : Announces root line p) : Denotes root line q ↔ p.Same q := by
  constructor
  · rintro ⟨r, hr, hrq⟩
    have hfound := (aspectFileOfLine?_eq_some_iff.mpr hr).symm.trans
      (aspectFileOfLine?_eq_some_iff.mpr h)
    cases hfound
    exact hrq
  · intro hpq
    exact ⟨p, h, hpq⟩

/-! ### Paths without repetitions -/

theorem any_same_iff :
    (l.any fun q => q.components == p.components) = true ↔ ∃ q ∈ l, q.Same p := by
  simp only [List.any_eq_true, beq_iff_eq]
  rfl

theorem distinctPaths_concat_of_known (h : ∃ q ∈ distinctPaths l, q.Same p) :
    distinctPaths (l ++ [p]) = distinctPaths l := by
  unfold distinctPaths at h ⊢
  rw [List.foldl_append]
  exact if_pos (any_same_iff.mpr h)

theorem distinctPaths_concat_of_new (h : ¬ ∃ q ∈ distinctPaths l, q.Same p) :
    distinctPaths (l ++ [p]) = distinctPaths l ++ [p] := by
  unfold distinctPaths at h ⊢
  rw [List.foldl_append]
  exact if_neg (mt any_same_iff.mp h)

/-- No path is lost, up to its spelling. -/
theorem exists_same_iff : (∃ q ∈ distinctPaths l, q.Same p) ↔ ∃ q ∈ l, q.Same p := by
  induction l using List.reverseRecOn with
  | nil => exact Iff.rfl
  | append_singleton l r ih =>
    have hlast (m : List Path) : (∃ q ∈ m ++ [r], q.Same p) ↔ (∃ q ∈ m, q.Same p) ∨ r.Same p := by
      simp only [List.mem_append, List.mem_singleton, or_and_right, exists_or, exists_eq_left]
    rw [hlast, ← ih]
    by_cases hr : ∃ q ∈ distinctPaths l, q.Same r
    · rw [distinctPaths_concat_of_known hr]
      obtain ⟨q, hq, hqr⟩ := hr
      exact (or_iff_left_of_imp fun hrp => ⟨q, hq, hqr.trans hrp⟩).symm
    · rw [distinctPaths_concat_of_new hr, hlast]

theorem exists_same_append : (∃ q ∈ distinctPaths (l ++ k), q.Same p) ↔
    (∃ q ∈ distinctPaths l, q.Same p) ∨ ∃ q ∈ distinctPaths k, q.Same p := by
  simp only [exists_same_iff, List.mem_append, or_and_right, exists_or]

/-- The paths of the second list are added, without those that the first has. -/
theorem distinctPaths_append (l k : List Path) :
    distinctPaths (l ++ k) =
      distinctPaths l ++
        (distinctPaths k).filter fun p => ∀ q ∈ distinctPaths l, ¬ q.Same p := by
  induction k using List.reverseRecOn with
  | nil =>
    have hnothing : distinctPaths [] = [] := rfl
    rw [List.append_nil, hnothing, List.filter_nil, List.append_nil]
  | append_singleton k p ih =>
    rw [← List.append_assoc]
    by_cases hright : ∃ q ∈ distinctPaths k, q.Same p
    · have hknown : ∃ q ∈ distinctPaths (l ++ k), q.Same p := exists_same_append.mpr (Or.inr hright)
      rw [distinctPaths_concat_of_known hknown, distinctPaths_concat_of_known hright, ih]
    rw [distinctPaths_concat_of_new hright, List.filter_append, List.filter_singleton]
    by_cases hleft : ∃ q ∈ distinctPaths l, q.Same p
    · -- The path is in the first list, so it is dropped from what the second list has.
      have hknown : ∃ q ∈ distinctPaths (l ++ k), q.Same p := exists_same_append.mpr (Or.inl hleft)
      have hdropped : ¬ ∀ q ∈ distinctPaths l, ¬ q.Same p := fun hnone =>
        hleft.elim fun q hq => hnone q hq.1 hq.2
      rw [distinctPaths_concat_of_known hknown, decide_eq_false hdropped, ih]
      exact (congrArg (distinctPaths l ++ ·) (List.append_nil _)).symm
    · have hnew : ¬ ∃ q ∈ distinctPaths (l ++ k), q.Same p := by
        rw [exists_same_append]
        exact not_or_intro hleft hright
      have hkept : ∀ q ∈ distinctPaths l, ¬ q.Same p := fun q hq hqp => hleft ⟨q, hq, hqp⟩
      rw [distinctPaths_concat_of_new hnew, decide_eq_true hkept, ih, List.append_assoc]
      rfl

/-! ### What has been collected -/

/-- A beginning of the lines announces the first file and not the second. -/
def AnnouncedBefore (root : Path) (lines : List (List Char)) (p q : Path) : Prop :=
  ∃ before after, lines = before ++ after ∧ (∃ line ∈ before, Denotes root line p) ∧
    ∀ line ∈ before, ¬ Denotes root line q

/-- The line is the first that announces the file, and spells the path so. -/
def FirstAnnounced (root : Path) (lines : List (List Char)) (p : Path) : Prop :=
  ∃ before line after, lines = before ++ line :: after ∧ Announces root line p ∧
    ∀ earlier ∈ before, ¬ Denotes root earlier p

/-- The files that the lines announce, each once, as it is spelled first, in the order of the first
announcements. -/
structure Collects (root : Path) (lines : List (List Char)) (files : List Path) : Prop where
  distinct : files.Pairwise fun p q => ¬ p.Same q
  complete : ∀ line ∈ lines, ∀ p, Denotes root line p → ∃ q ∈ files, q.Same p
  first : ∀ p ∈ files, FirstAnnounced root lines p
  ordered : files.Pairwise (AnnouncedBefore root lines)

theorem AnnouncedBefore.concat (h : AnnouncedBefore root lines p q) (line : List Char) :
    AnnouncedBefore root (lines ++ [line]) p q := by
  obtain ⟨before, after, rfl, hp, hq⟩ := h
  exact ⟨before, after ++ [line], List.append_assoc _ _ _, hp, hq⟩

theorem FirstAnnounced.concat (h : FirstAnnounced root lines p) (line : List Char) :
    FirstAnnounced root (lines ++ [line]) p := by
  obtain ⟨before, first, after, rfl, hp, hearlier⟩ := h
  refine ⟨before, first, after ++ [line], ?_, hp, hearlier⟩
  rw [List.append_assoc, List.cons_append]

theorem FirstAnnounced.denoted (h : FirstAnnounced root lines p) :
    ∃ line ∈ lines, Denotes root line p := by
  obtain ⟨before, line, after, rfl, hp, -⟩ := h
  exact ⟨line, List.mem_append_cons_self, p, hp, Path.Same.refl p⟩

namespace Collects

/-- A line that announces nothing new changes nothing. -/
theorem concat_of_known (h : Collects root lines files)
    (hline : ∀ p, Denotes root line p → ∃ q ∈ files, q.Same p) :
    Collects root (lines ++ [line]) files where
  distinct := h.distinct
  complete other hother p hp := by
    rcases List.mem_append.mp hother with hold | hlast
    · exact h.complete other hold p hp
    · rw [List.mem_singleton.mp hlast] at hp
      exact hline p hp
  first p hp := (h.first p hp).concat line
  ordered := h.ordered.imp fun hpq => hpq.concat line

/-- The file that a line announces for the first time is added at the end. -/
theorem concat_of_new (h : Collects root lines files) (hp : Announces root line p)
    (hnew : ¬ ∃ q ∈ files, q.Same p) : Collects root (lines ++ [line]) (files ++ [p]) := by
  have hunseen : ∀ earlier ∈ lines, ¬ Denotes root earlier p := fun earlier hearlier hdenotes =>
    hnew (h.complete earlier hearlier p hdenotes)
  refine ⟨?_, ?_, ?_, ?_⟩
  · refine List.pairwise_append.mpr ⟨h.distinct, List.pairwise_singleton _ p, ?_⟩
    intro q hq r hr hsame
    rw [List.mem_singleton.mp hr] at hsame
    exact hnew ⟨q, hq, hsame⟩
  · intro other hother q hq
    rcases List.mem_append.mp hother with hold | hlast
    · obtain ⟨r, hr, hrq⟩ := h.complete other hold q hq
      exact ⟨r, List.mem_append_left _ hr, hrq⟩
    · rw [List.mem_singleton.mp hlast] at hq
      exact ⟨p, List.mem_append_right _ List.mem_cons_self, hp.denotes_iff.mp hq⟩
  · intro q hq
    rcases List.mem_append.mp hq with hold | hlast
    · exact (h.first q hold).concat line
    · rw [List.mem_singleton.mp hlast]
      exact ⟨lines, line, [], rfl, hp, hunseen⟩
  · refine List.pairwise_append.mpr
      ⟨h.ordered.imp fun hqr => hqr.concat line, List.pairwise_singleton _ p, ?_⟩
    intro q hq r hr
    rw [List.mem_singleton.mp hr]
    exact ⟨lines, [line], rfl, (h.first q hq).denoted, hunseen⟩

theorem mem_iff (h : Collects root lines files) (p : Path) :
    (∃ q ∈ files, q.Same p) ↔ ∃ line ∈ lines, Denotes root line p := by
  constructor
  · rintro ⟨q, hq, hqp⟩
    obtain ⟨line, hline, hdenotes⟩ := (h.first q hq).denoted
    exact ⟨line, hline, hdenotes.same hqp⟩
  · rintro ⟨line, hline, hp⟩
    exact h.complete line hline p hp

end Collects

/-- Reading the lines one after the other collects the files that they announce. -/
theorem collects_distinctPaths (root : Path) (lines : List (List Char)) :
    Collects root lines (distinctPaths (lines.filterMap (aspectFileOfLine? root))) := by
  induction lines using List.reverseRecOn with
  | nil => exact ⟨.nil, fun line hline => absurd hline List.not_mem_nil,
      fun p hp => absurd hp List.not_mem_nil, .nil⟩
  | append_singleton lines line ih =>
    rw [List.filterMap_append]
    cases hline : aspectFileOfLine? root line with
    | none =>
      have hnothing : ∀ p, ¬ Denotes root line p := by
        rintro p ⟨q, hq, -⟩
        rw [← aspectFileOfLine?_eq_some_iff, hline] at hq
        cases hq
      rw [List.filterMap_cons_none hline, List.filterMap_nil, List.append_nil]
      exact ih.concat_of_known fun p hp => absurd hp (hnothing p)
    | some p =>
      have hp : Announces root line p := aspectFileOfLine?_eq_some_iff.mp hline
      rw [List.filterMap_cons_some hline, List.filterMap_nil]
      by_cases hknown : ∃ q ∈ distinctPaths (lines.filterMap (aspectFileOfLine? root)), q.Same p
      · rw [distinctPaths_concat_of_known hknown]
        refine ih.concat_of_known fun r hr => ?_
        obtain ⟨q, hq, hqp⟩ := hknown
        exact ⟨q, hq, hqp.trans (hp.denotes_iff.mp hr)⟩
      · rw [distinctPaths_concat_of_new hknown]
        exact ih.concat_of_new hp hknown

theorem aspectFiles_append (root : Path) (a b : List Char) :
    aspectFiles root (a ++ '\n' :: b) =
      aspectFiles root a ++
        (aspectFiles root b).filter fun p => ∀ q ∈ aspectFiles root a, ¬ q.Same p := by
  have hempty : aspectFileOfLine? root [] = none := rfl
  unfold aspectFiles
  rw [Text.filterMap_lines_append (aspectFileOfLine?_dropReturn root) hempty,
    distinctPaths_append]

/-- The files picked out of an output are different files, whatever the spelling, and those that some
line announces. Each has the path of the first line that announces it in any spelling, and they stand
in the order of these lines. The files of two outputs, one after the other, are those of the first
and then those of the second that are not among them. -/
theorem files_follow_first_announcements (root : Path) :
    (∀ output : List Char,
      (aspectFiles root output).Pairwise (fun p q => ¬ p.Same q) ∧
      (∀ p, (∃ q ∈ aspectFiles root output, q.Same p) ↔
        ∃ line ∈ Text.lines output, Denotes root line p) ∧
      (∀ p ∈ aspectFiles root output, FirstAnnounced root (Text.lines output) p) ∧
      (aspectFiles root output).Pairwise (AnnouncedBefore root (Text.lines output))) ∧
    ∀ a b : List Char, aspectFiles root (a ++ '\n' :: b) =
      aspectFiles root a ++
        (aspectFiles root b).filter fun p => ∀ q ∈ aspectFiles root a, ¬ q.Same p := by
  refine ⟨fun output => ?_, aspectFiles_append root⟩
  have hcollects : Collects root (Text.lines output) (aspectFiles root output) :=
    collects_distinctPaths root (Text.lines output)
  exact ⟨hcollects.distinct, hcollects.mem_iff, hcollects.first, hcollects.ordered⟩

/-- A file that is announced relatively and then, spelled otherwise, absolutely. -/
example :
    aspectFiles (.ofString "/ws")
      " o/a.cpresolve.json\r\n/ws//o/a.cpresolve.json\n/b.cpresolve.json".toList =
    [.ofString "/ws/o/a.cpresolve.json", .ofString "/b.cpresolve.json"] := by
  decide +kernel

end Buildpath
