import Buildpath.Proofs.Ownership.Search
import Buildpath.Proofs.Path.Joining

/-!
# The file that a source path means

What counts in a source path is what is left of it without quotation marks, without the blanks around
it and without one `./` at its front (`Leaves`). If nothing is left the source path means no file;
otherwise it means what is left, seen from the root (`sourceFile?_of_leaves`). An absolute path without
quotation marks and without a blank at its end means itself, and every file that is meant is such a path.
More `./` in front of a source path change the spelling of the file but not the file
(`meant_file_means_itself`).
-/

namespace Buildpath

variable {root p : Path} {source s : String} {rest other : List Char}

/-! ### What is left of a source path -/

/-- What is left of the source path when the quotation marks, the blanks around it and one `./` at its
front are taken away. -/
def Leaves (source : String) (rest : List Char) : Prop :=
  ∃ before core after, (∀ c ∈ before, Text.isBlank c = true) ∧ (∀ c ∈ after, Text.isBlank c = true) ∧
    Text.IsTrimmed core ∧ source.toList.filter (· != '"') = before ++ core ++ after ∧
    (core = ['.', '/'] ++ rest ∨ ¬ ['.', '/'] <+: core ∧ core = rest)

/-- The text between the blanks, without the quotation marks. -/
def coreOf (source : String) : List Char :=
  Text.trim (source.toList.filter (· != '"'))

theorem leaves_iff : Leaves source rest ↔
    (Text.stripStart? ['.', '/'] (coreOf source)).getD (coreOf source) = rest := by
  have hcore : ∀ core, (core = ['.', '/'] ++ rest ∨ ¬ ['.', '/'] <+: core ∧ core = rest) ↔
      (Text.stripStart? ['.', '/'] core).getD core = rest := by
    intro core
    cases hs : Text.stripStart? ['.', '/'] core with
    | none =>
      have hnot : ¬ ['.', '/'] <+: core := Text.stripStart?_eq_none_iff.mp hs
      have hne : core ≠ ['.', '/'] ++ rest := fun heq => hnot ⟨rest, heq.symm⟩
      simp only [hne, hnot, not_false_eq_true, true_and, false_or, Option.getD_none]
    | some stripped =>
      have hwhole : core = ['.', '/'] ++ stripped := Text.stripStart?_eq_some_iff.mp hs
      have hbegins : ['.', '/'] <+: core := ⟨stripped, hwhole.symm⟩
      simp only [hbegins, not_true_eq_false, false_and, or_false, Option.getD_some]
      rw [hwhole, List.append_cancel_left_eq]
  unfold Leaves
  simp only [hcore]
  constructor
  · rintro ⟨before, core, after, hbefore, hafter, htrimmed, hsource, hrest⟩
    obtain ⟨hstart, hend⟩ := Text.isTrimmed_iff.mp htrimmed
    have htrim : coreOf source = core :=
      (Text.trim_eq_iff hstart hend).mpr ⟨before, after, hbefore, hafter, hsource⟩
    rw [htrim]
    exact hrest
  · intro hrest
    obtain ⟨before, after, hbefore, hafter, hsource⟩ :=
      Text.exists_trim (source.toList.filter (· != '"'))
    exact ⟨before, coreOf source, after, hbefore, hafter, Text.isTrimmed_trim _, hsource, hrest⟩

theorem exists_leaves (source : String) : ∃ rest, Leaves source rest :=
  ⟨_, leaves_iff.mpr rfl⟩

namespace Leaves

theorem unique (h : Leaves source rest) (h' : Leaves source other) : rest = other :=
  (leaves_iff.mp h).symm.trans (leaves_iff.mp h')

theorem not_mem (h : Leaves source rest) : '"' ∉ rest := by
  obtain ⟨before, core, after, -, -, -, hsource, hrest⟩ := h
  have hcore : '"' ∉ core := by
    intro hmem
    have hkept : '"' ∈ source.toList.filter (· != '"') := by
      rw [hsource]
      exact List.mem_append_left after (List.mem_append_right before hmem)
    cases (List.mem_filter.mp hkept).2
  rcases hrest with rfl | ⟨-, rfl⟩
  · exact fun hmem => hcore (List.mem_append_right ['.', '/'] hmem)
  · exact hcore

/-- What is left goes up to the end of the text between the blanks. -/
theorem trimEnd_eq (h : Leaves source rest) : Text.trimEnd rest = rest := by
  obtain ⟨before, core, after, -, -, htrimmed, -, hrest⟩ := h
  rw [Text.trimEnd_eq_self_iff]
  intro c hc
  have hcore : c ∈ core.getLast? := by
    rcases hrest with rfl | ⟨-, rfl⟩
    · have hne : rest ≠ [] := by
        rintro rfl
        cases hc
      rw [List.getLast?_append_of_ne_nil _ hne]
      exact hc
    · exact hc
  exact htrimmed.last c hcore

end Leaves

/-! ### The file -/

theorem sourceFile?_of_leaves (root : Path) (h : Leaves source rest) :
    sourceFile? root source = if rest = [] then none else some (root.join ⟨rest⟩) := by
  rw [← leaves_iff.mp h]
  rfl

theorem sourceFile?_eq_none_iff_leaves (root : Path) (source : String) :
    sourceFile? root source = none ↔ Leaves source [] := by
  obtain ⟨rest, hrest⟩ := exists_leaves source
  rw [sourceFile?_of_leaves root hrest]
  by_cases hnothing : rest = []
  · rw [if_pos hnothing]
    exact iff_of_true rfl (hnothing ▸ hrest)
  · rw [if_neg hnothing]
    exact iff_of_false (Option.some_ne_none _) fun hnil => hnothing (hrest.unique hnil)

theorem exists_of_sourceFile? (h : sourceFile? root source = some p) :
    ∃ rest, rest ≠ [] ∧ Leaves source rest ∧ p = root.join ⟨rest⟩ := by
  obtain ⟨rest, hrest⟩ := exists_leaves source
  rw [sourceFile?_of_leaves root hrest] at h
  by_cases hnothing : rest = []
  · rw [if_pos hnothing] at h
    cases h
  · rw [if_neg hnothing] at h
    exact ⟨rest, hnothing, hrest, (Option.some.inj h).symm⟩

/-! ### Files that mean themselves -/

/-- A path that is absolute, holds no quotation mark and does not end with a blank. -/
structure IsSettledSource (p : Path) : Prop where
  absolute : p.isAbsolute = true
  unquoted : '"' ∉ p.chars
  ended : Text.trimEnd p.chars = p.chars

namespace IsSettledSource

theorem leaves (h : IsSettledSource p) : Leaves p.toString p.chars := by
  obtain ⟨cs, hcs⟩ := Path.exists_slash_cons h.absolute
  have hfilter : p.toString.toList.filter (· != '"') = p.chars := by
    have htext : p.toString.toList = p.chars := String.toList_ofList
    rw [htext, List.filter_eq_self]
    intro c hc
    rw [bne_iff_ne]
    rintro rfl
    exact h.unquoted hc
  have htrimmed : Text.IsTrimmed p.chars := by
    rw [Text.isTrimmed_iff, Text.trimStart_eq_self_iff]
    refine ⟨?_, h.ended⟩
    intro c hc
    rw [hcs] at hc
    obtain rfl : '/' = c := Option.some.inj hc
    rfl
  have hslash : ¬ ['.', '/'] <+: p.chars := by
    rw [hcs, List.cons_prefix_cons]
    rintro ⟨hdot, -⟩
    cases hdot
  refine ⟨[], p.chars, [], ?_, ?_, htrimmed, ?_, Or.inr ⟨hslash, rfl⟩⟩
  · exact fun c hc => absurd hc List.not_mem_nil
  · exact fun c hc => absurd hc List.not_mem_nil
  · rw [hfilter, List.nil_append, List.append_nil]

theorem sourceFile?_eq (h : IsSettledSource p) (root : Path) :
    sourceFile? root p.toString = some p := by
  have hne : p.chars ≠ [] := by
    obtain ⟨cs, hcs⟩ := Path.exists_slash_cons h.absolute
    rw [hcs]
    exact List.cons_ne_nil '/' cs
  rw [sourceFile?_of_leaves root h.leaves, if_neg hne]
  exact congrArg some (Path.join_of_isAbsolute root h.absolute)

end IsSettledSource

/-- Below an absolute root without quotation marks, every file that is meant means itself. -/
theorem isSettledSource_of_sourceFile? (hroot : root.isAbsolute = true) (hquote : '"' ∉ root.chars)
    (h : sourceFile? root source = some p) : IsSettledSource p := by
  obtain ⟨rest, hne, hrest, rfl⟩ := exists_of_sourceFile? h
  cases hr : (Path.mk rest).isAbsolute with
  | true =>
    rw [Path.join_of_isAbsolute root hr]
    exact ⟨hr, hrest.not_mem, hrest.trimEnd_eq⟩
  | false =>
    have habsolute : (root.join ⟨rest⟩).isAbsolute = true := (Path.isAbsolute_join root hr).trans hroot
    rw [Path.join_of_relative root hr] at habsolute ⊢
    refine ⟨habsolute, ?_, Text.trimEnd_append_of_kept hne hrest.trimEnd_eq _⟩
    intro hmem
    rcases List.mem_append.mp hmem with hbase | hleft
    · rcases Path.mem_withSlash hbase with hslash | hbase
      · cases hslash
      · exact hquote hbase
    · exact hrest.not_mem hleft

/-! ### More of `./` in front -/

/-- A relative source path as it is meant, with nothing around it that could be taken away. -/
structure IsPlainSource (s : String) : Prop where
  ne_empty : s ≠ ""
  unquoted : '"' ∉ s.toList
  trimmed : Text.IsTrimmed s.toList
  relative : ¬ ['/'] <+: s.toList
  undotted : ¬ ['.', '/'] <+: s.toList

/-- The source path with so many `./` in front. -/
def dotted (n : ℕ) (s : String) : String :=
  String.join (List.replicate n "./") ++ s

theorem toList_dotted_zero (s : String) : (dotted 0 s).toList = s.toList := by
  simp [dotted]

theorem toList_dotted_succ (n : ℕ) (s : String) :
    (dotted (n + 1) s).toList = ['.', '/'] ++ (dotted n s).toList := by
  simp [dotted, List.replicate_succ, String.join_cons]

/-- A single dot in front is no name. -/
theorem Path.names_after_dot (cs : List Char) :
    (Path.mk (['.', '/'] ++ cs)).names = (Path.mk cs).names := by
  have hcut : Path.segments ('.' :: '/' :: cs) = [['.']] ++ Path.segments cs :=
    Path.segments_append_slash ['.'] cs
  rw [Path.names_eq, Path.names_eq]
  exact (congrArg (List.filter Path.isProper) hcut).trans rfl

theorem names_dotted (n : ℕ) (s : String) :
    (Path.ofString (dotted n s)).names = (Path.ofString s).names := by
  unfold Path.ofString
  induction n with
  | zero => rw [toList_dotted_zero]
  | succ n ih => rw [toList_dotted_succ, Path.names_after_dot, ih]

namespace IsPlainSource

variable (h : IsPlainSource s) (n : ℕ)
include h

theorem not_mem_dotted : '"' ∉ (dotted n s).toList := by
  induction n with
  | zero =>
    rw [toList_dotted_zero]
    exact h.unquoted
  | succ n ih =>
    rw [toList_dotted_succ]
    intro hmem
    rcases List.mem_append.mp hmem with hdot | hold
    · exact absurd hdot (by decide)
    · exact ih hold

theorem ne_nil_dotted : (dotted n s).toList ≠ [] := by
  cases n with
  | zero =>
    rw [toList_dotted_zero]
    exact fun hnil => h.ne_empty (String.toList_eq_nil_iff.mp hnil)
  | succ n =>
    rw [toList_dotted_succ]
    exact List.cons_ne_nil _ _

theorem isTrimmed_dotted : Text.IsTrimmed (dotted n s).toList := by
  induction n with
  | zero =>
    rw [toList_dotted_zero]
    exact h.trimmed
  | succ n ih =>
    have hne := h.ne_nil_dotted n
    rw [toList_dotted_succ]
    refine ⟨?_, ?_⟩
    · intro c hc
      obtain rfl : '.' = c := Option.some.inj hc
      rfl
    · intro c hc
      rw [List.getLast?_append_of_ne_nil _ hne] at hc
      exact ih.last c hc

theorem isAbsolute_dotted : (Path.ofString (dotted n s)).isAbsolute = false := by
  unfold Path.ofString Path.isAbsolute
  cases n with
  | zero =>
    rw [toList_dotted_zero, beq_eq_false_iff_ne]
    intro hslash
    exact h.relative ⟨s.toList.tail, (List.eq_cons_of_mem_head? hslash).symm⟩
  | succ n =>
    rw [toList_dotted_succ]
    rfl

/-- One `./` is taken away, the others are left. -/
theorem leaves_dotted : Leaves (dotted n s) (dotted (n - 1) s).toList := by
  have hfilter : (dotted n s).toList.filter (· != '"') = (dotted n s).toList := by
    rw [List.filter_eq_self]
    intro c hc
    rw [bne_iff_ne]
    rintro rfl
    exact h.not_mem_dotted n hc
  refine ⟨[], (dotted n s).toList, [], ?_, ?_, h.isTrimmed_dotted n, ?_, ?_⟩
  · exact fun c hc => absurd hc List.not_mem_nil
  · exact fun c hc => absurd hc List.not_mem_nil
  · rw [hfilter, List.nil_append, List.append_nil]
  · cases n with
    | zero =>
      rw [Nat.zero_sub, toList_dotted_zero]
      exact Or.inr ⟨h.undotted, rfl⟩
    | succ n => exact Or.inl (toList_dotted_succ n s)

/-- However many `./` stand in front, the file is the source path seen from the root. -/
theorem sourceFile?_dotted (hroot : root.isAbsolute = true) :
    ∃ p, sourceFile? root (dotted n s) = some p ∧ p.Same (root.join (.ofString s)) := by
  have hrelative := h.isAbsolute_dotted (n - 1)
  have hbare := h.isAbsolute_dotted 0
  refine ⟨root.join (.ofString (dotted (n - 1) s)), ?_, ?_⟩
  · rw [sourceFile?_of_leaves root (h.leaves_dotted n), if_neg (h.ne_nil_dotted (n - 1))]
    rfl
  · have hplain : Path.ofString (dotted 0 s) = .ofString s :=
      congrArg Path.mk (toList_dotted_zero s)
    rw [hplain] at hbare
    refine Path.same_of_names ?_ ?_ ?_
    · rw [Path.isAbsolute_join root hrelative, hroot]
    · rw [Path.isAbsolute_join root hbare, hroot]
    · rw [Path.names_join root hrelative, Path.names_join root hbare, names_dotted]

end IsPlainSource

/-- Below an absolute root without quotation marks, a source path means no file exactly if nothing is left
of it; any file that is meant is an absolute path whose text means the same path again, character for
character; and a relative source path that is written plainly means, with any number of `./` in front of
it, the file that it is seen from the root. -/
theorem meant_file_means_itself (hroot : root.isAbsolute = true) (hquote : '"' ∉ root.chars) :
    (∀ source, sourceFile? root source = none ↔ Leaves source []) ∧
    (∀ source p, sourceFile? root source = some p →
      p.isAbsolute = true ∧ sourceFile? root p.toString = some p) ∧
    ∀ s, IsPlainSource s → ∀ n, ∃ p, sourceFile? root (dotted n s) = some p ∧
      p.Same (root.join (.ofString s)) := by
  refine ⟨sourceFile?_eq_none_iff_leaves root, ?_, ?_⟩
  · intro source p hp
    have hsettled := isSettledSource_of_sourceFile? hroot hquote hp
    exact ⟨hsettled.absolute, hsettled.sourceFile?_eq root⟩
  · intro s hs n
    exact hs.sourceFile?_dotted n hroot

theorem meant_file_means_itself_of_quoted :
    let root : Path := .ofString "/ws"
    let file : Path := .ofString "/ws/ a.code"
    root.isAbsolute = true ∧ '"' ∉ root.chars ∧
      Leaves "\"./\" " [] ∧ sourceFile? root "\"./\" " = none ∧
      sourceFile? root "\".\"/ a.code " = some file ∧ file.isAbsolute = true ∧
      sourceFile? root "/ws/ a.code" = some file ∧
      IsPlainSource "../x.code" ∧ dotted 2 "../x.code" = "././../x.code" ∧
      ∃ p, sourceFile? root (dotted 2 "../x.code") = some p ∧
        p.Same (root.join (.ofString "../x.code")) := by
  intro root file
  have hroot : root.isAbsolute = true := by decide +kernel
  have hquote : '"' ∉ root.chars := by decide +kernel
  obtain ⟨hnothing, hitself, hdots⟩ := meant_file_means_itself hroot hquote
  have hblank : sourceFile? root "\"./\" " = none := by decide +kernel
  have hfile : sourceFile? root "\".\"/ a.code " = some file := by decide +kernel
  have htext : file.toString = "/ws/ a.code" := Path.toString_ofString _
  obtain ⟨habsolute, hagain⟩ := hitself _ file hfile
  rw [htext] at hagain
  have hplain : IsPlainSource "../x.code" :=
    ⟨by decide, by decide, Text.isTrimmed_iff.mpr (by decide), by decide, by decide⟩
  exact ⟨hroot, hquote, (hnothing _).mp hblank, hblank, hfile, habsolute, hagain, hplain,
    by decide +kernel, hdots _ hplain 2⟩

end Buildpath
