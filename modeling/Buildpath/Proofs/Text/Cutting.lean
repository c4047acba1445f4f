import Buildpath.Text.Blank
import Mathlib.Data.List.Basic
import Mathlib.Data.List.Infix
import Mathlib.Data.List.TakeWhile

/-!
# Trimming and cutting texts

What trimming takes off are blanks and nothing else (`exists_trim`, `trim_eq_iff`). Cutting at a
character undoes putting texts together with it (`splitOn_append`), and cutting at a mark finds the
place where a mark was put, if none begins before it (`cutAt?_append`). A reader of trimmed lines reads
the pieces between the line feeds (`filterMap_lines`).
-/

namespace Buildpath.Text

/-! ### Trimming -/

theorem trimStart_append {before : List Char} (h : ∀ c ∈ before, isBlank c = true)
    (cs : List Char) : trimStart (before ++ cs) = trimStart cs :=
  List.dropWhile_append_of_pos h

theorem trimEnd_append {after : List Char} (h : ∀ c ∈ after, isBlank c = true) (cs : List Char) :
    trimEnd (cs ++ after) = trimEnd cs := by
  unfold trimEnd
  rw [List.reverse_append, List.dropWhile_append_of_pos fun c hc => h c (List.mem_reverse.mp hc)]

/-- A text that ends with something that is no blank has nothing to trim at its end. -/
theorem trimEnd_append_of_kept {cs : List Char} (hne : cs ≠ []) (h : trimEnd cs = cs)
    (front : List Char) : trimEnd (front ++ cs) = front ++ cs := by
  have hkept : cs.reverse.dropWhile isBlank = cs.reverse := by
    rw [← List.reverse_inj, List.reverse_reverse]
    exact h
  rw [trimEnd, List.reverse_append, List.dropWhile_append, hkept, if_neg (by simpa using hne),
    List.reverse_append, List.reverse_reverse, List.reverse_reverse]

/-- No blank stands at either end. -/
structure IsTrimmed (cs : List Char) : Prop where
  first : ∀ c ∈ cs.head?, isBlank c = false
  last : ∀ c ∈ cs.getLast?, isBlank c = false

theorem trimStart_eq_self_iff {cs : List Char} :
    trimStart cs = cs ↔ ∀ c ∈ cs.head?, isBlank c = false := by
  unfold trimStart
  cases cs with
  | nil => simp
  | cons c rest =>
    cases hc : isBlank c with
    | true =>
      have hshort := (List.dropWhile_suffix isBlank (l := rest)).length_le
      simp only [List.dropWhile_cons, hc, if_true, List.head?_cons, Option.mem_def,
        Option.some.injEq, forall_eq']
      constructor
      · intro heq
        have hlong := congrArg List.length heq
        rw [List.length_cons] at hlong
        omega
      · intro hfalse
        cases hfalse
    | false => simp [hc]

theorem trimEnd_eq_self_iff {cs : List Char} :
    trimEnd cs = cs ↔ ∀ c ∈ cs.getLast?, isBlank c = false := by
  have hreverse : trimEnd cs = cs ↔ trimStart cs.reverse = cs.reverse := by
    rw [← List.reverse_inj]
    unfold trimEnd trimStart
    rw [List.reverse_reverse]
  rw [hreverse, trimStart_eq_self_iff, List.head?_reverse]

theorem isTrimmed_iff {cs : List Char} :
    IsTrimmed cs ↔ trimStart cs = cs ∧ trimEnd cs = cs := by
  rw [trimStart_eq_self_iff, trimEnd_eq_self_iff]
  exact ⟨fun h => ⟨h.first, h.last⟩, fun h => ⟨h.1, h.2⟩⟩

theorem trim_append {before after : List Char} (hbefore : ∀ c ∈ before, isBlank c = true)
    (hafter : ∀ c ∈ after, isBlank c = true) (cs : List Char) :
    trim (before ++ cs ++ after) = trim cs := by
  have hend : trimEnd (trimStart (cs ++ after)) = trimEnd (trimStart cs) := by
    by_cases hcs : ∀ c ∈ cs, isBlank c = true
    · have hnothing : trimStart after = [] := List.dropWhile_eq_nil_iff.mpr hafter
      have hblank : trimStart cs = [] := List.dropWhile_eq_nil_iff.mpr hcs
      rw [trimStart_append hcs, hnothing, hblank]
    · have hkept : trimStart (cs ++ after) = trimStart cs ++ after := by
        unfold trimStart
        rw [List.dropWhile_append, if_neg]
        rwa [List.isEmpty_iff, List.dropWhile_eq_nil_iff]
      rw [hkept, trimEnd_append hafter]
  unfold trim
  rw [List.append_assoc, trimStart_append hbefore, hend]

/-- What is trimmed off are blanks. -/
theorem exists_trim (cs : List Char) : ∃ before after, (∀ c ∈ before, isBlank c = true) ∧
    (∀ c ∈ after, isBlank c = true) ∧ cs = before ++ trim cs ++ after := by
  refine ⟨cs.takeWhile isBlank, ((trimStart cs).reverse.takeWhile isBlank).reverse,
    fun c hc => List.mem_takeWhile_imp hc,
    fun c hc => List.mem_takeWhile_imp (List.mem_reverse.mp hc), ?_⟩
  have hend : trim cs ++ ((trimStart cs).reverse.takeWhile isBlank).reverse = trimStart cs := by
    unfold trim trimEnd
    rw [← List.reverse_append, List.takeWhile_append_dropWhile, List.reverse_reverse]
  rw [List.append_assoc, hend]
  exact List.takeWhile_append_dropWhile.symm

theorem isTrimmed_trim (cs : List Char) : IsTrimmed (trim cs) where
  first c hc := by
    have hprefix : trim cs <+: trimStart cs := by
      rw [← List.reverse_suffix, trim, trimEnd, List.reverse_reverse]
      exact List.dropWhile_suffix isBlank
    have hhead : (trimStart cs).head? = some c := by
      obtain ⟨rest, hrest⟩ := hprefix
      rw [← hrest, List.head?_append, Option.mem_def.mp hc, Option.some_or]
    have hkept := List.head?_dropWhile_not isBlank cs
    rw [← trimStart, hhead] at hkept
    exact hkept
  last c hc := by
    rw [trim, trimEnd, List.getLast?_reverse] at hc
    have hkept := List.head?_dropWhile_not isBlank (trimStart cs).reverse
    rw [Option.mem_def.mp hc] at hkept
    exact hkept

/-- Nothing is left exactly if there was nothing but blanks. -/
theorem trim_eq_nil_iff {cs : List Char} : trim cs = [] ↔ ∀ c ∈ cs, isBlank c = true := by
  obtain ⟨before, after, hbefore, hafter, hcs⟩ := exists_trim cs
  constructor
  · intro hnothing c hc
    rw [hcs, hnothing, List.append_nil] at hc
    exact (List.mem_append.mp hc).elim (hbefore c) (hafter c)
  · intro hblank
    have hstart : trimStart cs = [] := List.dropWhile_eq_nil_iff.mpr hblank
    rw [trim, hstart]
    rfl

/-- Trimming comes to a given text that it would leave as it is exactly if there are only blanks
around that text. -/
theorem trim_eq_iff {cs core : List Char} (hstart : trimStart core = core)
    (hend : trimEnd core = core) :
    trim cs = core ↔ ∃ before after, (∀ c ∈ before, isBlank c = true) ∧
      (∀ c ∈ after, isBlank c = true) ∧ cs = before ++ core ++ after := by
  constructor
  · rintro rfl
    exact exists_trim cs
  · rintro ⟨before, after, hbefore, hafter, rfl⟩
    rw [trim_append hbefore hafter, trim, hstart, hend]

/-- Only blanks are lost in trimming. -/
theorem mem_trim_iff {cs : List Char} {c : Char} (hc : isBlank c = false) :
    c ∈ trim cs ↔ c ∈ cs := by
  obtain ⟨before, after, hbefore, hafter, hcs⟩ := exists_trim cs
  have hnot : ∀ l : List Char, (∀ d ∈ l, isBlank d = true) → c ∉ l := fun l hl hmem =>
    Bool.false_ne_true (hc.symm.trans (hl c hmem))
  conv_rhs => rw [hcs]
  simp [hnot before hbefore, hnot after hafter]

/-- A carriage return at the end of a line is a blank like others. -/
theorem trim_return (line : List Char) : trim (line ++ ['\r']) = trim line := by
  have hblank : ∀ c ∈ ['\r'], isBlank c = true := List.forall_mem_singleton.mpr rfl
  exact trim_append (fun c hc => absurd hc List.not_mem_nil) hblank line

theorem trim_dropReturn (line : List Char) : trim (dropReturn line) = trim line := by
  unfold dropReturn
  split
  · rename_i rest hline
    rw [← trim_return, ← List.reverse_cons, ← hline, List.reverse_reverse]
  · rfl

/-! ### Cutting -/

theorem stripStart?_eq_some_iff {p cs rest : List Char} :
    stripStart? p cs = some rest ↔ cs = p ++ rest := by
  induction p generalizing cs with
  | nil => simp [stripStart?, eq_comm]
  | cons c p ih =>
    cases cs with
    | nil => simp [stripStart?]
    | cons d cs =>
      by_cases h : c = d
      · simp [stripStart?, h, ih]
      · simp [stripStart?, h, Ne.symm h]

theorem stripStart?_eq_none_iff {p cs : List Char} : stripStart? p cs = none ↔ ¬ p <+: cs := by
  rw [Option.eq_none_iff_forall_ne_some]
  simp only [ne_eq, stripStart?_eq_some_iff]
  exact ⟨fun h ⟨rest, hrest⟩ => h rest hrest.symm, fun h rest hrest => h ⟨rest, hrest.symm⟩⟩

/-- A text is cut at a mark in it, unless a mark begins before. -/
theorem cutAt?_append {mark before : List Char} (hmark : mark ≠ [])
    (h : ¬ mark <:+: before ++ mark.dropLast) (after : List Char) :
    cutAt? mark (before ++ mark ++ after) = some (before, after) := by
  induction before with
  | nil =>
    obtain ⟨c, rest, rfl⟩ := List.exists_cons_of_ne_nil hmark
    have hstrip : stripStart? (c :: rest) (c :: (rest ++ after)) = some after :=
      stripStart?_append (c :: rest) after
    simp only [List.nil_append, List.cons_append, cutAt?, hstrip]
  | cons c before ih =>
    have hnone : stripStart? mark (c :: (before ++ mark ++ after)) = none := by
      rw [stripStart?_eq_none_iff]
      intro hprefix
      have hlong : c :: before ++ mark.dropLast <+: c :: (before ++ mark ++ after) := by
        rw [List.append_assoc, List.cons_append, List.cons_prefix_cons]
        refine ⟨rfl, (List.prefix_append_right_inj before).mpr ?_⟩
        exact (List.dropLast_prefix mark).trans (List.prefix_append mark after)
      refine h (List.prefix_of_prefix_length_le hprefix hlong ?_).isInfix
      rw [List.length_append, List.length_cons, List.length_dropLast]
      omega
    have hrest := ih fun hfound => h (hfound.trans (List.infix_cons (List.infix_refl _)))
    rw [List.append_assoc, List.cons_append, ← List.append_assoc, cutAt?, hnone, hrest]
    rfl

/-- A text that ends with a character is not found where this character is missing. -/
theorem infix_of_infix_append {l mark tail : List Char} {c : Char} (hc : c ∉ tail)
    (h : mark ++ [c] <:+: l ++ tail) : mark ++ [c] <:+: l := by
  obtain ⟨before, after, heq⟩ := h
  rcases List.append_eq_append_iff.mp heq with ⟨rest, hl, -⟩ | ⟨rest, hbefore, htail⟩
  · exact ⟨before, rest, hl.symm⟩
  · by_cases hrest : rest = []
    · rw [hrest, List.append_nil] at hbefore
      exact ⟨before, [], by rw [List.append_nil, hbefore]⟩
    · have hlast : (l ++ rest).getLast? = some c := by
        rw [← hbefore, ← List.append_assoc, List.getLast?_concat]
      rw [List.getLast?_append_of_ne_nil l hrest] at hlast
      exact absurd (htail ▸ List.mem_append_left after (List.mem_of_getLast? hlast)) hc

/-! ### Pieces -/

variable {sep : Char}

theorem splitOn_append_splitOn (cs ds : List Char) :
    splitOn sep (cs ++ sep :: ds) = splitOn sep cs ++ splitOn sep ds := by
  induction cs with
  | nil => simp [splitOn]
  | cons c cs ih =>
    rw [List.cons_append, splitOn, splitOn, ih]
    split
    · rfl
    · cases hs : splitOn sep cs with
      | nil => exact absurd hs (splitOn_ne_nil sep cs)
      | cons piece pieces => rfl

theorem splitOn_of_not_mem {piece : List Char} (h : sep ∉ piece) : splitOn sep piece = [piece] := by
  induction piece with
  | nil => rfl
  | cons c rest ih =>
    rw [splitOn, if_neg (Ne.symm (List.ne_of_not_mem_cons h)), ih (List.not_mem_of_not_mem_cons h)]

theorem splitOn_append {piece : List Char} (h : sep ∉ piece) (cs : List Char) :
    splitOn sep (piece ++ sep :: cs) = piece :: splitOn sep cs := by
  rw [splitOn_append_splitOn, splitOn_of_not_mem h, List.singleton_append]

theorem not_mem_of_mem_splitOn {cs piece : List Char} (h : piece ∈ splitOn sep cs) :
    sep ∉ piece := by
  induction cs generalizing piece with
  | nil =>
    rw [List.mem_singleton.mp h]
    exact List.not_mem_nil
  | cons c cs ih =>
    unfold splitOn at h
    by_cases hc : c = sep
    · rw [if_pos hc] at h
      rcases List.mem_cons.mp h with rfl | h
      · exact List.not_mem_nil
      · exact ih h
    · rw [if_neg hc] at h
      cases hs : splitOn sep cs with
      | nil => exact absurd hs (splitOn_ne_nil sep cs)
      | cons first rest =>
        rw [hs] at h
        have hcs : ∀ s ∈ first :: rest, sep ∉ s := fun s hm => ih (hs ▸ hm)
        rcases List.mem_cons.mp h with rfl | h
        · exact List.not_mem_cons_of_ne_of_not_mem (Ne.symm hc) (hcs first List.mem_cons_self)
        · exact hcs piece (List.mem_cons_of_mem first h)

/-! ### Lines -/

theorem endsWith_iff {tail cs : List Char} : endsWith tail cs = true ↔ tail <:+ cs := by
  unfold endsWith
  rw [Option.isSome_iff_exists, ← List.reverse_prefix]
  constructor
  · rintro ⟨rest, hrest⟩
    exact ⟨rest, (stripStart?_eq_some_iff.mp hrest).symm⟩
  · rintro ⟨rest, hrest⟩
    exact ⟨rest, stripStart?_eq_some_iff.mpr hrest.symm⟩

theorem endedLines_append {k : List (List Char)} (hk : k ≠ []) (l : List (List Char)) :
    endedLines (l ++ k) = l.map dropReturn ++ endedLines k := by
  induction l with
  | nil => rfl
  | cons line rest ih =>
    have hmore : rest ++ k ≠ [] := List.append_ne_nil_of_right_ne_nil rest hk
    obtain ⟨next, others, hcons⟩ := List.exists_cons_of_ne_nil hmore
    rw [List.cons_append, List.map_cons, List.cons_append, ← ih, hcons]
    rfl

variable {α : Type} {read : List Char → Option α}

/-- For a reader that trims lines and finds nothing in an empty one it does not matter where the lines
of a text end, beyond the line feeds. -/
theorem filterMap_lines (htrim : ∀ line, read (dropReturn line) = read line) (hnil : read [] = none)
    (cs : List Char) : (lines cs).filterMap read = (splitOn '\n' cs).filterMap read := by
  have hpieces : ∀ l : List (List Char), (endedLines l).filterMap read = l.filterMap read := by
    intro l
    rcases l.eq_nil_or_concat' with rfl | ⟨ended, last, rfl⟩
    · rfl
    · have hlast : (endedLines [last]).filterMap read = [last].filterMap read := by
        unfold endedLines
        split
        · rename_i hlast
          rw [hlast, List.filterMap_cons_none hnil]
        · rfl
      have hended : read ∘ dropReturn = read := funext htrim
      rw [endedLines_append (List.cons_ne_nil last []), List.filterMap_append,
        List.filterMap_append, List.filterMap_map, hlast, hended]
  exact hpieces _

theorem filterMap_lines_append (htrim : ∀ line, read (dropReturn line) = read line)
    (hnil : read [] = none) (a b : List Char) :
    (lines (a ++ '\n' :: b)).filterMap read =
      (lines a).filterMap read ++ (lines b).filterMap read := by
  rw [filterMap_lines htrim hnil, filterMap_lines htrim hnil, filterMap_lines htrim hnil,
    splitOn_append_splitOn, List.filterMap_append]

end Buildpath.Text
