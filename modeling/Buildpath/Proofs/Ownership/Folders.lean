import Buildpath.Proofs.Ownership.Spelling

/-!
# Patterns for folders

A slash at the end of a pattern stands for everything below the folder: the pattern is read with `**`
after it, which takes whatever is left of the path (`Glob.matchTokens_anyDirectories`). So a pattern
for a folder matches the texts that go on after the folder's name and a slash (`covers_folder_iff`),
and among paths in plain form these are the ones below the folder: not the folder itself, and nothing
beside it whose name only begins like the folder's (`folder_pattern_selects_what_lies_below`).
-/

namespace Buildpath

/-! ### Reading and matching -/

namespace Glob

theorem literal_of_not_special {text : List Char} (h : ∀ c ∈ text, ¬ IsSpecial c) :
    literal text = text := by
  induction text with
  | nil => rfl
  | cons c rest ih =>
    obtain ⟨hc, hrest⟩ := List.forall_mem_cons.mp h
    rw [literal, if_neg hc, ih hrest]

/-- Two stars after a slash fill whole segments. -/
theorem parse_folder (text : List Char) :
    parse (literal (text ++ ['/']) ++ ['*', '*']) =
      .ok ((text ++ ['/']).map literalToken ++ [.anyDirectories]) := by
  obtain ⟨fuel, hfuel, hparse⟩ := parse_literal_append (text ++ ['/']) ['*', '*']
  obtain ⟨fuel, rfl⟩ := Nat.exists_eq_add_one_of_ne_zero (Nat.ne_of_gt (Nat.zero_lt_of_lt hfuel))
  have hbefore : (literal (text ++ ['/'])).getLast? = some '/' := by
    rw [literal_append, show literal ['/'] = ['/'] from rfl, List.getLast?_concat]
  have hnew : absorbsDirectories ((text ++ ['/']).map literalToken) = false := by
    simp [absorbsDirectories, literalToken, show ¬ IsSpecial '/' by decide]
  rw [hparse, hbefore]
  generalize (text ++ ['/']).map literalToken = tokens at hnew
  rw [readTokens]
  simp [hnew]

/-- At the end of a pattern `**` takes everything that is left. -/
theorem matchTokens_anyDirectories (text : List Char) :
    matchTokens [.anyDirectories] text = .matched := by
  have hskip : ∀ cs, skipUntil (fun _ => false) (· != '/') (matchTokens []) cs = .matched := by
    intro cs
    induction cs with
    | nil => rfl
    | cons c cs ih =>
      rw [skipUntil, ih]
      cases cs <;> cases c != '/' <;> rfl
  cases text with
  | nil => rfl
  | cons c cs => rw [matchTokens, matchTokens, hskip]

end Glob

namespace SourceRoot

variable {folder relative : Path}

theorem parse_folderPattern (hliteral : ∀ c ∈ folder.chars, ¬ Glob.IsSpecial c) :
    Glob.parse (expandPattern (folder.toString ++ "/")) =
      .ok ((folder.chars ++ ['/']).map Glob.literalToken ++ [.anyDirectories]) := by
  have hslash : ∀ c ∈ folder.chars ++ ['/'], ¬ Glob.IsSpecial c := by
    intro c hc
    rcases List.mem_append.mp hc with hc | hc
    · exact hliteral c hc
    · rw [List.mem_singleton.mp hc]
      decide
  have htext : (folder.toString ++ "/").toList = folder.chars ++ ['/'] := by
    simp [Path.toString]
  have hexpand : expandPattern (folder.toString ++ "/") = folder.chars ++ ['/'] ++ ['*', '*'] := by
    rw [expandPattern, htext, List.getLast?_concat, if_pos rfl]
  have hparse := Glob.parse_folder folder.chars
  rw [Glob.literal_of_not_special hslash] at hparse
  rw [hexpand, hparse]

/-- The pattern for a folder can be read, and matches what goes on after the folder and a slash. -/
theorem covers_folder_iff (hliteral : ∀ c ∈ folder.chars, ¬ Glob.IsSpecial c) :
    Covers (folder.toString ++ "/") relative ↔ folder.chars ++ ['/'] <+: relative.chars := by
  have hmatch := @Glob.matchTokens_literal_iff (folder.chars ++ ['/']) relative.chars
    [.anyDirectories]
  unfold Covers
  rw [parse_folderPattern hliteral]
  simp only [Except.ok.injEq, exists_eq_left', Glob.isMatch, beq_iff_eq, hmatch,
    Glob.matchTokens_anyDirectories, and_true]
  exact exists_congr fun rest => eq_comm

/-! ### What a folder's pattern selects -/

/-- A folder in plain form without wildcards, written with a slash after it, is a pattern that matches
exactly what lies below the folder. So among the exclusions of a root, whatever the others are, it
takes away the files below the folder and no others, and among the inclusions it lets these in; it
selects neither the folder nor what stands beside it with a longer name. -/
theorem folder_pattern_selects_what_lies_below (hfolder : folder.IsPlain)
    (hrel : folder.isAbsolute = false) (hne : folder.chars ≠ [])
    (hliteral : ∀ c ∈ folder.chars, ¬ Glob.IsSpecial c) {base file : Path}
    (hbelow : base.below? file = some relative) (hrelative : relative.IsPlain) :
    let pattern := folder.toString ++ "/"
    let isBelow := folder.Contains relative ∧ ¬ Path.Same folder relative
    (matchesPattern relative pattern = pure (decide isBelow)) ∧
    (∀ included before after,
      ((⟨base, included, before ++ pattern :: after⟩ : SourceRoot).owns file).value = true ↔
        ¬ isBelow ∧ ((⟨base, included, before ++ after⟩ : SourceRoot).owns file).value = true) ∧
    (∀ before after excluded,
      ((⟨base, before ++ pattern :: after, excluded⟩ : SourceRoot).owns file).value = true ↔
        ((⟨base, [], excluded⟩ : SourceRoot).owns file).value = true ∧
          (isBelow ∨ ∃ p ∈ before ++ after, Covers p relative)) ∧
    (relative = folder → ¬ Covers pattern relative) ∧
    (∀ c more, relative.chars = folder.chars ++ c :: more → c ≠ '/' → ¬ Covers pattern relative) := by
  intro pattern isBelow
  have hcovers : Covers pattern relative ↔ isBelow :=
    (covers_folder_iff hliteral).trans (hfolder.slash_prefix_iff hrelative hrel hne)
  have hreadable : (matchesPattern relative pattern).notices = [] := by
    unfold matchesPattern
    rw [parse_folderPattern hliteral]
    rfl
  have howns : ∀ included excluded,
      ((⟨base, included, excluded⟩ : SourceRoot).owns file).value = true ↔
        (∀ p ∈ excluded, ¬ Covers p relative) ∧
          (included = [] ∨ ∃ p ∈ included, Covers p relative) := by
    intro included excluded
    simp [owns_value_iff, hbelow]
  have hmem : ∀ (before after : List String) p,
      p ∈ before ++ pattern :: after ↔ p = pattern ∨ p ∈ before ++ after := by
    intro before after p
    rw [List.mem_append, List.mem_cons, List.mem_append]
    exact or_left_comm
  refine ⟨Traced.ext ?_ hreadable, fun included before after => ?_, fun before after excluded => ?_,
    fun heq hc => ?_, fun c more htext hc hcover => ?_⟩
  · rw [Bool.eq_iff_iff, matchesPattern_value_iff, hcovers]
    exact decide_eq_true_iff.symm
  · rw [howns, howns, ← hcovers]
    simp only [hmem, forall_eq_or_imp, and_assoc]
  · rw [howns, howns, ← hcovers]
    simp only [hmem, exists_eq_or_imp, List.append_eq_nil_iff, List.cons_ne_nil, and_false,
      false_or, true_or, and_true]
  · exact (hcovers.mp hc).2 (congrArg Path.components heq.symm)
  · obtain ⟨rest, hrest⟩ := (covers_folder_iff hliteral).mp hcover
    rw [htext, List.append_assoc] at hrest
    have hslash := List.append_cancel_left hrest
    exact hc (List.cons.inj hslash).1.symm

/-- The folder `src/gen` has a hidden file in it and a neighbour with a longer name. -/
theorem folder_pattern_selects_what_lies_below_of_hidden :
    let folder : Path := .ofString "src/gen"
    let base : Path := .ofString "/ws/lib"
    let hidden : Path := .ofString "//ws/lib/./src/gen/.cache/G.code"
    let beside : Path := .ofString "/ws/lib/src/gen2/G.code"
    folder.IsPlain ∧ folder.isAbsolute = false ∧ folder.chars ≠ [] ∧
      (∀ c ∈ folder.chars, ¬ Glob.IsSpecial c) ∧
      base.below? hidden = some (.ofString "src/gen/.cache/G.code") ∧
      base.below? beside = some (.ofString "src/gen2/G.code") ∧
      (Path.ofString "src/gen/.cache/G.code").IsPlain ∧ (Path.ofString "src/gen2/G.code").IsPlain ∧
      ((⟨base, ["src/gen/"], []⟩ : SourceRoot).owns hidden).value = true ∧
      ((⟨base, [], ["src/gen/"]⟩ : SourceRoot).owns hidden).value = false ∧
      ((⟨base, [], ["src/gen/"]⟩ : SourceRoot).owns beside).value = true ∧
      ¬ Covers "src/gen/" (.ofString "src/gen2/G.code") := by
  intro folder base hidden beside
  have hplain : folder.IsPlain := by decide +kernel
  have hrel : folder.isAbsolute = false := by decide +kernel
  have hne : folder.chars ≠ [] := by decide +kernel
  have hletters : (folder.chars.all fun c => decide ¬ Glob.IsSpecial c) = true := by decide +kernel
  have hliteral : ∀ c ∈ folder.chars, ¬ Glob.IsSpecial c := fun c hc =>
    of_decide_eq_true (List.all_eq_true.mp hletters c hc)
  have hin : base.below? hidden = some (.ofString "src/gen/.cache/G.code") := by decide +kernel
  have hout : base.below? beside = some (.ofString "src/gen2/G.code") := by decide +kernel
  have hinPlain : (Path.ofString "src/gen/.cache/G.code").IsPlain := by decide +kernel
  have houtPlain : (Path.ofString "src/gen2/G.code").IsPlain := by decide +kernel
  have hunder : folder.Contains (.ofString "src/gen/.cache/G.code") ∧
      ¬ Path.Same folder (.ofString "src/gen/.cache/G.code") := by decide +kernel
  have hnext : ¬ (folder.Contains (.ofString "src/gen2/G.code") ∧
      ¬ Path.Same folder (.ofString "src/gen2/G.code")) := by decide +kernel
  have hall : ∀ file : Path, (base.below? file).isSome →
      ((⟨base, [], []⟩ : SourceRoot).owns file).value = true := by
    intro file hfile
    rw [owns_value_of_plain (by simp [HasPatterns])]
    exact hfile
  obtain ⟨-, hexcluded, hincluded, -⟩ :=
    folder_pattern_selects_what_lies_below hplain hrel hne hliteral hin hinPlain
  obtain ⟨-, hkept, -, -, hsibling⟩ :=
    folder_pattern_selects_what_lies_below hplain hrel hne hliteral hout houtPlain
  refine ⟨hplain, hrel, hne, hliteral, hin, hout, hinPlain, houtPlain, ?_, ?_, ?_, ?_⟩
  · exact (hincluded [] [] []).mpr ⟨hall hidden (by rw [hin]; rfl), Or.inl hunder⟩
  · rw [Bool.eq_false_iff]
    exact fun howned => ((hexcluded [] [] []).mp howned).1 hunder
  · exact (hkept [] [] []).mpr ⟨hnext, hall beside (by rw [hout]; rfl)⟩
  · exact hsibling '2' "/G.code".toList (by decide +kernel) (by decide)

end SourceRoot

end Buildpath
