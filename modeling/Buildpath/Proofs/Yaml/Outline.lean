import Buildpath.Yaml.Printer
import Mathlib.Data.List.Chain

/-!
# The outline of a YAML document

The outline of a text are its lines that are neither empty nor indented. Where a string goes on over
several lines these are empty or indented (`hangs_stringText`), so that a string adds nothing to the
outline but the line on which it begins (`outline_string`); what belongs to a collection deeper inside
the document adds nothing at all. So the outline tells the members of a mapping and the items of the
sequences in it, whatever strings they hold (`outline_member`, `outline_sequence`, `outline_item`).
-/

namespace Buildpath.Yaml

/-! ### Lines -/

/-- A line that is neither empty nor indented. -/
def isTop (line : List Char) : Bool :=
  line.head?.any (· != ' ')

def outline (cs : List Char) : List (List Char) :=
  (cs.splitOnP isLineEnd).filter isTop

/-- No line ends in the text. -/
def IsOneLine (cs : List Char) : Prop :=
  ∀ c ∈ cs, isLineEnd c = false

/-- The line on which a text begins. -/
def firstLine (cs : List Char) : List Char :=
  cs.takeWhile (!isLineEnd ·)

/-- Every line after the first is empty or indented. -/
def Hangs (cs : List Char) : Prop :=
  cs.IsChain fun e c => isLineEnd e = true → isLineEnd c = true ∨ c = ' '

/-- The first line, too, is empty or indented. -/
def StartsIn (cs : List Char) : Prop :=
  ∀ c ∈ cs.head?, isLineEnd c = true ∨ c = ' '

instance (cs : List Char) : Decidable (IsOneLine cs) :=
  List.decidableBAll (isLineEnd · = false) cs

variable {cs line : List Char} {c : Char}

theorem IsOneLine.append {other : List Char} (h : IsOneLine line) (hother : IsOneLine other) :
    IsOneLine (line ++ other) :=
  List.forall_mem_append.mpr ⟨h, hother⟩

theorem outline_append_end (cs rest : List Char) (hc : isLineEnd c = true) :
    outline (cs ++ c :: rest) = outline cs ++ outline rest := by
  unfold outline
  rw [List.splitOnP_append_cons cs rest hc, List.filter_append]

theorem outline_line (h : IsOneLine line) : outline line = [line].filter isTop := by
  unfold outline
  rw [List.splitOnP_eq_singleton h]

theorem firstLine_append (h : IsOneLine line) (cs : List Char) :
    firstLine (line ++ cs) = line ++ firstLine cs :=
  List.takeWhile_append_of_pos fun c hc => by rw [h c hc]; rfl

theorem firstLine_eq (h : IsOneLine line) : firstLine line = line := by
  have hline := firstLine_append h []
  rw [List.append_nil] at hline
  exact hline.trans (List.append_nil line)

theorem isOneLine_firstLine (cs : List Char) : IsOneLine (firstLine cs) := by
  intro c hc
  have hinside : (!isLineEnd c) = true := List.all_eq_true.mp List.all_takeWhile c hc
  exact (Bool.not_eq_true' _).mp hinside

/-- A text is its first line, or a line end and more text follow. -/
theorem firstLine_cases (cs : List Char) :
    cs = firstLine cs ∨ ∃ e rest, cs = firstLine cs ++ e :: rest ∧ isLineEnd e = true := by
  have hsplit : firstLine cs ++ cs.dropWhile (!isLineEnd ·) = cs := List.takeWhile_append_dropWhile
  cases hrest : cs.dropWhile (!isLineEnd ·) with
  | nil =>
    rw [hrest, List.append_nil] at hsplit
    exact Or.inl hsplit.symm
  | cons e rest =>
    have he : (!isLineEnd e) = false := List.head?_dropWhile_not (!isLineEnd ·) cs |> fun h => by
      rw [hrest] at h
      simpa using h
    rw [hrest] at hsplit
    exact Or.inr ⟨e, rest, hsplit.symm, by simpa using he⟩

/-! ### Hanging texts -/

theorem hangs_of_isOneLine (h : IsOneLine cs) : Hangs cs := by
  induction cs with
  | nil => exact List.isChain_nil
  | cons c cs ih =>
    obtain ⟨hc, hcs⟩ := List.forall_mem_cons.mp h
    refine List.isChain_cons.mpr ⟨fun d _ hend => ?_, ih hcs⟩
    rw [hc] at hend
    cases hend

theorem Hangs.append (h : IsOneLine line) (hcs : Hangs cs) : Hangs (line ++ cs) := by
  refine List.isChain_append.mpr ⟨hangs_of_isOneLine h, hcs, fun e he c _ hend => ?_⟩
  rw [h e (List.mem_of_getLast? he)] at hend
  cases hend

theorem Hangs.cons (hcs : Hangs cs) (hstart : StartsIn cs) (e : Char) : Hangs (e :: cs) :=
  List.isChain_cons.mpr ⟨fun c hc _ => hstart c hc, hcs⟩

theorem firstLine_of_startsIn (h : StartsIn cs) : isTop (firstLine cs) = false := by
  cases cs with
  | nil => rfl
  | cons c cs =>
    rcases h c rfl with hend | rfl
    · simp [firstLine, hend, isTop]
    · have hspace : isLineEnd ' ' = false := by decide
      simp [firstLine, hspace, isTop]

/-- Only the first line of a hanging text is in the outline. -/
theorem outline_of_hangs (h : Hangs cs) : outline cs = [firstLine cs].filter isTop := by
  -- The induction is on the length, since the step goes from a line to the text after it.
  induction hlen : cs.length using Nat.strong_induction_on generalizing cs with
  | _ n ih =>
    rcases firstLine_cases cs with hline | ⟨e, rest, hsplit, he⟩
    · rw [hline, firstLine_eq (isOneLine_firstLine cs)]
      exact outline_line (isOneLine_firstLine cs)
    · have hlonger : Hangs (e :: rest) := by
        rw [Hangs, hsplit] at h
        exact h.right_of_append
      obtain ⟨hstart, hrest⟩ := List.isChain_cons.mp hlonger
      have hshort : rest.length < n := by
        rw [← hlen, hsplit, List.length_append, List.length_cons]
        omega
      have hnothing : outline rest = [] := by
        rw [ih rest.length hshort hrest rfl, List.filter_cons_of_neg]
        · rfl
        · rw [firstLine_of_startsIn fun c hc => hstart c hc he]
          exact Bool.false_ne_true
      rw [hsplit, outline_append_end _ _ he, hnothing, List.append_nil, ← hsplit]
      exact outline_line (isOneLine_firstLine cs)

/-! ### Strings -/

theorem isOneLine_indentTo (column : ℕ) : IsOneLine (indentTo column) := by
  intro c hc
  rw [(List.mem_replicate.mp hc).2]
  decide

theorem startsIn_indentTo {column : ℕ} (hcolumn : 0 < column) (cs : List Char) :
    StartsIn (indentTo column ++ cs) := by
  obtain ⟨n, rfl⟩ := Nat.exists_eq_add_one_of_ne_zero (Nat.ne_of_gt hcolumn)
  intro c hc
  cases hc
  exact Or.inr rfl

theorem hangs_indentLines {column : ℕ} (hcolumn : 0 < column) (newLine : Bool) (cs : List Char) :
    Hangs (indentLines column newLine cs) ∧
      (newLine = true → StartsIn (indentLines column newLine cs)) := by
  induction cs generalizing newLine with
  | nil => exact ⟨List.isChain_nil, fun _ => nofun⟩
  | cons c cs ih =>
    rw [indentLines]
    cases hend : isLineEnd c with
    | true =>
      obtain ⟨hrest, hstart⟩ := ih true
      refine ⟨hrest.cons (hstart rfl) c, fun _ d hd => ?_⟩
      cases hd
      exact Or.inl hend
    | false =>
      have hc : IsOneLine [c] := List.forall_mem_singleton.mpr hend
      have hrest : Hangs (c :: indentLines column false cs) := (ih false).1.append hc
      cases newLine with
      | true => exact ⟨hrest.append (isOneLine_indentTo column), fun _ => startsIn_indentTo hcolumn _⟩
      | false => exact ⟨hrest, nofun⟩

theorem getLast?_indentLines (column : ℕ) (newLine : Bool) (cs : List Char) :
    (indentLines column newLine cs).getLast? = cs.getLast? := by
  induction cs generalizing newLine with
  | nil => rfl
  | cons c cs ih =>
    have hrest : ∀ start : List Char, ∀ newLine,
        (start ++ c :: indentLines column newLine cs).getLast? = (c :: cs).getLast? := by
      intro start newLine
      rw [List.getLast?_append, List.getLast?_cons, List.getLast?_cons, ih]
      rfl
    rw [indentLines]
    split
    · exact hrest [] true
    · split
      · exact hrest _ false
      · exact hrest [] false

theorem getLast?_doubleQuotes (cs : List Char) : (doubleQuotes cs).getLast? = cs.getLast? := by
  rcases cs.eq_nil_or_concat' with rfl | ⟨front, c, rfl⟩
  · rfl
  · unfold doubleQuotes
    rw [List.flatMap_append, List.getLast?_append, List.getLast?_append]
    by_cases hc : c = '\'' <;> simp [hc]

theorem hangs_singleQuoted {column : ℕ} (hcolumn : 0 < column) (cs : List Char) :
    Hangs (singleQuoted column cs) := by
  have hquote : IsOneLine ['\''] := by decide
  have hinside : Hangs ('\'' :: indentLines column false (doubleQuotes cs)) :=
    (hangs_indentLines hcolumn false _).1.append hquote
  have hlast : ∀ e, e ∈ ('\'' :: indentLines column false (doubleQuotes cs)).getLast? →
      isLineEnd e = true → cs.getLast?.any isLineEnd = true := by
    intro e he hend
    rw [List.getLast?_cons, getLast?_indentLines, getLast?_doubleQuotes] at he
    cases hcs : cs.getLast? with
    | none =>
      rw [hcs] at he
      cases he
      exact absurd hend (by decide)
    | some c =>
      rw [hcs] at he
      cases he
      exact hend
  unfold singleQuoted
  rw [List.append_assoc]
  refine List.isChain_append.mpr ⟨hinside, ?_, fun e he c hc hend => ?_⟩
  · split
    · exact (hangs_of_isOneLine hquote).append (isOneLine_indentTo column)
    · exact hangs_of_isOneLine hquote
  · rw [if_pos (hlast e he hend)] at hc
    exact startsIn_indentTo hcolumn _ c hc

theorem isOneLine_upperHex (n width : ℕ) : IsOneLine (upperHex n width) := by
  have hdigit : ∀ k < 16, isLineEnd (upperHexDigit k) = false := by decide
  induction width with
  | zero => exact nofun
  | succ width ih =>
    exact List.forall_mem_cons.mpr ⟨hdigit _ (Nat.mod_lt _ (by decide)), ih⟩

theorem mem_of_lookup {l : List (Char × Char)} {d : Char} (h : l.lookup c = some d) :
    (c, d) ∈ l := by
  obtain ⟨before, after, rfl, -⟩ := List.lookup_eq_some_iff.mp h
  exact List.mem_append_right _ List.mem_cons_self

theorem isOneLine_doubleQuoted (cs : List Char) : IsOneLine (doubleQuoted cs) := by
  have hletters : IsOneLine (escapeLetters.map Prod.snd) := by decide
  have hescaped : ∀ c, IsOneLine (escaped c) := by
    intro c
    unfold escaped
    split
    · rename_i hplain
      simp only [Bool.and_eq_true, Bool.not_eq_true'] at hplain
      exact List.forall_mem_singleton.mpr hplain.1.1.2
    · split
      · rename_i letter hletter
        exact List.forall_mem_cons.mpr ⟨by decide, List.forall_mem_singleton.mpr
          (hletters _ (List.mem_map_of_mem (mem_of_lookup hletter)))⟩
      · have hnumber : ∀ sign : Char, isLineEnd sign = false → ∀ n width,
            IsOneLine ('\\' :: sign :: upperHex n width) := fun sign hsign n width =>
          List.forall_mem_cons.mpr ⟨by decide,
            List.forall_mem_cons.mpr ⟨hsign, isOneLine_upperHex n width⟩⟩
        dsimp only
        split
        · exact hnumber 'x' (by decide) _ _
        · split
          · exact hnumber 'u' (by decide) _ _
          · exact hnumber 'U' (by decide) _ _
  refine IsOneLine.append (List.forall_mem_cons.mpr ⟨by decide, fun c hc => ?_⟩) (by decide)
  obtain ⟨d, -, hd⟩ := List.mem_flatMap.mp hc
  exact hescaped d c hd

theorem isOneLine_of_plain (h : Style.of cs = .plain) : IsOneLine cs := by
  have hallowed : allowsPlain cs = true := by
    unfold Style.of at h
    split at h
    · split at h <;> cases h
    · split at h
      · rename_i hplain
        exact (Bool.and_eq_true_iff.mp hplain).2
      · split at h <;> cases h
  simp only [allowsPlain, Bool.and_eq_true, Bool.not_eq_true'] at hallowed
  intro c hc
  exact Bool.eq_false_iff.mpr fun hend => List.any_eq_false.mp hallowed.1.1.1.1.2 c hc hend

/-- A string goes on over lines that are empty or indented. -/
theorem hangs_stringText {column : ℕ} (hcolumn : 0 < column) (s : String) :
    Hangs (stringText column s) := by
  unfold stringText
  dsimp only
  split
  · rename_i hstyle
    exact hangs_of_isOneLine (isOneLine_of_plain hstyle)
  · exact hangs_singleQuoted hcolumn _
  · exact hangs_of_isOneLine (isOneLine_doubleQuoted _)
  · obtain ⟨hlines, hstart⟩ := hangs_indentLines hcolumn true s.toList
    have hsigns : IsOneLine ('|' :: blockSigns s.toList) := by
      have hsign : ∀ c, c ∈ blockSigns s.toList → c = '2' ∨ c = '-' ∨ c = '+' := by
        intro c hc
        unfold blockSigns at hc
        rcases List.mem_append.mp hc with hc | hc
        · split at hc <;> simp_all
        · split at hc
          · simp_all
          · split at hc
            · simp_all
            · split at hc
              · simp_all
              · split at hc <;> simp_all
      refine List.forall_mem_cons.mpr ⟨by decide, fun c hc => ?_⟩
      rcases hsign c hc with rfl | rfl | rfl <;> decide
    exact (hlines.cons (hstart rfl) '\n').append hsigns

/-! ### Collections -/

theorem outline_endLine_append (cs rest : List Char) :
    outline (endLine cs ++ rest) = outline cs ++ outline rest := by
  unfold endLine
  split
  · rename_i hended
    rcases cs.eq_nil_or_concat' with rfl | ⟨front, c, rfl⟩
    · rfl
    · have hc : isLineEnd c = true := by simpa using hended
      rw [List.append_assoc, List.singleton_append, outline_append_end _ _ hc,
        outline_append_end _ _ hc]
      simp [outline, isTop]
  · rw [List.append_assoc, List.singleton_append]
    exact outline_append_end cs rest (by decide)

theorem append_endLine (line : List Char) (hcs : cs ≠ []) :
    line ++ endLine cs = endLine (line ++ cs) := by
  have hlast : (line ++ cs).getLast? = cs.getLast? := by
    rw [List.getLast?_append]
    cases hend : cs.getLast? with
    | none => exact absurd (List.getLast?_eq_none_iff.mp hend) hcs
    | some c => rfl
  unfold endLine
  rw [hlast]
  split
  · rfl
  · exact (List.append_assoc line cs _).symm

/-- Of a string, what comes before it on its first line and this line are in the outline. -/
theorem outline_string (hline : IsOneLine line) {column : ℕ} (hcolumn : 0 < column) (s : String)
    (rest : List Char) :
    outline (line ++ (endLine (' ' :: stringText column s) ++ rest)) =
      [line ++ ' ' :: firstLine (stringText column s)].filter isTop ++ outline rest := by
  have hspace : IsOneLine [' '] := by decide
  have hhangs : Hangs (line ++ ' ' :: stringText column s) :=
    ((hangs_stringText hcolumn s).append hspace).append hline
  have hfirst : firstLine (line ++ ' ' :: stringText column s) =
      line ++ ' ' :: firstLine (stringText column s) := by
    rw [firstLine_append hline]
    exact congrArg (line ++ ·) (firstLine_append hspace _)
  rw [← List.append_assoc, append_endLine line (List.cons_ne_nil _ _), outline_endLine_append,
    outline_of_hangs hhangs, hfirst]

theorem valueText_string (isItem : Bool) (depth : ℕ) (s : String) :
    valueText isItem depth (.string s) = endLine (' ' :: stringText (depth + 2) s) := rfl

theorem valueText_bool (depth : ℕ) (b : Bool) :
    valueText false depth (.bool b) = if b then " true\n".toList else " false\n".toList := rfl

theorem valueText_nil (depth : ℕ) : valueText false depth (.array []) = " []\n".toList := rfl

theorem valueText_array (depth : ℕ) {items : List Json} (hne : items ≠ []) :
    valueText false depth (.array items) = '\n' :: itemsText depth items := by
  cases items with
  | nil => exact absurd rfl hne
  | cons j rest => rfl

theorem valueText_item (depth : ℕ) (m : String × Json) (l : List (String × Json)) :
    valueText true depth (.object (m :: l)) =
      ' ' :: (membersText (depth + 2) (m :: l)).drop (depth + 2) := rfl

/-- A member that is a string shows its key and the first line of the string. -/
theorem outline_member {key : String} (hkey : IsOneLine (keyText key)) (depth : ℕ) (s : String)
    (l : List (String × Json)) (rest : List Char) :
    outline (membersText depth ((key, .string s) :: l) ++ rest) =
      [indentTo depth ++ keyText key ++ [':'] ++
          ' ' :: firstLine (stringText (depth + 2) s)].filter isTop ++
        outline (membersText depth l ++ rest) := by
  have hline : IsOneLine (indentTo depth ++ keyText key ++ [':']) :=
    ((isOneLine_indentTo depth).append hkey).append (by decide)
  rw [membersText, valueText_string, ← outline_string hline (Nat.succ_pos _)]
  simp only [List.append_assoc, List.cons_append, List.nil_append]

/-- A key of the document, which can be seen in the outline. -/
def IsPlainKey (key : String) : Prop :=
  IsOneLine (keyText key) ∧ isTop (keyText key) = true

instance (key : String) : Decidable (IsPlainKey key) :=
  inferInstanceAs (Decidable (IsOneLine (keyText key) ∧ isTop (keyText key) = true))

theorem isTop_append (h : isTop line = true) (cs : List Char) : isTop (line ++ cs) = true := by
  cases line with
  | nil => cases h
  | cons c line => exact h

/-- A member of the document that is a string shows its key and the first line of the string. -/
theorem outline_top_member {key : String} (hkey : IsPlainKey key) (s : String)
    (l : List (String × Json)) :
    outline (membersText 0 ((key, .string s) :: l)) =
      (keyText key ++ ':' :: ' ' :: firstLine (stringText 2 s)) :: outline (membersText 0 l) := by
  have hmember := outline_member hkey.1 0 s l []
  have hline : indentTo 0 ++ keyText key ++ [':'] ++ ' ' :: firstLine (stringText (0 + 2) s) =
      keyText key ++ ':' :: ' ' :: firstLine (stringText 2 s) := by
    simp [indentTo]
  rw [List.append_nil, List.append_nil, hline,
    List.filter_cons_of_pos (isTop_append hkey.2 _)] at hmember
  exact hmember

/-- A member whose text is a single line is in the outline. -/
theorem outline_short_member {key : String} (hkey : IsPlainKey key) {j : Json} {text : List Char}
    (hj : valueText false 0 j = text ++ ['\n']) (htext : IsOneLine text) (l : List (String × Json)) :
    outline (membersText 0 ((key, j) :: l)) =
      (keyText key ++ ':' :: text) :: outline (membersText 0 l) := by
  have hcolon : IsOneLine [':'] := by decide
  have hline : IsOneLine (keyText key ++ ':' :: text) := hkey.1.append (hcolon.append htext)
  have hparts : membersText 0 ((key, j) :: l) =
      keyText key ++ ':' :: text ++ '\n' :: membersText 0 l := by
    rw [membersText, hj]
    simp [indentTo]
  rw [hparts, outline_append_end _ _ (by decide), outline_line hline,
    List.filter_cons_of_pos (isTop_append hkey.2 _)]
  rfl

/-- A sequence has its key in the outline and its items after it. -/
theorem outline_sequence {key : String} (hkey : IsPlainKey key) {items : List Json} (hne : items ≠ [])
    (l : List (String × Json)) :
    outline (membersText 0 ((key, .array items) :: l)) =
      (keyText key ++ [':']) :: outline (itemsText 0 items ++ membersText 0 l) := by
  have hline : IsOneLine (keyText key ++ [':']) := hkey.1.append (by decide)
  have hparts : membersText 0 ((key, .array items) :: l) =
      keyText key ++ [':'] ++ '\n' :: (itemsText 0 items ++ membersText 0 l) := by
    rw [membersText, valueText_array 0 hne]
    simp [indentTo]
  rw [hparts, outline_append_end _ _ (by decide), outline_line hline,
    List.filter_cons_of_pos (isTop_append hkey.2 _)]
  rfl

/-- Strings that are members of a collection inside the document add nothing. -/
theorem outline_members_inside (depth : ℕ) (l : List (String × String))
    (hkeys : ∀ m ∈ l, IsOneLine (keyText m.1)) (rest : List Char) :
    outline (membersText (depth + 1) (l.map fun m => (m.1, .string m.2)) ++ rest) =
      outline rest := by
  induction l with
  | nil =>
    rw [List.map_nil, membersText]
    rfl
  | cons m l ih =>
    obtain ⟨hkey, hrest⟩ := List.forall_mem_cons.mp hkeys
    rw [List.map_cons, outline_member hkey, ih hrest]
    rfl

/-- An item that is a mapping of strings shows its first member. -/
theorem outline_item {key : String} (hkey : IsOneLine (keyText key)) (s : String)
    (l : List (String × String)) (hkeys : ∀ m ∈ l, IsOneLine (keyText m.1)) (items : List Json)
    (rest : List Char) :
    outline (itemsText 0 (.object ((key, .string s) :: l.map fun m => (m.1, .string m.2)) :: items) ++
        rest) =
      ('-' :: ' ' :: (keyText key ++ ':' :: ' ' :: firstLine (stringText 4 s))) ::
        outline (itemsText 0 items ++ rest) := by
  have hline : IsOneLine ('-' :: ' ' :: (keyText key ++ [':'])) :=
    List.forall_mem_cons.mpr ⟨by decide, List.forall_mem_cons.mpr ⟨by decide,
      hkey.append (by decide)⟩⟩
  have htext : itemsText 0
        (.object ((key, .string s) :: l.map fun m => (m.1, .string m.2)) :: items) ++ rest =
      '-' :: ' ' :: (keyText key ++ [':']) ++ (endLine (' ' :: stringText 4 s) ++
        (membersText 2 (l.map fun m => (m.1, .string m.2)) ++ (itemsText 0 items ++ rest))) := by
    rw [itemsText, valueText_item, membersText, valueText_string]
    simp [indentTo]
  rw [htext, outline_string hline (by decide), outline_members_inside 1 l hkeys,
    List.filter_cons_of_pos rfl]
  simp

end Buildpath.Yaml
