import Buildpath.Proofs.Codec.Timestamps
import Buildpath.Proofs.Problem.Output
import Buildpath.Rendering

/-!
# What the text for people tells

The text for people begins with a heading that depends on the module alone, and goes on with the lines of
the tree, an empty line and the footer (`humanText_eq`). As long as no entry holds a line feed, cutting
the text at the line feeds gives these lines back, and of them exactly those of the tree begin with a
connector (`treeLinesOf_body`). A line tells which entry it stands for unless the path of an archive and
the mark in front of the sources run into each other (`caption_inj`), so the whole text tells the entries
(`human_text_loses_nothing`).
-/

namespace Buildpath

variable {e f : Entry} {l k : List Entry} {line : List Char} {i : ℕ}

/-! ### Lines -/

namespace Classpath

theorem toList_unlines_cons (line : String) (lines : List String) :
    (unlines (line :: lines)).toList = line.toList ++ '\n' :: (unlines lines).toList := by
  simp [unlines, String.join_cons]

theorem unlines_append (before after : List String) :
    unlines (before ++ after) = unlines before ++ unlines after := by
  rw [unlines, List.map_append, String.join_append]
  rfl

/-- Cutting at the line feeds undoes putting lines together. -/
theorem splitOn_unlines {lines : List String} (h : ∀ line ∈ lines, '\n' ∉ line.toList) :
    Text.splitOn '\n' (unlines lines).toList = lines.map String.toList ++ [[]] := by
  induction lines with
  | nil => rfl
  | cons line rest ih =>
    obtain ⟨hline, hrest⟩ := List.forall_mem_cons.mp h
    rw [toList_unlines_cons, Text.splitOn_append hline, ih hrest]
    rfl

end Classpath

theorem Text.not_mem_toList_append {c : Char} {a b : String} (ha : c ∉ a.toList) (hb : c ∉ b.toList) :
    c ∉ (a ++ b).toList := by
  rw [String.toList_append, List.mem_append]
  exact not_or.mpr ⟨ha, hb⟩

theorem Timestamp.not_mem_padded {c : Char} (hc : c.isDigit = false) (width n : ℕ) :
    c ∉ (padded width n).toList := by
  intro hmem
  have hdigit : c.isDigit = true := (spells_padded width n).isDigit c hmem
  rw [hc] at hdigit
  cases hdigit

theorem Timestamp.not_mem_secondsText (t : Timestamp) : '\n' ∉ t.secondsText.toList := by
  have hpadded : ∀ width n, '\n' ∉ (padded width n).toList := not_mem_padded (by decide)
  have hyear : ∀ year, '\n' ∉ (yearText year).toList := by
    intro year
    unfold yearText
    split
    · exact hpadded 4 _
    · split <;> simp [hpadded]
  simp [secondsText, Civil.dateText, Civil.timeText, hpadded, hyear]

theorem Path.toList_toString (p : Path) : p.toString.toList = p.chars :=
  String.toList_ofList

/-! ### Entries -/

namespace Entry

/-- No line feed stands in the paths of the entry. -/
def IsOneLine : Entry → Prop
  | .module path => '\n' ∉ path.toList
  | .library archive sources => '\n' ∉ archive.chars ∧ ∀ s ∈ sources, '\n' ∉ s.chars

/-- What stands between an archive and its sources. -/
def sourcesMark : List Char := " (sources: ".toList

/-- Which kind of entry it is. -/
def tag : Entry → String
  | .module _ => "module"
  | .library _ _ => "library"

/-- The paths of a library as its caption shows them. -/
def pathsText (archive : Path) : Option Path → List Char
  | none => archive.chars
  | some s => archive.chars ++ sourcesMark ++ (s.chars ++ [')'])

theorem toList_caption_module (path : String) :
    (caption (.module path)).toList = "module  ".toList ++ path.toList :=
  String.toList_append

theorem toList_caption_library (archive : Path) (sources : Option Path) :
    (caption (.library archive sources)).toList = "library ".toList ++ pathsText archive sources := by
  cases sources with
  | none =>
    have hsplit : (caption (.library archive none)).toList =
        "library ".toList ++ archive.toString.toList := String.toList_append
    rw [hsplit, Path.toList_toString]
    rfl
  | some s =>
    have hsplit : ∀ a b c d e : String, (a ++ b ++ c ++ d ++ e).toList =
        a.toList ++ (b.toList ++ c.toList ++ (d.toList ++ e.toList)) := by
      intro a b c d e
      simp only [String.toList_append, List.append_assoc]
    rw [pathsText, ← Path.toList_toString archive, ← Path.toList_toString s]
    exact hsplit "library " archive.toString " (sources: " s.toString ")"

theorem not_mem_caption (h : e.IsOneLine) : '\n' ∉ e.caption.toList := by
  cases e with
  | module path =>
    have hmodule : '\n' ∉ "module  ".toList := by decide
    have hpath : '\n' ∉ path.toList := h
    exact Text.not_mem_toList_append hmodule hpath
  | library archive sources =>
    have hlibrary : '\n' ∉ "library ".toList := by decide
    obtain ⟨harchive, hsources⟩ := h
    rw [toList_caption_library, List.mem_append]
    refine not_or.mpr ⟨hlibrary, ?_⟩
    cases sources with
    | none => exact harchive
    | some s =>
      have hs : '\n' ∉ s.chars := hsources s rfl
      have hmark : '\n' ∉ sourcesMark := by decide
      have hclose : '\n' ∉ [')'] := by decide
      simp only [pathsText, List.mem_append, harchive, hmark, hs, hclose, or_self, not_false_eq_true]

/-- The caption begins with the kind of the entry. -/
theorem tag_prefix_caption (e : Entry) : (e.tag ++ " ").toList <+: e.caption.toList := by
  cases e with
  | module path =>
    have htag : "module  ".toList = ("module" ++ " ").toList ++ [' '] := by decide
    rw [toList_caption_module, htag, List.append_assoc]
    exact List.prefix_append _ _
  | library archive sources =>
    have htag : "library ".toList = ("library" ++ " ").toList := by decide
    rw [toList_caption_library, htag]
    exact List.prefix_append _ _

/-- The mark in front of sources is not in the path of the archive. -/
def IsMarkFree : Entry → Prop
  | .module _ => True
  | .library archive _ => ¬ sourcesMark <:+: archive.chars

/-- Sources follow, and the path of the archive ends with the mark without its last space, so that it runs
into the mark behind it. -/
def EndsInMark : Entry → Prop
  | .library archive (some _) => sourcesMark.dropLast <:+ archive.chars
  | _ => False

def IsUnambiguous (e : Entry) : Prop :=
  e.IsMarkFree ∧ ¬ e.EndsInMark

instance : DecidablePred IsOneLine
  | .module path => inferInstanceAs (Decidable ('\n' ∉ path.toList))
  | .library archive sources =>
    inferInstanceAs (Decidable ('\n' ∉ archive.chars ∧ ∀ s ∈ sources, '\n' ∉ s.chars))

instance : DecidablePred IsMarkFree
  | .module _ => isTrue trivial
  | .library archive _ => inferInstanceAs (Decidable (¬ sourcesMark <:+: archive.chars))

instance : DecidablePred EndsInMark
  | .module _ => isFalse id
  | .library _ none => isFalse id
  | .library archive (some _) => inferInstanceAs (Decidable (sourcesMark.dropLast <:+ archive.chars))

instance (e : Entry) : Decidable e.IsUnambiguous :=
  inferInstanceAs (Decidable (e.IsMarkFree ∧ ¬ e.EndsInMark))

/-- In front of the mark there is no other one. -/
theorem not_infix_archive {archive : List Char} (hinside : ¬ sourcesMark <:+: archive)
    (hend : ¬ sourcesMark.dropLast <:+ archive) :
    ¬ sourcesMark <:+: archive ++ sourcesMark.dropLast := by
  intro hfound
  have hsplit : archive ++ sourcesMark.dropLast = archive ++ [' '] ++ "(sources:".toList := by
    rw [List.append_assoc]
    rfl
  have hmark : sourcesMark = sourcesMark.dropLast ++ [' '] := rfl
  rw [hsplit, hmark] at hfound
  have hshort : sourcesMark.dropLast ++ [' '] <:+: archive ++ [' '] :=
    Text.infix_of_infix_append (by decide) hfound
  obtain ⟨before, after, heq⟩ := hshort
  rcases after.eq_nil_or_concat' with rfl | ⟨front, last, rfl⟩
  · rw [List.append_nil, ← List.append_assoc] at heq
    exact hend ⟨before, List.append_inj_left' heq rfl⟩
  · rw [← hmark, ← List.append_assoc] at heq
    exact hinside ⟨before, front, List.append_inj_left' heq rfl⟩

theorem pathsText_ne {archive other s : Path} (h : IsUnambiguous (.library archive none)) :
    pathsText archive none ≠ pathsText other (some s) := by
  intro heq
  have hfound : sourcesMark <:+: archive.chars := ⟨other.chars, s.chars ++ [')'], heq.symm⟩
  exact h.1 hfound

/-- The paths of a library with sources are cut at the mark. -/
theorem cutAt?_pathsText {archive s : Path} (h : IsUnambiguous (.library archive (some s))) :
    Text.cutAt? sourcesMark (pathsText archive (some s)) = some (archive.chars, s.chars ++ [')']) :=
  Text.cutAt?_append (by decide) (not_infix_archive h.1 h.2) _

theorem pathsText_inj {archive archive' : Path} {sources sources' : Option Path}
    (h : IsUnambiguous (.library archive sources)) (h' : IsUnambiguous (.library archive' sources'))
    (heq : pathsText archive sources = pathsText archive' sources') :
    archive = archive' ∧ sources = sources' := by
  cases sources with
  | none =>
    cases sources' with
    | none =>
      have hchars : archive.chars = archive'.chars := heq
      exact ⟨congrArg Path.mk hchars, rfl⟩
    | some s' => exact absurd heq (pathsText_ne h)
  | some s =>
    cases sources' with
    | none => exact absurd heq.symm (pathsText_ne h')
    | some s' =>
      have hcut := (cutAt?_pathsText h).symm.trans (heq ▸ cutAt?_pathsText h')
      obtain ⟨harchive, hs⟩ := Prod.mk.inj (Option.some.inj hcut)
      have hchars : s.chars = s'.chars := List.append_cancel_right hs
      exact ⟨congrArg Path.mk harchive, congrArg (some ∘ Path.mk) hchars⟩

/-- Captions tell the entries apart. -/
theorem caption_inj (he : e.IsUnambiguous) (hf : f.IsUnambiguous)
    (h : e.caption.toList = f.caption.toList) : e = f := by
  -- The kinds differ in the first character.
  have hkinds : ∀ cs ds, "module  ".toList ++ cs ≠ "library ".toList ++ ds := by
    intro cs ds heq
    have hhead : 'm' = 'l' := (List.cons.inj heq).1
    exact absurd hhead (by decide)
  cases e with
  | module path =>
    cases f with
    | module path' =>
      rw [toList_caption_module, toList_caption_module, List.append_cancel_left_eq] at h
      rw [String.toList_inj.mp h]
    | library archive' sources' =>
      rw [toList_caption_module, toList_caption_library] at h
      exact absurd h (hkinds _ _)
  | library archive sources =>
    cases f with
    | module path' =>
      rw [toList_caption_module, toList_caption_library] at h
      exact absurd h.symm (hkinds _ _)
    | library archive' sources' =>
      rw [toList_caption_library, toList_caption_library, List.append_cancel_left_eq] at h
      obtain ⟨rfl, rfl⟩ := pathsText_inj he hf h
      rfl

/-! ### The tree -/

/-- The line begins as the lines of a tree do. -/
def IsTreeLine (line : List Char) : Prop :=
  (connector true).toList <+: line ∨ (connector false).toList <+: line

instance (line : List Char) : Decidable (IsTreeLine line) :=
  inferInstanceAs (Decidable ((connector true).toList <+: line ∨ (connector false).toList <+: line))

theorem getElem?_treeLines (l : List Entry) (i : ℕ) :
    (treeLines l)[i]? = l[i]?.map fun e => connector (i + 1 == l.length) ++ e.caption := by
  induction l generalizing i with
  | nil => rfl
  | cons e rest ih =>
    cases i with
    | zero => cases rest <;> rfl
    | succ i => simp [treeLines, ih]

theorem not_mem_connector (isLast : Bool) : '\n' ∉ (connector isLast).toList := by
  cases isLast <;> decide

theorem length_connector (isLast : Bool) : (connector isLast).toList.length = 3 := by
  cases isLast <;> rfl

theorem isTreeLine_append (isLast : Bool) (cs : List Char) :
    IsTreeLine ((connector isLast).toList ++ cs) := by
  cases isLast with
  | true => exact Or.inl (List.prefix_append _ _)
  | false => exact Or.inr (List.prefix_append _ _)

theorem IsTreeLine.head? (h : IsTreeLine line) :
    line.head? = some '\u2514' ∨ line.head? = some '\u251c' := by
  rcases h with ⟨rest, rfl⟩ | ⟨rest, rfl⟩
  · exact Or.inl rfl
  · exact Or.inr rfl

/-- The closing connector differs from the other one. -/
theorem connector_prefix_iff (isLast : Bool) (cs : List Char) :
    (connector true).toList <+: (connector isLast).toList ++ cs ↔ isLast = true := by
  cases isLast with
  | true => exact iff_of_true (List.prefix_append _ _) rfl
  | false =>
    refine iff_of_false ?_ Bool.false_ne_true
    rintro ⟨rest, hrest⟩
    have hhead : '\u2514' = '\u251c' := (List.cons.inj hrest).1
    exact absurd hhead (by decide)

/-- The lines stand for the entries, one for each in their order: each begins with a connector and the kind
of its entry, and the closing connector is that of the last line alone. -/
structure Draws (entries : List Entry) (lines : List (List Char)) : Prop where
  length_eq : lines.length = entries.length
  tagged : ∀ (i : ℕ) (e : Entry) (line : List Char), entries[i]? = some e → lines[i]? = some line →
    ∃ isLast, (connector isLast ++ e.tag ++ " ").toList <+: line
  closed : ∀ (i : ℕ) (line : List Char), lines[i]? = some line →
    ((connector true).toList <+: line ↔ i + 1 = lines.length)

theorem draws_treeLines (l : List Entry) : Draws l ((treeLines l).map String.toList) where
  length_eq := by rw [List.length_map, length_treeLines]
  tagged i e line he hline := by
    rw [List.getElem?_map, getElem?_treeLines, he] at hline
    obtain rfl : (connector (i + 1 == l.length) ++ e.caption).toList = line := Option.some.inj hline
    obtain ⟨rest, hrest⟩ := tag_prefix_caption e
    have hparts : (connector (i + 1 == l.length) ++ e.caption).toList =
        (connector (i + 1 == l.length)).toList ++ ((e.tag ++ " ").toList ++ rest) := by
      rw [String.toList_append, hrest]
    refine ⟨i + 1 == l.length, rest, ?_⟩
    rw [hparts]
    simp only [String.toList_append, List.append_assoc]
  closed i line hline := by
    rw [List.getElem?_map, getElem?_treeLines] at hline
    rw [List.length_map, length_treeLines]
    cases he : l[i]? with
    | none =>
      rw [he] at hline
      cases hline
    | some e =>
      rw [he] at hline
      rw [← Option.some.inj hline, String.toList_append, connector_prefix_iff, beq_iff_eq]

theorem treeLines_inj (hl : ∀ e ∈ l, e.IsUnambiguous) (hk : ∀ e ∈ k, e.IsUnambiguous)
    (h : (treeLines l).map String.toList = (treeLines k).map String.toList) : l = k := by
  induction l generalizing k with
  | nil =>
    cases k with
    | nil => rfl
    | cons f others => cases h
  | cons e rest ih =>
    cases k with
    | nil => cases h
    | cons f others =>
      obtain ⟨he, hrest⟩ := List.forall_mem_cons.mp hl
      obtain ⟨hf, hothers⟩ := List.forall_mem_cons.mp hk
      obtain ⟨hline, hlines⟩ := List.cons.inj h
      have hconnectors : (connector rest.isEmpty).toList.length =
          (connector others.isEmpty).toList.length := by
        rw [length_connector, length_connector]
      rw [String.toList_append, String.toList_append] at hline
      have hcaption := List.append_inj_right hline hconnectors
      rw [caption_inj he hf hcaption, ih hrest hothers hlines]

end Entry

/-! ### The whole text -/

namespace Classpath

variable {c d : Classpath} {module : String}

theorem toList_rule : rule.toList = List.replicate 30 '\u2501' :=
  String.toList_ofList

def headingLines (module : String) : List String :=
  ["Classpath of " ++ module, rule, ""]

/-- What comes before the tree. -/
def heading (module : String) : String :=
  unlines (headingLines module)

def footer (c : Classpath) : String :=
  toString c.size ++ " entries, resolved at " ++ c.resolvedAt.secondsText

/-- The lines from the tree on. -/
def bodyLines (c : Classpath) : List String :=
  if c.entries.isEmpty then ["(no entries)"] else Entry.treeLines c.entries ++ ["", c.footer]

theorem humanText_eq (module : String) (c : Classpath) :
    c.humanText module = heading module ++ unlines c.bodyLines := by
  unfold humanText heading headingLines bodyLines
  by_cases hnone : c.entries.isEmpty = true
  · rw [if_pos hnone, if_pos hnone]
    exact unlines_append _ _
  · rw [if_neg hnone, if_neg hnone, ← unlines_append, ← List.append_assoc]
    rfl

theorem not_mem_footer (c : Classpath) : '\n' ∉ c.footer.toList := by
  have hcount : '\n' ∉ (toString c.size).toList := Text.not_mem_natText (by decide) c.size
  have hbetween : '\n' ∉ " entries, resolved at ".toList := by decide
  have htime : '\n' ∉ c.resolvedAt.secondsText.toList := Timestamp.not_mem_secondsText c.resolvedAt
  exact Text.not_mem_toList_append (Text.not_mem_toList_append hcount hbetween) htime

theorem not_mem_treeLines (h : ∀ e ∈ l, e.IsOneLine) :
    ∀ line ∈ Entry.treeLines l, '\n' ∉ line.toList := by
  induction l with
  | nil => exact fun line hline => absurd hline List.not_mem_nil
  | cons e rest ih =>
    obtain ⟨he, hrest⟩ := List.forall_mem_cons.mp h
    have hline : '\n' ∉ (Entry.connector rest.isEmpty ++ e.caption).toList :=
      Text.not_mem_toList_append (Entry.not_mem_connector _) (Entry.not_mem_caption he)
    exact List.forall_mem_cons.mpr ⟨hline, ih hrest⟩

theorem not_mem_bodyLines (h : ∀ e ∈ c.entries, e.IsOneLine) :
    ∀ line ∈ c.bodyLines, '\n' ∉ line.toList := by
  unfold bodyLines
  split
  · exact List.forall_mem_singleton.mpr (by decide)
  · refine List.forall_mem_append.mpr ⟨not_mem_treeLines h, ?_⟩
    refine List.forall_mem_cons.mpr ⟨List.not_mem_nil, ?_⟩
    exact List.forall_mem_singleton.mpr c.not_mem_footer

theorem splitOn_body (h : ∀ e ∈ c.entries, e.IsOneLine) :
    Text.splitOn '\n' (unlines c.bodyLines).toList = c.bodyLines.map String.toList ++ [[]] :=
  splitOn_unlines (not_mem_bodyLines h)

theorem bodyLines_of_entries (hne : c.entries ≠ []) :
    c.bodyLines = Entry.treeLines c.entries ++ ["", c.footer] := by
  rw [bodyLines, if_neg fun hempty => hne (List.isEmpty_iff.mp hempty)]

/-- The lines of a text that begin as those of a tree do. -/
def treeLinesOf (text : List Char) : List (List Char) :=
  (Text.splitOn '\n' text).filter (Entry.IsTreeLine ·)

theorem filter_treeLines (l : List Entry) :
    ((Entry.treeLines l).map String.toList).filter (Entry.IsTreeLine ·) =
      (Entry.treeLines l).map String.toList := by
  induction l with
  | nil => rfl
  | cons e rest ih =>
    have hline : Entry.IsTreeLine (Entry.connector rest.isEmpty ++ e.caption).toList := by
      rw [String.toList_append]
      exact Entry.isTreeLine_append _ _
    rw [Entry.treeLines, List.map_cons, List.filter_cons, decide_eq_true hline, if_pos rfl, ih]

theorem not_isTreeLine_footer (c : Classpath) : ¬ Entry.IsTreeLine c.footer.toList := by
  intro h
  have hne : Text.natText c.size ≠ [] := by simp [Text.natText_eq]
  obtain ⟨digit, rest, hdigits⟩ := List.exists_cons_of_ne_nil hne
  have hdigit : digit.isDigit = true := Text.isDigit_of_mem_natText (hdigits ▸ List.mem_cons_self)
  have hhead : c.footer.toList.head? = some digit := by
    have hcount : (toString c.size).toList = digit :: rest := hdigits
    rw [footer, String.toList_append, String.toList_append, hcount]
    rfl
  rcases h.head? with hfirst | hfirst
  · rw [hhead] at hfirst
    obtain rfl := Option.some.inj hfirst
    exact absurd hdigit (by decide)
  · rw [hhead] at hfirst
    obtain rfl := Option.some.inj hfirst
    exact absurd hdigit (by decide)

/-- Below the heading, the lines of the tree are those that begin as such. -/
theorem treeLinesOf_body (hne : c.entries ≠ []) (h : ∀ e ∈ c.entries, e.IsOneLine) :
    treeLinesOf (unlines c.bodyLines).toList = (Entry.treeLines c.entries).map String.toList := by
  have hempty : ¬ Entry.IsTreeLine [] := by decide
  have hrest : ([[], c.footer.toList, []].filter (Entry.IsTreeLine ·)) = [] := by
    simp [hempty, c.not_isTreeLine_footer]
  have hlines : c.bodyLines.map String.toList ++ [[]] =
      (Entry.treeLines c.entries).map String.toList ++ [[], c.footer.toList, []] := by
    rw [bodyLines_of_entries hne, List.map_append, List.append_assoc]
    rfl
  rw [treeLinesOf, splitOn_body h, hlines, List.filter_append, filter_treeLines, hrest,
    List.append_nil]

theorem not_isTreeLine_headingLines (module : String) :
    ∀ line ∈ headingLines module, ¬ Entry.IsTreeLine line.toList := by
  have htitle : ¬ Entry.IsTreeLine ("Classpath of " ++ module).toList := by
    intro htree
    rw [String.toList_append] at htree
    rcases htree.head? with hhead | hhead
    · exact absurd (Option.some.inj hhead) (by decide)
    · exact absurd (Option.some.inj hhead) (by decide)
  have hrule : ¬ Entry.IsTreeLine rule.toList := by
    rw [toList_rule]
    decide
  have hempty : ¬ Entry.IsTreeLine "".toList := by decide
  exact List.forall_mem_cons.mpr ⟨htitle, List.forall_mem_cons.mpr ⟨hrule,
    List.forall_mem_singleton.mpr hempty⟩⟩

/-- The heading of a module whose name stands on one line has no line of a tree. -/
theorem treeLinesOf_humanText (hmodule : '\n' ∉ module.toList) (h : ∀ e ∈ c.entries, e.IsOneLine) :
    treeLinesOf (c.humanText module).toList = treeLinesOf (unlines c.bodyLines).toList := by
  have hbefore : '\n' ∉ "Classpath of ".toList := by decide
  have htitle : '\n' ∉ ("Classpath of " ++ module).toList :=
    Text.not_mem_toList_append hbefore hmodule
  have hrule : '\n' ∉ rule.toList := by
    rw [toList_rule]
    decide
  have hlines : ∀ line ∈ headingLines module ++ c.bodyLines, '\n' ∉ line.toList := by
    refine List.forall_mem_append.mpr ⟨?_, not_mem_bodyLines h⟩
    exact List.forall_mem_cons.mpr ⟨htitle, List.forall_mem_cons.mpr ⟨hrule,
      List.forall_mem_singleton.mpr List.not_mem_nil⟩⟩
  have hnone : ((headingLines module).map String.toList).filter (Entry.IsTreeLine ·) = [] := by
    rw [List.filter_eq_nil_iff, List.forall_mem_map]
    intro line hline
    rw [decide_eq_true_eq]
    exact not_isTreeLine_headingLines module line hline
  rw [humanText_eq, heading, ← unlines_append, treeLinesOf, splitOn_unlines hlines, List.map_append,
    List.append_assoc, ← splitOn_body h, List.filter_append, hnone, List.nil_append]
  rfl

/-- The lines from the tree on tell the entries. -/
theorem entries_eq_of_bodyLines (hc : ∀ e ∈ c.entries, e.IsUnambiguous)
    (hd : ∀ e ∈ d.entries, e.IsUnambiguous)
    (h : c.bodyLines.map String.toList = d.bodyLines.map String.toList) : c.entries = d.entries := by
  have hlength := congrArg List.length h
  rw [List.length_map, List.length_map] at hlength
  by_cases hcn : c.entries = []
  · by_cases hdn : d.entries = []
    · rw [hcn, hdn]
    · rw [bodyLines_of_entries hdn, bodyLines, hcn, List.length_append] at hlength
      cases hlength
  · by_cases hdn : d.entries = []
    · rw [bodyLines_of_entries hcn, bodyLines, hdn, List.length_append] at hlength
      cases hlength
    · rw [bodyLines_of_entries hcn, bodyLines_of_entries hdn, List.map_append, List.map_append] at h
      have hends : (["", c.footer].map String.toList).length =
          (["", d.footer].map String.toList).length := by
        simp only [List.length_map, List.length_cons]
      exact Entry.treeLines_inj hc hd (List.append_inj_left' h hends)

/-- The texts of two classpaths for the same module are the same only if the entries are, provided that no
path holds a line feed and that no archive's path holds the mark in front of the sources or, where sources
follow, ends with the mark without its last space. Below the heading, the lines that begin as those of a
tree stand for the entries, the closing connector is that of the last one alone, and the footer counts
them; nothing else follows. If the module's name stands on one line these are the lines of the whole text
that begin so. All paths are text here; of others a lossy decoding is shown. -/
theorem human_text_loses_nothing (module : String) :
    (∀ c d : Classpath, (∀ e ∈ c.entries, e.IsOneLine ∧ e.IsUnambiguous) →
      (∀ e ∈ d.entries, e.IsOneLine ∧ e.IsUnambiguous) →
      c.render .human module = d.render .human module → c.entries = d.entries) ∧
    ∀ c : Classpath, c.entries ≠ [] → (∀ e ∈ c.entries, e.IsOneLine) →
      ∃ body lines time,
        c.render .human module = heading module ++ body ∧
        treeLinesOf body.toList = lines ∧ Entry.Draws c.entries lines ∧
        Text.splitOn '\n' body.toList =
          lines ++ [[], (toString lines.length ++ " entries, resolved at " ++ time).toList, []] ∧
        ('\n' ∉ module.toList → treeLinesOf (c.render .human module).toList = lines) := by
  refine ⟨?_, ?_⟩
  · intro c d hc hd htext
    have hbody : unlines c.bodyLines = unlines d.bodyLines := by
      have hboth : heading module ++ unlines c.bodyLines = heading module ++ unlines d.bodyLines :=
        (humanText_eq module c).symm.trans (htext.trans (humanText_eq module d))
      rw [← String.toList_inj, String.toList_append, String.toList_append,
        List.append_cancel_left_eq, String.toList_inj] at hboth
      exact hboth
    have hlines : c.bodyLines.map String.toList ++ [[]] = d.bodyLines.map String.toList ++ [[]] := by
      rw [← splitOn_body fun e he => (hc e he).1, ← splitOn_body fun e he => (hd e he).1, hbody]
    exact entries_eq_of_bodyLines (fun e he => (hc e he).2) (fun e he => (hd e he).2)
      (List.append_cancel_right hlines)
  · intro c hne hc
    have hcount : ((Entry.treeLines c.entries).map String.toList).length = c.size := by
      rw [List.length_map, Entry.length_treeLines]
      rfl
    refine ⟨unlines c.bodyLines, (Entry.treeLines c.entries).map String.toList,
      c.resolvedAt.secondsText, humanText_eq module c, treeLinesOf_body hne hc,
      Entry.draws_treeLines c.entries, ?_, ?_⟩
    · rw [splitOn_body hc, bodyLines_of_entries hne, List.map_append, List.append_assoc, hcount]
      rfl
    · intro hmodule
      exact (treeLinesOf_humanText hmodule hc).trans (treeLinesOf_body hne hc)

theorem human_text_loses_nothing_of_marked :
    let entries : List Entry := [.module "/lib", .library (.ofString "/x (sources:") none,
      .library (.ofString "/x") (some (.ofString "/s (sources: y)"))]
    let c : Classpath := ⟨entries, ⟨0, 0⟩⟩
    let d : Classpath := ⟨entries, ⟨0, 999⟩⟩
    (∀ e ∈ entries, e.IsOneLine ∧ e.IsUnambiguous) ∧
      c.render .human "app" = d.render .human "app" ∧ c.entries = d.entries ∧
      c.entries ≠ [] ∧ '\n' ∉ "app".toList ∧
      ∃ lines, treeLinesOf (c.render .human "app").toList = lines ∧ Entry.Draws entries lines ∧
        lines.length = 3 := by
  intro entries c d
  have hentries : ∀ e ∈ entries, e.IsOneLine ∧ e.IsUnambiguous := by decide +kernel
  have hne : c.entries ≠ [] := List.cons_ne_nil _ _
  have hmodule : '\n' ∉ "app".toList := by decide
  have htext : c.render .human "app" = d.render .human "app" := by decide +kernel
  obtain ⟨htold, hdrawn⟩ := human_text_loses_nothing "app"
  obtain ⟨body, lines, time, -, -, hdraws, -, hwhole⟩ :=
    hdrawn c hne fun e he => (hentries e he).1
  exact ⟨hentries, htext, htold c d hentries hentries htext, hne, hmodule, lines, hwhole hmodule,
    hdraws, hdraws.length_eq⟩

/-- An archive whose path ends as the mark begins has the text of another one whose sources begin so.
And of a path that is no text the lossy decoding is shown, which is that of other paths, too. -/
theorem mark_at_end_is_ambiguous :
    (let c : Classpath :=
      ⟨[.library (.ofString "/ws/x (sources:") (some (.ofString "/ws/s.jar"))], ⟨0, 0⟩⟩
    let d : Classpath :=
      ⟨[.library (.ofString "/ws/x") (some (.ofString "(sources: /ws/s.jar"))], ⟨0, 0⟩⟩
    (∀ e ∈ c.entries, e.IsOneLine ∧ e.IsMarkFree) ∧ (∀ e ∈ d.entries, e.IsOneLine ∧ e.IsMarkFree) ∧
      c.render .human "app" = d.render .human "app" ∧ c.entries ≠ d.entries ∧
      c.sameEntries d = false) ∧
    let first : List Utf8.Byte := [0x2F, 0xFF]
    let second : List Utf8.Byte := [0x2F, 0xFE]
    let showing (bytes : List Utf8.Byte) : Classpath := ⟨[.library (.shown bytes) none], ⟨0, 0⟩⟩
    first ≠ second ∧ Utf8.decode? first = none ∧ Utf8.decode? second = none ∧
      (showing first).render .human "app" = (showing second).render .human "app" := by
  decide +kernel

end Classpath

end Buildpath
