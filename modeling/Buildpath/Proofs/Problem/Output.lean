import Buildpath.Problem
import Buildpath.Proofs.Text.Cutting
import Buildpath.Proofs.Text.Digits

/-!
# Problems in a build's output

A build mentions a problem on a line of its own (`Mention.text`). Such a line is read back to the
file, the line and the message, whatever colons there are in the file's name and in the message: the
message begins after the first colon with a space, and the numbers stand before it, after the last two
colons (`ofLine?_mention`). As lines are trimmed their endings do not matter, so the problems of an
output are those of the pieces between its line feeds (`ofOutput_eq`), and of what is written line by
line exactly the mentioned ones are found (`mentioned_problems_are_found`).
-/

namespace Buildpath

namespace Problem

/-! ### Lines and pieces -/

theorem ofLine?_of_trim_eq {line other : List Char} (h : Text.trim line = Text.trim other) :
    ofLine? line = ofLine? other := by
  unfold ofLine?
  rw [h]

theorem ofLine?_dropReturn (line : List Char) : ofLine? (Text.dropReturn line) = ofLine? line :=
  ofLine?_of_trim_eq (Text.trim_dropReturn line)

/-- Where the lines of an output end does not matter beyond the line feeds. -/
theorem ofOutput_eq (output : List Char) :
    ofOutput output = (Text.splitOn '\n' output).filterMap ofLine? :=
  Text.filterMap_lines ofLine?_dropReturn rfl output

theorem ofOutput_append (a b : List Char) :
    ofOutput (a ++ '\n' :: b) = ofOutput a ++ ofOutput b :=
  Text.filterMap_lines_append ofLine?_dropReturn rfl a b

theorem ofOutput_of_line {line : List Char} (h : '\n' ∉ line) :
    ofOutput line = (ofLine? line).toList := by
  rw [ofOutput_eq, Text.splitOn_of_not_mem h]
  cases hline : ofLine? line <;> simp [hline]

theorem ofOutput_return {line : List Char} (h : '\n' ∉ line) :
    ofOutput (line ++ ['\r']) = ofOutput line := by
  have hreturn : '\n' ∉ line ++ ['\r'] := by simp [h]
  rw [ofOutput_of_line hreturn, ofOutput_of_line h, ofLine?_of_trim_eq (Text.trim_return line)]

/-! ### Locations -/

theorem splitLastColon?_append (before : List Char) {after : List Char} (h : ':' ∉ after) :
    splitLastColon? (before ++ ':' :: after) = some (before, after) := by
  have hafter : (before ++ ':' :: after).reverse.takeWhile (· != ':') = after.reverse := by
    have hkept : ∀ c ∈ after.reverse, (c != ':') = true := by
      intro c hc
      simp only [bne_iff_ne]
      rintro rfl
      exact h (List.mem_reverse.mp hc)
    rw [List.reverse_append, List.reverse_cons, List.append_assoc,
      List.takeWhile_append_of_pos hkept]
    simp
  have hrest : (before ++ ':' :: after).reverse.drop after.reverse.length = ':' :: before.reverse := by
    rw [List.reverse_append, List.reverse_cons, List.append_assoc, List.drop_left]
    rfl
  unfold splitLastColon?
  simp only [hafter, hrest, List.reverse_reverse]

/-- The text of a location. -/
def location (file : List Char) (line column : ℕ) : List Char :=
  file ++ ':' :: (Text.natText line ++ ':' :: Text.natText column)

theorem placeOf?_location (file : List Char) {line column : ℕ} (hline : line < numberBound)
    (hcolumn : column < numberBound) : placeOf? (location file line column) = some (file, line) := by
  have hcolon : ∀ n, ':' ∉ Text.natText n := Text.not_mem_natText (by decide)
  have hsplit : splitLastColon? (location file line column) =
      some (file ++ ':' :: Text.natText line, Text.natText column) := by
    rw [location, ← List.cons_append, ← List.append_assoc]
    exact splitLastColon?_append _ (hcolon column)
  unfold placeOf?
  simp [hsplit, splitLastColon?_append file (hcolon line), Text.natBelow?_natText hline,
    Text.natBelow?_natText hcolumn]

/-- There is no colon with a space in a location unless the file's name holds one. -/
theorem not_infix_location {file : List Char} (h : ¬ messageMark <:+: file) (line column : ℕ) :
    ¬ messageMark <:+: location file line column ++ messageMark.dropLast := by
  have hspace : ' ' ∉ ':' :: (Text.natText line ++ ':' :: Text.natText column) ++ [':'] := by
    have hnumber : ∀ n, ' ' ∉ Text.natText n := Text.not_mem_natText (by decide)
    simp [hnumber]
  intro hfound
  rw [location, List.append_assoc] at hfound
  exact h (@Text.infix_of_infix_append file [':'] _ ' ' hspace hfound)

/-! ### Mentions -/

/-- A problem as a build mentions it: the file's name and the message stand on one line, there is no
colon with a space in the name, and the message ends with something that is no blank. -/
structure Mention where
  file : List Char
  line : ℕ
  column : ℕ
  message : List Char
  file_one_line : '\n' ∉ file
  file_unmarked : ¬ messageMark <:+: file
  line_lt : line < numberBound
  column_lt : column < numberBound
  message_one_line : '\n' ∉ message
  message_ne_nil : message ≠ []
  message_trimmed : Text.trimEnd message = message

namespace Mention

def text (m : Mention) : List Char :=
  errorMark ++ location m.file m.line m.column ++ messageMark ++ m.message

def problem (m : Mention) : Problem :=
  ⟨String.ofList m.file, some m.line, String.ofList m.message⟩

theorem trim_text (m : Mention) : Text.trim m.text = m.text := by
  have hstart : Text.trimStart m.text = m.text := rfl
  have hend : Text.trimEnd m.text = m.text :=
    Text.trimEnd_append_of_kept m.message_ne_nil m.message_trimmed _
  rw [Text.trim, hstart, hend]

/-- A mention is read back, with blanks around it or not. -/
theorem ofLine?_text (m : Mention) {before after : List Char}
    (hbefore : ∀ c ∈ before, Text.isBlank c = true) (hafter : ∀ c ∈ after, Text.isBlank c = true) :
    ofLine? (before ++ m.text ++ after) = some m.problem := by
  have htrim : Text.trim (before ++ m.text ++ after) = m.text := by
    rw [Text.trim_append hbefore hafter, m.trim_text]
  have hstrip : Text.stripStart? errorMark m.text =
      some (location m.file m.line m.column ++ messageMark ++ m.message) := by
    rw [text, List.append_assoc, List.append_assoc, Text.stripStart?_append, List.append_assoc]
  have hcut : Text.cutAt? messageMark (location m.file m.line m.column ++ messageMark ++ m.message) =
      some (location m.file m.line m.column, m.message) :=
    Text.cutAt?_append (by decide) (not_infix_location m.file_unmarked m.line m.column) m.message
  have hplace : atLocation (location m.file m.line m.column) m.message = m.problem := by
    unfold atLocation
    rw [placeOf?_location m.file m.line_lt m.column_lt]
    rfl
  rw [ofLine?, htrim, hstrip, Option.bind_eq_bind, Option.bind_some, hcut, Option.bind_eq_bind,
    Option.bind_some]
  exact congrArg some hplace

end Mention

/-- A line of an output: a mention of a problem among blanks, or something else. -/
inductive Line where
  | mention (before : List Char) (m : Mention) (after : List Char)
      (before_blank : ∀ c ∈ before, Text.isBlank c = true ∧ c ≠ '\n')
      (after_blank : ∀ c ∈ after, Text.isBlank c = true ∧ c ≠ '\n')
  | other (text : List Char) (one_line : '\n' ∉ text) (unmarked : ¬ errorMark <+: Text.trim text)

namespace Line

def text : Line → List Char
  | mention before m after _ _ => before ++ m.text ++ after
  | other text _ _ => text

/-- The problem that the line mentions. -/
def problem? : Line → Option Problem
  | mention _ m _ _ _ => some m.problem
  | other _ _ _ => none

theorem ofLine?_text (l : Line) : ofLine? l.text = l.problem? := by
  cases l with
  | mention before m after hbefore hafter =>
    exact m.ofLine?_text (fun c hc => (hbefore c hc).1) fun c hc => (hafter c hc).1
  | other text hline hmark =>
    have hstrip : Text.stripStart? errorMark (Text.trim text) = none :=
      Text.stripStart?_eq_none_iff.mpr hmark
    unfold ofLine?
    simp [Line.text, Line.problem?, hstrip]

theorem one_line (l : Line) : '\n' ∉ l.text := by
  cases l with
  | other text hline hmark => exact hline
  | mention before m after hbefore hafter =>
    have hnumber : ∀ n, '\n' ∉ Text.natText n := Text.not_mem_natText (by decide)
    have hmarks : '\n' ∉ errorMark ∧ '\n' ∉ messageMark := by decide
    have hbefore' : '\n' ∉ before := fun h => (hbefore _ h).2 rfl
    have hafter' : '\n' ∉ after := fun h => (hafter _ h).2 rfl
    simp [Line.text, Mention.text, location, hnumber, hmarks, hbefore', hafter', m.file_one_line,
      m.message_one_line]

end Line

/-- How a line ends. -/
inductive Ending where
  | feed
  | returnAndFeed
deriving DecidableEq, Repr

def Ending.text : Ending → List Char
  | feed => ['\n']
  | returnAndFeed => ['\r', '\n']

/-- The text of lines that are ended, before a last one that need not be. -/
def written (last : Line) : List (Line × Ending) → List Char
  | [] => last.text
  | (l, e) :: rest => l.text ++ e.text ++ written last rest

/-- The problems of an output are exactly those that its lines mention, in their order: each with the
file, the line and the message that were written, whatever stands around a mention, between the
mentions or at the ends of the lines. And for all texts, of two that are put together with a line feed
the problems are those of the first, then those of the second. -/
theorem mentioned_problems_are_found :
    (∀ (lines : List (Line × Ending)) (last : Line),
      ofOutput (written last lines) = (lines.map (·.1) ++ [last]).filterMap Line.problem?) ∧
    ∀ a b : List Char, ofOutput (a ++ '\n' :: b) = ofOutput a ++ ofOutput b := by
  refine ⟨fun lines last => ?_, ofOutput_append⟩
  induction lines with
  | nil =>
    rw [written, ofOutput_of_line last.one_line, last.ofLine?_text]
    cases hlast : last.problem? <;> simp [hlast]
  | cons first rest ih =>
    obtain ⟨l, e⟩ := first
    have hline : ofOutput (l.text ++ e.text ++ written last rest) =
        ofOutput l.text ++ ofOutput (written last rest) := by
      cases e with
      | feed => rw [Ending.text, List.append_assoc, List.singleton_append, ofOutput_append]
      | returnAndFeed =>
        rw [Ending.text, List.append_assoc, List.cons_append, List.singleton_append,
          List.append_cons, ofOutput_append, ofOutput_return l.one_line]
    rw [written, hline, ih, ofOutput_of_line l.one_line, l.ofLine?_text]
    cases hl : l.problem? <;> simp [hl]

/-- A target as the file's name, the greatest column and a message that looks like a location. -/
def colonMention : Mention where
  file := "//app:main".toList
  line := 12
  column := 4294967295
  message := "a: b:3:4: c".toList
  file_one_line := by decide +kernel
  file_unmarked := by decide +kernel
  line_lt := by decide +kernel
  column_lt := by decide +kernel
  message_one_line := by decide +kernel
  message_ne_nil := by decide +kernel
  message_trimmed := by decide +kernel

theorem mentioned_problems_are_found_of_colons :
    ofOutput "INFO: 2 targets\n\tERROR: //app:main:12:4294967295: a: b:3:4: c \r\nERROR:".toList =
      [⟨"//app:main", some 12, "a: b:3:4: c"⟩] := by
  obtain ⟨hfound, -⟩ := mentioned_problems_are_found
  refine Eq.trans (congrArg ofOutput ?_) (hfound
    [(.other "INFO: 2 targets".toList (by decide +kernel) (by decide +kernel), .feed),
      (.mention ['\t'] colonMention [' '] (List.forall_mem_singleton.mpr (by decide))
        (List.forall_mem_singleton.mpr (by decide)), .returnAndFeed)]
    (.other "ERROR:".toList (by decide +kernel) (by decide +kernel)))
  decide +kernel

end Problem

end Buildpath
