/-!
# Blank characters, trimming and lines

Text is handled as a list of characters. A character is blank when it has the Unicode property
`White_Space`; trimming removes blanks at both ends. Lines end at a line feed, one carriage return
before it belongs to the ending, and a text that ends with a line feed has no empty line after it.

Models the texts of the standard library.
-/

namespace Buildpath.Text

/-- The characters with the Unicode property `White_Space`. -/
def isBlank (c : Char) : Bool :=
  let n := c.toNat
  (9 ≤ n && n ≤ 13) || n == 0x20 || n == 0x85 || n == 0xA0 || n == 0x1680 ||
    (0x2000 ≤ n && n ≤ 0x200A) || n == 0x2028 || n == 0x2029 || n == 0x202F || n == 0x205F ||
    n == 0x3000

/-! ### Trimming -/

/-- The text without its leading blanks. -/
def trimStart (cs : List Char) : List Char :=
  cs.dropWhile isBlank

/-- The text without its trailing blanks. -/
def trimEnd (cs : List Char) : List Char :=
  (cs.reverse.dropWhile isBlank).reverse

/-- The text without the blanks at both ends. -/
def trim (cs : List Char) : List Char :=
  trimEnd (trimStart cs)

/-- Whether nothing but blanks is there. -/
def isBlankText (cs : List Char) : Bool :=
  cs.all isBlank

@[simp] theorem trim_nil : trim [] = [] := rfl

/-! ### Cutting -/

/-- The pieces of a text between the occurrences of a separator; there is always at least one. -/
def splitOn (sep : Char) : List Char → List (List Char)
  | [] => [[]]
  | c :: cs =>
    if c = sep then [] :: splitOn sep cs
    else
      match splitOn sep cs with
      | [] => [[c]]
      | piece :: pieces => (c :: piece) :: pieces

theorem splitOn_ne_nil (sep : Char) (cs : List Char) : splitOn sep cs ≠ [] := by
  cases cs with
  | nil => simp [splitOn]
  | cons c cs =>
    unfold splitOn
    split
    · simp
    · split <;> simp

/-- What follows `start` when the text begins with it. -/
def stripStart? : List Char → List Char → Option (List Char)
  | [], cs => some cs
  | _ :: _, [] => none
  | p :: ps, c :: cs => if p = c then stripStart? ps cs else none

theorem stripStart?_append (p cs : List Char) : stripStart? p (p ++ cs) = some cs := by
  induction p with
  | nil => rfl
  | cons p ps ih => simp [stripStart?, ih]

/-- Whether the text ends with `tail`. -/
def endsWith (tail cs : List Char) : Bool :=
  (stripStart? tail.reverse cs.reverse).isSome

/-- The parts before and after the first occurrence of `mark`. -/
def cutAt? (mark : List Char) : List Char → Option (List Char × List Char)
  | [] => if mark = [] then some ([], []) else none
  | c :: cs =>
    match stripStart? mark (c :: cs) with
    | some rest => some ([], rest)
    | none => (cutAt? mark cs).map fun parts => (c :: parts.1, parts.2)

/-! ### Lines -/

/-- A line without the carriage return that ends it. -/
def dropReturn (line : List Char) : List Char :=
  match line.reverse with
  | '\r' :: rest => rest.reverse
  | _ => line

/-- The lines among pieces cut at line feeds: all but the last piece were ended by one. -/
def endedLines : List (List Char) → List (List Char)
  | [] => []
  | [last] => if last = [] then [] else [last]
  | line :: rest => dropReturn line :: endedLines rest

def lines (cs : List Char) : List (List Char) :=
  endedLines (splitOn '\n' cs)

end Buildpath.Text
