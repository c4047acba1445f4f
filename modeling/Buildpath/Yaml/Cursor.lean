/-!
# Places in a YAML text

A cursor is what is left of a text together with the place where it stands: how many characters
come before it, its line and its column. Lines end at a line feed, a carriage return, both in
this order, or one of the separators U+0085, U+2028 and U+2029.

Models the library `serde_yaml`.
-/

namespace Buildpath.Yaml

/-! ### Classes of characters -/

def isGap (c : Char) : Bool :=
  c == ' ' || c == '\t'

/-- The characters that end a line. -/
def isLineEnd (c : Char) : Bool :=
  c == '\n' || c == '\r' || c == '\u0085' || c == '\u2028' || c == '\u2029'

/-- Whether the next character, if there is one, separates words. -/
def atEdge : List Char → Bool
  | [] => true
  | c :: _ => isGap c || isLineEnd c

/-- Whether the line is at its end. -/
def atLineEnd : List Char → Bool
  | [] => true
  | c :: _ => isLineEnd c

/-- The characters of names: ASCII letters and digits, underscore and hyphen. -/
def isNameChar (c : Char) : Bool :=
  c.isAlphanum || c == '_' || c == '-'

def isAllowed (c : Char) : Bool :=
  let n := c.toNat
  n == 9 || n == 10 || n == 13 || (0x20 ≤ n && n ≤ 0x7E) || n == 0x85 ||
    (0xA0 ≤ n && n ≤ 0xD7FF) || (0xE000 ≤ n && n ≤ 0xFFFD) || 0x10000 ≤ n

/-! ### Cursors -/

/-- A place in a text and all that follows it. -/
structure Cursor where
  rest : List Char
  /-- The number of characters before the place. -/
  index : Nat
  line : Nat
  column : Nat
deriving DecidableEq, Repr

namespace Cursor

def start (text : List Char) : Cursor :=
  ⟨text, 0, 0, 0⟩

/-- The place `n` characters further on the same line. -/
def advance (n : Nat) (c : Cursor) : Cursor :=
  { c with rest := c.rest.drop n, index := c.index + n, column := c.column + n }

/-- The place after the characters that pass the test. -/
def skipWhile (p : Char → Bool) (c : Cursor) : Cursor :=
  c.advance (c.rest.takeWhile p).length

/-- The place after a line end, and the line end as scalars hold it. -/
def takeLineEnd (c : Cursor) : List Char × Cursor :=
  match c.rest with
  | '\r' :: '\n' :: rest => (['\n'], ⟨rest, c.index + 2, c.line + 1, 0⟩)
  | e :: rest =>
    (if e == '\u2028' || e == '\u2029' then [e] else ['\n'], ⟨rest, c.index + 1, c.line + 1, 0⟩)
  | [] => ([], c)

/-- The place after a line end. -/
def skipLineEnd (c : Cursor) : Cursor :=
  c.takeLineEnd.2

/-- The place after a comment, if one begins here. -/
def skipComment (c : Cursor) : Cursor :=
  match c.rest with
  | '#' :: _ => c.skipWhile (!isLineEnd ·)
  | _ => c

/-- The place at the start of the next line, if nothing but blanks and a comment comes before. -/
def finishLine? (c : Cursor) : Option Cursor :=
  let c := (c.skipWhile isGap).skipComment
  if atLineEnd c.rest then some c.skipLineEnd else none

/-- Whether the line begins with a mark that ends or starts a document. -/
def atDocumentMark (c : Cursor) : Bool :=
  c.column == 0 &&
    match c.rest with
    | '-' :: '-' :: '-' :: rest => atEdge rest
    | '.' :: '.' :: '.' :: rest => atEdge rest
    | _ => false

end Cursor

end Buildpath.Yaml
