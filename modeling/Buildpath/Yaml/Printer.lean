import Buildpath.Yaml.Meaning

/-!
# Writing YAML

A JSON value as a YAML document. Collections are written in block style, two spaces deeper for
each mapping, with the items of a sequence as deep as the key it belongs to. A string is written
plain if that can only be read as this text; one that holds a line feed is written as a block, and
the others in quotes, double ones where single ones cannot hold the text.

Models the library `serde_yaml`.
-/

namespace Buildpath.Yaml

/-! ### How a string may be written -/

def isPrintable (c : Char) : Bool :=
  let n := c.toNat
  n == 10 || (0x20 ≤ n && n ≤ 0x7E) || (0xA0 ≤ n && n ≠ 0xFEFF && n ≠ 0xFFFE && n ≠ 0xFFFF)

/-- Whether a character of the first kind is followed by one of the second. -/
def hasPair (p q : Char → Bool) : List Char → Bool
  | a :: b :: rest => (p a && q b) || hasPair p q (b :: rest)
  | _ => false

def isSpace (c : Char) : Bool :=
  c == ' '

/-- Whether a plain scalar may not go on with this character, after a blank or not. -/
def breaksPlain (afterBlank : Bool) : List Char → Bool
  | [] => false
  | c :: rest =>
    (c == ':' && atEdge rest) || (c == '#' && afterBlank) ||
      breaksPlain (isGap c || isLineEnd c) rest

/-- Whether a plain scalar may not begin so. -/
def startsMarked : List Char → Bool
  | [] => false
  | c :: rest =>
    "#,[]\x7b\x7d&*!|>'\"%@\x60".toList.contains c ||
      ("?:-".toList.contains c && atEdge rest) ||
      [['-', '-', '-'], ['.', '.', '.']].contains ((c :: rest).take 3)

def needsEscapes (cs : List Char) : Bool :=
  cs.any (!isPrintable ·) || hasPair isSpace isLineEnd cs

def allowsPlain (cs : List Char) : Bool :=
  let isOuter (c : Char) := isSpace c || isLineEnd c
  !needsEscapes cs && !cs.any isLineEnd && !cs.head?.any isOuter && !cs.getLast?.any isOuter &&
    !startsMarked cs && !breaksPlain false cs

def allowsSingle (cs : List Char) : Bool :=
  !needsEscapes cs && !hasPair isLineEnd isSpace cs

def allowsBlock (cs : List Char) : Bool :=
  !needsEscapes cs && !cs.getLast?.any isSpace

/-- How a string is written. -/
inductive Style where
  | plain
  | single
  | double
  | literal
deriving DecidableEq, Repr

def Style.of (cs : List Char) : Style :=
  if isOnlyText cs && cs.contains '\n' then if allowsBlock cs then .literal else .double
  else if isOnlyText cs && allowsPlain cs then .plain
  else if allowsSingle cs then .single
  else .double

/-! ### Strings -/

def indentTo (column : Nat) : List Char :=
  List.replicate column ' '

/-- The text with every line after the first, that is not empty, indented to a column. -/
def indentLines (column : Nat) : Bool → List Char → List Char
  | _, [] => []
  | newLine, c :: rest =>
    if isLineEnd c then c :: indentLines column true rest
    else if newLine then indentTo column ++ c :: indentLines column false rest
    else c :: indentLines column false rest

/-- The text with every quote written twice. -/
def doubleQuotes (cs : List Char) : List Char :=
  cs.flatMap fun c => if c == '\'' then ['\'', '\''] else [c]

def singleQuoted (column : Nat) (cs : List Char) : List Char :=
  let closing := if cs.getLast?.any isLineEnd then indentTo column else []
  '\'' :: indentLines column false (doubleQuotes cs) ++ closing ++ ['\'']

/-- The letters after a backslash that stand for a character each. -/
def escapeLetters : List (Char × Char) :=
  [('\x00', '0'), ('\x07', 'a'), ('\x08', 'b'), ('\t', 't'), ('\n', 'n'), ('\x0b', 'v'),
    ('\x0c', 'f'), ('\r', 'r'), ('\x1b', 'e'), ('"', '"'), ('\\', '\\'), ('\u0085', 'N'),
    ('\u00a0', '_'), ('\u2028', 'L'), ('\u2029', 'P')]

def upperHexDigit (n : Nat) : Char :=
  Char.ofNat (if n < 10 then 48 + n else 55 + n)

/-- The `width` last hexadecimal digits of a number. -/
def upperHex (n : Nat) : Nat → List Char
  | 0 => []
  | width + 1 => upperHexDigit (n / Nat.pow 16 width % 16) :: upperHex n width

def escaped (c : Char) : List Char :=
  if isPrintable c && !isLineEnd c && c != '"' && c != '\\' then [c]
  else
    match escapeLetters.lookup c with
    | some letter => ['\\', letter]
    | none =>
      let n := c.toNat
      if n ≤ 0xFF then '\\' :: 'x' :: upperHex n 2
      else if n ≤ 0xFFFF then '\\' :: 'u' :: upperHex n 4
      else '\\' :: 'U' :: upperHex n 8

def doubleQuoted (cs : List Char) : List Char :=
  '"' :: cs.flatMap escaped ++ ['"']

/-- What the first line of a block says about the lines after it. -/
def blockSigns (cs : List Char) : List Char :=
  let indent := if cs.head?.any fun c => isSpace c || isLineEnd c then ['2'] else []
  let chomping := match cs.reverse with
    | [] => ['-']
    | last :: rest =>
      if !isLineEnd last then ['-']
      else match rest with
        | [] => ['+']
        | c :: _ => if isLineEnd c then ['+'] else []
  indent ++ chomping

def blockText (column : Nat) (cs : List Char) : List Char :=
  '|' :: blockSigns cs ++ '\n' :: indentLines column true cs

def stringText (column : Nat) (s : String) : List Char :=
  let cs := s.toList
  match Style.of cs with
  | .plain => cs
  | .single => singleQuoted column cs
  | .double => doubleQuoted cs
  | .literal => blockText column cs

/-! ### Collections -/

/-- The text with a line feed after it, unless its last line is ended. -/
def endLine (cs : List Char) : List Char :=
  if cs.getLast?.any isLineEnd then cs else cs ++ ['\n']

/-- A key of a mapping; it stays on one line. -/
def keyText (key : String) : List Char :=
  if Style.of key.toList = .literal then doubleQuoted key.toList else stringText 0 key

mutual

/-- What follows the sign before a value: the value on the same line, or on lines of its own. A
collection that is an item of another begins on the same line. The collection around the value is
`depth` columns deep. -/
def valueText (isItem : Bool) (depth : Nat) : Json → List Char
  | .null | .unreadable => " null\n".toList
  | .bool b => if b then " true\n".toList else " false\n".toList
  | .integer n => ' ' :: (toString n).toList ++ ['\n']
  | .real mantissa exponent => (" " ++ toString mantissa ++ "e" ++ toString exponent ++ "\n").toList
  | .string s => endLine (' ' :: stringText (depth + 2) s)
  | .array items =>
    if items.isEmpty then " []\n".toList
    else if isItem then ' ' :: (itemsText (depth + 2) items).drop (depth + 2)
    else '\n' :: itemsText depth items
  | .object members =>
    if members.isEmpty then " \x7b\x7d\n".toList
    else if isItem then ' ' :: (membersText (depth + 2) members).drop (depth + 2)
    else '\n' :: membersText (depth + 2) members

/-- The items of a sequence, `depth` columns deep. -/
def itemsText (depth : Nat) : List Json → List Char
  | [] => []
  | j :: rest => indentTo depth ++ '-' :: valueText true depth j ++ itemsText depth rest

/-- The members of a mapping, `depth` columns deep. -/
def membersText (depth : Nat) : List (String × Json) → List Char
  | [] => []
  | (key, j) :: rest =>
    indentTo depth ++ keyText key ++ ':' :: valueText false depth j ++ membersText depth rest

end

def documentText (j : Json) : List Char :=
  match j with
  | .object [] => "\x7b\x7d\n".toList
  | .object members => membersText 0 members
  | .array [] => "[]\n".toList
  | .array items => itemsText 0 items
  | _ => (valueText false 0 j).drop 1

end Buildpath.Yaml

namespace Buildpath.Json

def yaml (j : Json) : String :=
  String.ofList (Yaml.documentText j)

end Buildpath.Json
