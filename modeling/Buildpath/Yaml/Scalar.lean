import Buildpath.Yaml.Cursor

/-!
# Scalars as they are written

The text that a scalar stands for, and the place after it: plain scalars, scalars in single or
double quotes, and block scalars. Where a scalar runs over several lines, a single line end
becomes a space and each empty line a line feed; only literal blocks keep their lines. The
`margin` is the column at which the lines of a scalar may begin. The fuel of a loop bounds the
number of characters that it may look at.

Models the library `serde_yaml`.
-/

namespace Buildpath.Yaml

/-! ### Between words -/

/-- What stands between two words of a scalar. -/
structure Gap where
  /-- Blanks on the line of the first word, if the second stands on the same. -/
  spaces : List Char
  /-- Whether the second word begins on a later line. -/
  broken : Bool
  /-- The first line end. -/
  first : List Char
  /-- The line ends of the empty lines that follow. -/
  others : List Char
deriving DecidableEq, Repr

namespace Gap

/-- Nothing between two words. -/
def empty : Gap := ⟨[], false, [], []⟩

/-- A line end that does not count. -/
def continued : Gap := ⟨[], true, [], []⟩

def text (g : Gap) : List Char :=
  if !g.broken then g.spaces
  else if g.first = ['\n'] then if g.others = [] then [' '] else g.others
  else g.first ++ g.others

/-- Reads blanks and line ends; fails at a tab before the margin. -/
def take? (margin : Nat) : Nat → Gap → Cursor → Option (Gap × Cursor)
  | 0, g, c => some (g, c)
  | fuel + 1, g, c =>
    match c.rest with
    | [] => some (g, c)
    | x :: _ =>
      if isGap x then
        if g.broken then
          if x == '\t' && decide (c.column < margin) then none
          else take? margin fuel g (c.advance 1)
        else take? margin fuel { g with spaces := g.spaces ++ [x] } (c.advance 1)
      else if isLineEnd x then
        let (e, c) := c.takeLineEnd
        take? margin fuel
          (if g.broken then { g with others := g.others ++ e } else ⟨[], true, e, []⟩) c
      else some (g, c)

end Gap

/-! ### Plain scalars -/

/-- The characters that have a meaning of their own in flow collections. -/
def isFlowMark (c : Char) : Bool :=
  c == ',' || c == '[' || c == ']' || c == '\x7b' || c == '\x7d'

/-- Whether a colon before this text is refused in a flow collection. -/
def refusesColon : List Char → Bool
  | [] => false
  | c :: _ => isFlowMark c || c == '?'

def plainWord? (flow : Bool) : List Char → Option Nat
  | [] => some 0
  | c :: rest =>
    if isGap c || isLineEnd c then some 0
    else if c == ':' && flow && refusesColon rest then none
    else if c == ':' && atEdge rest then some 0
    else if flow && isFlowMark c then some 0
    else (plainWord? flow rest).map (· + 1)

/-- A scalar and where it ends. -/
structure Read where
  text : List Char
  /-- Whether lines were ended between the last word and the place after. -/
  broken : Bool
  after : Cursor
deriving DecidableEq, Repr

/-- Reads on in a plain scalar of which `text` and then a gap have been read. -/
def plainFrom? (flow : Bool) (margin : Nat) : Nat → List Char → Gap → Cursor → Option Read
  | 0, _, _, _ => none
  | fuel + 1, text, gap, c =>
    if c.atDocumentMark || c.rest.head? == some '#' then some ⟨text, gap.broken, c⟩
    else do
      match ← plainWord? flow c.rest with
      | 0 => some ⟨text, gap.broken, c⟩
      | n =>
        let text := text ++ gap.text ++ c.rest.take n
        let c := c.advance n
        let (gap, c) ← Gap.take? margin c.rest.length .empty c
        if gap = .empty then some ⟨text, false, c⟩
        else if !flow && decide (c.column < margin) then some ⟨text, gap.broken, c⟩
        else plainFrom? flow margin fuel text gap c

def plain? (flow : Bool) (margin : Nat) (c : Cursor) : Option Read :=
  plainFrom? flow margin (c.rest.length + 1) [] .empty c

/-! ### Quoted scalars -/

/-- The word at the front of a scalar in single quotes, and the number of its characters. -/
def singleWord : List Char → List Char × Nat
  | '\'' :: '\'' :: rest =>
    let (word, n) := singleWord rest
    ('\'' :: word, n + 2)
  | c :: rest =>
    if isGap c || isLineEnd c || c == '\'' then ([], 0)
    else
      let (word, n) := singleWord rest
      (c :: word, n + 1)
  | [] => ([], 0)

/-- The character for which one letter after a backslash stands. -/
def escaped? : Char → Option Char
  | '0' => some '\x00'
  | 'a' => some '\x07'
  | 'b' => some '\x08'
  | 't' | '\t' => some '\t'
  | 'n' => some '\n'
  | 'v' => some '\x0b'
  | 'f' => some '\x0c'
  | 'r' => some '\r'
  | 'e' => some '\x1b'
  | ' ' => some ' '
  | '"' => some '"'
  | '/' => some '/'
  | '\\' => some '\\'
  | 'N' => some '\u0085'
  | '_' => some '\u00a0'
  | 'L' => some '\u2028'
  | 'P' => some '\u2029'
  | _ => none

/-- The number of hexadecimal digits after a backslash and this letter. -/
def escapeWidth? : Char → Option Nat
  | 'x' => some 2
  | 'u' => some 4
  | 'U' => some 8
  | _ => none

def hexDigit? (c : Char) : Option Nat :=
  if c.isDigit then some (c.toNat - '0'.toNat)
  else if 'a' ≤ c && c ≤ 'f' then some (c.toNat - 'a'.toNat + 10)
  else if 'A' ≤ c && c ≤ 'F' then some (c.toNat - 'A'.toNat + 10)
  else none

/-- The number that exactly `n` hexadecimal digits spell. -/
def hexNumber? (n : Nat) (cs : List Char) : Option Nat :=
  if cs.length < n then none
  else (cs.take n).foldlM (fun value c => (hexDigit? c).map (value * 16 + ·)) 0

/-- The character with this number, unless it is a surrogate or there is none. -/
def character? (n : Nat) : Option Char :=
  if n.isValidChar then some (Char.ofNat n) else none

/-- What a backslash and the text after it stand for, and how much of the text that takes. -/
def escape? : List Char → Option (Char × Nat)
  | [] => none
  | letter :: rest =>
    match escapeWidth? letter with
    | some n => do return (← character? (← hexNumber? n rest), n + 1)
    | none => (escaped? letter).map (·, 1)

/-- Reads the word at the front of a scalar in double quotes; a backslash at the end of a line
ends the word and the line does not count as ended. -/
def doubleWord? : Nat → List Char → Cursor → Option (List Char × Gap × Cursor)
  | 0, word, c => some (word, .empty, c)
  | fuel + 1, word, c =>
    match c.rest with
    | [] => some (word, .empty, c)
    | '\\' :: rest =>
      if rest ≠ [] ∧ atLineEnd rest then some (word, .continued, (c.advance 1).skipLineEnd)
      else do
        let (x, n) ← escape? rest
        doubleWord? fuel (word ++ [x]) (c.advance (n + 1))
    | x :: _ =>
      if isGap x || isLineEnd x || x == '"' then some (word, .empty, c)
      else doubleWord? fuel (word ++ [x]) (c.advance 1)

def quotedWord? (quote : Char) (c : Cursor) : Option (List Char × Gap × Cursor) :=
  if quote == '"' then doubleWord? (c.rest.length + 1) [] c
  else
    let (word, n) := singleWord c.rest
    some (word, .empty, c.advance n)

/-- Reads on in a quoted scalar of which `text` has been read. -/
def quotedFrom? (quote : Char) : Nat → List Char → Cursor → Option Read
  | 0, _, _ => none
  | fuel + 1, text, c =>
    if c.atDocumentMark || c.rest = [] then none
    else do
      let (word, gap, c) ← quotedWord? quote c
      if c.rest.head? == some quote then some ⟨text ++ word, false, c.advance 1⟩
      else
        let (gap, c) ← Gap.take? 0 c.rest.length gap c
        quotedFrom? quote fuel (text ++ word ++ gap.text) c

def quoted? (quote : Char) (c : Cursor) : Option Read :=
  quotedFrom? quote (c.rest.length + 1) [] (c.advance 1)

/-! ### Block scalars -/

/-- What becomes of the line ends at the end of a block. -/
inductive Chomping where
  | strip
  | clip
  | keep
deriving DecidableEq, Repr

/-- What is said on the first line of a block. -/
structure BlockHeader where
  chomping : Chomping
  /-- How far the block is indented, if that is said. -/
  indent : Option Nat
deriving DecidableEq, Repr

def chomping? : Char → Option Chomping
  | '-' => some .strip
  | '+' => some .keep
  | _ => none

/-- The signs at the front of a block header, and their number; an indentation is not zero. -/
def blockHeader? : List Char → Option (BlockHeader × Nat)
  | [] => some (⟨.clip, none⟩, 0)
  | c :: rest =>
    match chomping? c with
    | some chomping =>
      match rest with
      | d :: _ =>
        if d == '0' then none
        else if d.isDigit then some (⟨chomping, hexDigit? d⟩, 2)
        else some (⟨chomping, none⟩, 1)
      | [] => some (⟨chomping, none⟩, 1)
    | none =>
      if c == '0' then none
      else if c.isDigit then
        match rest.head?.bind chomping? with
        | some chomping => some (⟨chomping, hexDigit? c⟩, 2)
        | none => some (⟨.clip, hexDigit? c⟩, 1)
      else some (⟨.clip, none⟩, 0)

/-- The number of spaces to skip so that the column does not pass `indent`, if it is known. -/
def indentation (indent : Option Nat) (c : Cursor) : Nat :=
  let spaces := (c.rest.takeWhile (· == ' ')).length
  match indent with
  | none => spaces
  | some n => min spaces (n - c.column)

/-- The indentation and the empty lines before a line of a block. -/
structure EmptyLines where
  deepest : Nat
  ends : List Char
  after : Cursor
deriving DecidableEq, Repr

/-- Reads indentation and empty lines; fails at a tab in the indentation. -/
def emptyLines? (indent : Option Nat) : Nat → Nat → List Char → Cursor → Option EmptyLines
  | 0, deepest, ends, c => some ⟨deepest, ends, c⟩
  | fuel + 1, deepest, ends, c =>
    let c := c.advance (indentation indent c)
    let deepest := max deepest c.column
    match c.rest with
    | [] => some ⟨deepest, ends, c⟩
    | x :: _ =>
      if x == '\t' && indent.all (decide <| c.column < ·) then none
      else if isLineEnd x then
        let (e, c) := c.takeLineEnd
        emptyLines? indent fuel deepest (ends ++ e) c
      else some ⟨deepest, ends, c⟩

/-- The lines of a block that have been read. -/
structure Block where
  text : List Char
  /-- The line end after the text. -/
  last : List Char
  /-- The line ends of the empty lines after that. -/
  others : List Char
  /-- Whether the last line began with a blank. -/
  indented : Bool
  after : Cursor
deriving DecidableEq, Repr

/-- The block with one more line, which begins where the block ends. -/
def Block.addLine? (folded : Bool) (indent : Nat) (b : Block) : Option Block := do
  let c := b.after
  let indented := c.rest.head?.any isGap
  let joint :=
    if folded && b.last = ['\n'] && !b.indented && !indented then
      if b.others = [] then [' '] else b.others
    else b.last ++ b.others
  let line := c.rest.takeWhile (!isLineEnd ·)
  let (last, c) := (c.advance line.length).takeLineEnd
  let blanks ← emptyLines? (some indent) (c.rest.length + 1) 0 [] c
  return ⟨b.text ++ joint ++ line, last, blanks.ends, indented, blanks.after⟩

def Block.addLines? (folded : Bool) (indent : Nat) : Nat → Block → Option Block
  | 0, b => some b
  | fuel + 1, b =>
    if b.after.column = indent ∧ b.after.rest ≠ [] then do
      addLines? folded indent fuel (← b.addLine? folded indent)
    else some b

def Block.value (b : Block) : Chomping → List Char
  | .strip => b.text
  | .clip => b.text ++ b.last
  | .keep => b.text ++ b.last ++ b.others

/-- The block scalar at a place, inside a collection with the given margin. -/
def block? (folded : Bool) (margin : Nat) (c : Cursor) : Option Read := do
  let c := c.advance 1
  let (header, n) ← blockHeader? c.rest
  let c ← (c.advance n).finishLine?
  let said := header.indent.map (margin - 1 + ·)
  let blanks ← emptyLines? said (c.rest.length + 1) 0 [] c
  let indent := said.getD (max blanks.deepest (max margin 1))
  let start : Block := ⟨[], [], blanks.ends, false, blanks.after⟩
  let b ← start.addLines? folded indent (blanks.after.rest.length + 1)
  return ⟨b.value header.chomping, false, b.after⟩

end Buildpath.Yaml
