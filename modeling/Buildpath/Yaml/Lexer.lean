import Buildpath.Yaml.Token

/-!
# From text to tokens

`Token.ofText?` cuts a text into tokens. A key of a mapping is only known to be one when the colon
after it is reached, so the lexer remembers, for the block and for each flow collection around the
place, where a key may have begun, and puts the key's token in there later. Such a key stays on
one line and is at most 1024 characters long.

Models the library `serde_yaml`.
-/

namespace Buildpath.Yaml

/-- A place where a key may have begun. -/
structure PossibleKey where
  /-- The number of tokens before it. -/
  position : Nat
  /-- Whether nothing but a key may stand there. -/
  required : Bool
  index : Nat
  line : Nat
  column : Nat
deriving DecidableEq, Repr

/-- The state of the lexer. -/
structure Lexer where
  cursor : Cursor
  /-- The tokens so far, the last one first. -/
  tokens : List Token
  /-- The columns of the block collections around the place, innermost first. -/
  indents : List Nat
  keyAllowed : Bool
  possible : Option PossibleKey
  /-- The same for the collections around the innermost flow collection. -/
  outer : List (Option PossibleKey)
deriving Repr

namespace Lexer

def start (text : List Char) : Lexer :=
  ⟨.start text, [], [], true, none, []⟩

def inFlow (s : Lexer) : Bool :=
  !s.outer.isEmpty

/-- The least column of what belongs to the innermost block collection. -/
def margin (s : Lexer) : Nat :=
  match s.indents with
  | [] => 0
  | n :: _ => n + 1

def push (t : Token) (s : Lexer) : Lexer :=
  { s with tokens := t :: s.tokens }

/-- The state with a token put in after the first `position` ones. -/
def insert (position : Nat) (t : Token) (s : Lexer) : Lexer :=
  let later := s.tokens.length - position
  { s with tokens := s.tokens.take later ++ t :: s.tokens.drop later }

/-- The state after a token of `n` characters. -/
def pushMark (t : Token) (n : Nat) (s : Lexer) : Lexer :=
  { s.push t with cursor := s.cursor.advance n }

/-! ### Keys -/

/-- Whether the key can no longer be completed at the place. -/
def isStale (c : Cursor) (k : PossibleKey) : Bool :=
  decide (k.line < c.line) || decide (k.index + 1024 < c.index)

/-- The key, if it can still be completed; fails if it has to be but cannot. -/
def refresh? (c : Cursor) : Option PossibleKey → Option (Option PossibleKey)
  | none => some none
  | some k => if isStale c k then if k.required then none else some none else some (some k)

/-- The state without the keys that can no longer be completed. -/
def dropStale? (s : Lexer) : Option Lexer := do
  return { s with
    possible := ← refresh? s.cursor s.possible
    outer := ← s.outer.mapM (refresh? s.cursor) }

/-- The state in which no key of the innermost collection has begun. -/
def dropKey? (s : Lexer) : Option Lexer :=
  if s.possible.any (·.required) then none else some { s with possible := none }

def saveKey? (s : Lexer) : Option Lexer := do
  if s.keyAllowed then
    let s ← s.dropKey?
    let c := s.cursor
    let required := !s.inFlow && s.indents.head? == some c.column
    return { s with possible := some ⟨s.tokens.length, required, c.index, c.line, c.column⟩ }
  else return s

/-- The state in which keys may or may not begin. -/
def allowKey (allowed : Bool) (s : Lexer) : Lexer :=
  { s with keyAllowed := allowed }

/-! ### Indentation -/

/-- Begins a block collection, with its token after the first `position` ones, if the column lies
beyond the innermost one. -/
def openBlock (column position : Nat) (t : Token) (s : Lexer) : Lexer :=
  if s.inFlow || decide (column < s.margin) then s
  else { s.insert position t with indents := column :: s.indents }

/-- Ends the block collections that begin at or beyond a column. -/
def closeBlocks (column : Nat) (s : Lexer) : Lexer :=
  if s.inFlow then s
  else
    let ended := s.indents.takeWhile (column ≤ ·)
    { s with
      tokens := ended.map (fun _ => .blockEnd) ++ s.tokens
      indents := s.indents.drop ended.length }

/-! ### Between tokens -/

/-- Skips blanks, comments and line ends. Tabs are blanks only where no key may begin, and outside
flow collections a key may begin on every new line. -/
def skipGaps : Nat → Lexer → Lexer
  | 0, s => s
  | fuel + 1, s =>
    let c := s.cursor
    let c := if c.index == 0 && c.rest.head? == some '\ufeff' then c.advance 1 else c
    let tabs := s.inFlow || !s.keyAllowed
    let c := (c.skipWhile fun x => x == ' ' || (tabs && x == '\t')).skipComment
    if c.rest ≠ [] ∧ atLineEnd c.rest then
      skipGaps fuel { s with cursor := c.skipLineEnd, keyAllowed := s.keyAllowed || !s.inFlow }
    else { s with cursor := c }

/-! ### The tokens -/

/-- A token that ends all blocks: a directive or a document mark. -/
def atMargin? (token? : Cursor → Option (Token × Cursor)) (s : Lexer) : Option Lexer := do
  let s ← (s.closeBlocks 0).dropKey?
  let (t, c) ← token? s.cursor
  return { s.push t with cursor := c, keyAllowed := false }

def openFlow? (t : Token) (s : Lexer) : Option Lexer := do
  let s ← s.saveKey?
  return ({ s with possible := none, outer := s.possible :: s.outer }.allowKey true).pushMark t 1

/-- The end of a flow collection. -/
def closeFlow? (t : Token) (s : Lexer) : Option Lexer := do
  let s ← s.dropKey?
  let s := match s.outer with
    | [] => s
    | k :: outer => { s with possible := k, outer }
  return (s.allowKey false).pushMark t 1

def comma? (s : Lexer) : Option Lexer := do
  return ((← s.dropKey?).allowKey true).pushMark .comma 1

/-- The sign before an item of a block sequence. -/
def item? (s : Lexer) : Option Lexer := do
  if !s.inFlow && !s.keyAllowed then none
  else
    let s := s.openBlock s.cursor.column s.tokens.length .blockSequence
    return ((← s.dropKey?).allowKey true).pushMark .item 1

/-- The sign before a key. -/
def key? (s : Lexer) : Option Lexer := do
  if !s.inFlow && !s.keyAllowed then none
  else
    let s := s.openBlock s.cursor.column s.tokens.length .blockMapping
    return ((← s.dropKey?).allowKey (!s.inFlow)).pushMark .key 1

/-- The colon after a key. -/
def value? (s : Lexer) : Option Lexer :=
  match s.possible with
  | some k =>
    let s := (s.insert k.position .key).openBlock k.column k.position .blockMapping
    some (({ s with possible := none }.allowKey false).pushMark .value 1)
  | none =>
    if !s.inFlow && !s.keyAllowed then none
    else
      let s := s.openBlock s.cursor.column s.tokens.length .blockMapping
      some ((s.allowKey (!s.inFlow)).pushMark .value 1)

/-- A token that may begin a key, after which none may begin. -/
def part? (token? : Cursor → Option (Token × Cursor)) (s : Lexer) : Option Lexer := do
  let s ← s.saveKey?
  let (t, c) ← token? s.cursor
  return { s.push t with cursor := c, keyAllowed := false }

/-- A block scalar, after which a new line begins. -/
def blockScalar? (folded : Bool) (s : Lexer) : Option Lexer := do
  let s ← s.dropKey?
  let r ← block? folded s.margin s.cursor
  return { s.push (.scalar false r.text) with cursor := r.after, keyAllowed := true }

def quotedScalar? (quote : Char) (s : Lexer) : Option Lexer :=
  s.part? fun c => do
    let r ← quoted? quote c
    return (.scalar false r.text, r.after)

/-- A plain scalar, after which a key may begin if it is followed by a new line. -/
def plainScalar? (s : Lexer) : Option Lexer := do
  let s ← s.saveKey?
  let r ← plain? s.inFlow s.margin s.cursor
  return { s.push (.scalar true r.text) with cursor := r.after, keyAllowed := r.broken }

/-- Whether a plain scalar may begin with this character before this text. -/
def beginsPlain (flow : Bool) (c : Char) (rest : List Char) : Bool :=
  if c == '-' then !(rest.head?.any isGap)
  else if c == '?' || c == ':' then !flow && !atEdge rest
  else !isGap c && !isLineEnd c && !",[]\x7b\x7d#&*!|>'\"%@\x60".toList.contains c

/-- The state after the token that begins with `c` before the text `rest`. -/
def next? (c : Char) (rest : List Char) (s : Lexer) : Option Lexer :=
  let marked := s.inFlow || atEdge rest
  if c == '%' && s.cursor.column == 0 then s.atMargin? directive?
  else if s.cursor.atDocumentMark then
    s.atMargin? fun at_ => some (if c == '-' then .documentStart else .documentEnd, at_.advance 3)
  else if c == '[' then s.openFlow? .openSequence
  else if c == '\x7b' then s.openFlow? .openMapping
  else if c == ']' then s.closeFlow? .closeSequence
  else if c == '\x7d' then s.closeFlow? .closeMapping
  else if c == ',' then s.comma?
  else if c == '-' && atEdge rest then s.item?
  else if c == '?' && marked then s.key?
  else if c == ':' && marked then s.value?
  else if c == '*' then
    s.part? fun at_ => (anchorName? at_).map fun (name, after) => (.reference name, after)
  else if c == '&' then
    s.part? fun at_ => (anchorName? at_).map fun (name, after) => (.anchor name, after)
  else if c == '!' then s.part? (tag? s.inFlow)
  else if c == '|' && !s.inFlow then s.blockScalar? false
  else if c == '>' && !s.inFlow then s.blockScalar? true
  else if c == '\'' || c == '"' then s.quotedScalar? c
  else if beginsPlain s.inFlow c rest then s.plainScalar?
  else none

/-- The tokens in order, once the text is at its end. -/
def finish? (s : Lexer) : Option (List Token) := do
  let s ← (s.closeBlocks 0).dropKey?
  return s.tokens.reverse

/-- Reads all tokens that are left. -/
def run? : Nat → Lexer → Option (List Token)
  | 0, _ => none
  | fuel + 1, s => do
    let s ← (s.skipGaps (s.cursor.rest.length + 1)).dropStale?
    let s := s.closeBlocks (s.cursor.column + 1)
    match s.cursor.rest with
    | [] => s.finish?
    | c :: rest => run? fuel (← s.next? c rest)

end Lexer

def Token.ofText? (text : List Char) : Option (List Token) :=
  if text.all isAllowed then (Lexer.start text).run? (text.length + 1) else none

end Buildpath.Yaml
