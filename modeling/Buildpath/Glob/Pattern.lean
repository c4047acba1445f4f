/-!
# Glob patterns

A pattern is a list of tokens. `?` stands for one character, `*` for any run of characters and
`[…]` for one character of a class (`[!…]`: one outside it), none of which crosses a separator;
`**` fills whole path segments and is only allowed as a whole segment. A pattern that breaks these
rules has a position and a cause.

Models the library `glob`.
-/

namespace Buildpath.Glob

/-- A member of a character class. -/
inductive ClassItem where
  | single (c : Char)
  | range (first last : Char)
deriving DecidableEq, Repr

/-- What a pattern asks of the text at one place. -/
inductive Token where
  | char (c : Char)
  | anyChar
  | anySequence
  | anyDirectories
  | oneOf (items : List ClassItem)
  | noneOf (items : List ClassItem)
deriving DecidableEq, Repr

/-- Why a text is no pattern. -/
inductive Fault where
  | wildcards
  | recursiveWildcards
  | invalidRange
deriving DecidableEq, Repr

/-- A fault and the index of the character where it shows. -/
structure PatternError where
  position : Nat
  fault : Fault
deriving DecidableEq, Repr

namespace Fault

def message : Fault → String
  | .wildcards => "wildcards are either regular `*` or recursive `**`"
  | .recursiveWildcards => "recursive wildcards must form a single path component"
  | .invalidRange => "invalid range pattern"

end Fault

namespace PatternError

def message (e : PatternError) : String :=
  "Pattern syntax error near position " ++ toString e.position ++ ": " ++ e.fault.message

end PatternError

namespace ClassItem

def admits (c : Char) : ClassItem → Bool
  | .single d => c == d
  | .range first last => first ≤ c && c ≤ last

/-- The items that the text between the brackets spells: `a-z` is a range, all else is single. -/
def ofText : List Char → List ClassItem
  | a :: '-' :: b :: rest => .range a b :: ofText rest
  | a :: rest => .single a :: ofText rest
  | [] => []

end ClassItem

/-! ### Reading -/

/-- The text up to the first closing bracket, and what follows the bracket. -/
def closeClass? : List Char → Option (List Char × List Char)
  | [] => none
  | ']' :: rest => some ([], rest)
  | c :: rest => (closeClass? rest).map fun parts => (c :: parts.1, parts.2)

/-- The class that opens after a bracket; its first character may be a closing bracket. -/
def readClass? : List Char → Option (Token × List Char)
  | '!' :: c :: rest =>
    (closeClass? rest).map fun parts => (.noneOf (ClassItem.ofText (c :: parts.1)), parts.2)
  | ['!'] => none
  | c :: rest =>
    (closeClass? rest).map fun parts => (.oneOf (ClassItem.ofText (c :: parts.1)), parts.2)
  | [] => none

/-- Whether a further `**` adds nothing after the tokens read so far. -/
def absorbsDirectories (tokens : List Token) : Bool :=
  tokens.length > 1 && tokens.getLast? == some .anyDirectories

/-- Reads the tokens of `rest`, which stands at `index` after the character `before`.
`fuel` bounds the number of characters. -/
def readTokens : Nat → List Token → Nat → Option Char → List Char →
    Except PatternError (List Token)
  | 0, tokens, _, _, _ => .ok tokens
  | _ + 1, tokens, _, _, [] => .ok tokens
  | fuel + 1, tokens, index, before, '*' :: rest =>
    let stars := (rest.takeWhile (· == '*')).length + 1
    let after := rest.dropWhile (· == '*')
    if stars = 1 then readTokens fuel (tokens ++ [.anySequence]) (index + 1) (some '*') after
    else if stars > 2 then .error ⟨index + 2, .wildcards⟩
    else if index = 0 ∨ before = some '/' then
      let tokens' :=
        if absorbsDirectories tokens then tokens else tokens ++ [.anyDirectories]
      match after with
      | [] => .ok tokens'
      | '/' :: after' => readTokens fuel tokens' (index + 3) (some '/') after'
      | _ => .error ⟨index + 2, .recursiveWildcards⟩
    else .error ⟨index - 1, .recursiveWildcards⟩
  | fuel + 1, tokens, index, _, '?' :: rest =>
    readTokens fuel (tokens ++ [.anyChar]) (index + 1) (some '?') rest
  | fuel + 1, tokens, index, _, '[' :: rest =>
    match readClass? rest with
    | none => .error ⟨index, .invalidRange⟩
    | some (token, after) =>
      readTokens fuel (tokens ++ [token]) (index + 1 + (rest.length - after.length)) (some ']') after
  | fuel + 1, tokens, index, _, c :: rest =>
    readTokens fuel (tokens ++ [.char c]) (index + 1) (some c) rest

def parse (text : List Char) : Except PatternError (List Token) :=
  readTokens (text.length + 1) [] 0 none text

end Buildpath.Glob
