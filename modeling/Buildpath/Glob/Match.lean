import Buildpath.Glob.Pattern

/-!
# Matching globs

A pattern matches a whole text or not at all. Besides "does not match here" the search knows
"cannot match from any later place either" (the text ended while the pattern asked for more), which
ends it at once.

Models the library `glob`.
-/

namespace Buildpath.Glob

/-- The outcome of matching a pattern against a text from one place on. -/
inductive Outcome where
  | matched
  | mismatched
  | exhausted
deriving DecidableEq, Repr

/-- Whether a token that stands for one character stands for this one. -/
def Token.admits (c : Char) : Token → Bool
  | .char d => c == d
  | .anyChar => c != '/'
  | .oneOf items => c != '/' && items.any (·.admits c)
  | .noneOf items => c != '/' && !items.any (·.admits c)
  | .anySequence | .anyDirectories => false

/-- The first outcome that settles the search among those after each longer run of skipped
characters; `stop` ends the runs and `pause` passes over one. -/
def skipUntil (stop pause : Char → Bool) (next : List Char → Outcome) : List Char → Outcome
  | [] => next []
  | c :: cs =>
    if stop c then .mismatched
    else if pause c then skipUntil stop pause next cs
    else
      match next cs with
      | .mismatched => skipUntil stop pause next cs
      | settled => settled

def matchTokens : List Token → List Char → Outcome
  | [], [] => .matched
  | [], _ :: _ => .mismatched
  | .anySequence :: tokens, text =>
    match matchTokens tokens text with
    | .mismatched => skipUntil (· == '/') (fun _ => false) (matchTokens tokens) text
    | settled => settled
  | .anyDirectories :: tokens, text =>
    match matchTokens tokens text with
    | .mismatched => skipUntil (fun _ => false) (· != '/') (matchTokens tokens) text
    | settled => settled
  | _ :: _, [] => .exhausted
  | token :: tokens, c :: cs => if token.admits c then matchTokens tokens cs else .mismatched

def isMatch (tokens : List Token) (text : List Char) : Bool :=
  matchTokens tokens text == .matched

end Buildpath.Glob
