import Buildpath.Text.Unprintable

/-!
# Quoted text

The form in which texts are shown inside messages: between double quotes, on one line, with an
escape for every character that could not be told apart on a screen. A character that is drawn onto
the one before it is escaped everywhere, so no mark ever lands on a quote.

Models the texts of the standard library as messages show them.
-/

namespace Buildpath.Text

def hexDigit (n : Nat) : Char :=
  Char.ofNat (if n < 10 then 48 + n else 87 + n)

/-- The hexadecimal digits of a number below `16 ^ width`, without leading zeros. -/
def hexDigits (width n : Nat) : List Char :=
  let digits := (List.range width).reverse.map fun i => n / Nat.pow 16 i % 16
  match digits.dropWhile (· == 0) with
  | [] => ['0']
  | digits => digits.map hexDigit

def shown (c : Char) : List Char :=
  if c = '"' then ['\\', '"']
  else if c = '\\' then ['\\', '\\']
  else if c = '\n' then ['\\', 'n']
  else if c = '\r' then ['\\', 'r']
  else if c = '\t' then ['\\', 't']
  else if c = '\x00' then ['\\', '0']
  else if isPrintable c && !isExtending c then [c]
  else ['\\', 'u', '\x7b'] ++ hexDigits 6 c.toNat ++ ['\x7d']

def quoted (cs : List Char) : List Char :=
  '"' :: cs.flatMap shown ++ ['"']

def quotedString (s : String) : String :=
  String.ofList (quoted s.toList)

def quotedList (l : List String) : String :=
  "[" ++ String.intercalate ", " (l.map quotedString) ++ "]"

end Buildpath.Text
