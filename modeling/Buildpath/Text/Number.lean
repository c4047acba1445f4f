/-!
# Whole numbers in text

A whole number is written with decimal digits; a plus sign may stand before them, and leading zeros
do not count. `Text.natBelow?` reads one that stays under a bound.

Models the numbers of the standard library.
-/

namespace Buildpath.Text

/-- The number that a row of digits spells, read after `n`. -/
def digitsFrom (n : Nat) : List Char → Nat
  | [] => n
  | c :: rest => digitsFrom (n * 10 + (c.toNat - '0'.toNat)) rest

/-- The number that a row of digits, at least one, spells. -/
def ofDigits? (cs : List Char) : Option Nat :=
  if cs ≠ [] ∧ cs.all Char.isDigit then some (digitsFrom 0 cs) else none

/-- The number that a text spells, digits with or without a plus sign. -/
def nat? : List Char → Option Nat
  | '+' :: digits => ofDigits? digits
  | digits => ofDigits? digits

/-- The number that a text spells, if it lies below the bound. -/
def natBelow? (bound : Nat) (cs : List Char) : Option Nat :=
  (nat? cs).filter (· < bound)

def natText (n : Nat) : List Char :=
  (toString n).toList

end Buildpath.Text
