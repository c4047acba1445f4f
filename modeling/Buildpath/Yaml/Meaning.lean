import Buildpath.Json.Value
import Buildpath.Text.Blank
import Buildpath.Yaml.Scalar

/-!
# What plain scalars mean

A plain scalar may be taken for something other than text: for nothing, a truth value or a number.
A writer asks `isOnlyText` before it leaves the quotes out.

Models the library `serde_yaml`.
-/

namespace Buildpath.Yaml

/-! ### Words -/

def truthWords : List String :=
  ["true", "True", "TRUE", "false", "False", "FALSE"]

/-- The words for nothing. -/
def nullWords : List String :=
  ["null", "Null", "NULL", "~"]

/-- The words for infinite numbers and for what is no number. -/
def extremeWords : List String :=
  [".inf", ".Inf", ".INF", "+.inf", "+.Inf", "+.INF", "-.inf", "-.Inf", "-.INF", ".nan", ".NaN",
    ".NAN"]

/-! ### Numbers -/

def numberToBase? (base : Nat) (cs : List Char) : Option Nat :=
  if cs = [] then none
  else cs.foldlM (fun n c => ((hexDigit? c).filter (· < base)).map (n * base + ·)) 0

/-- The text without a plus sign in front. -/
def dropPlus (cs : List Char) : List Char :=
  (Text.stripStart? ['+'] cs).getD cs

def bases : List (List Char × Nat) :=
  [("0x".toList, 16), ("0o".toList, 8), ("0b".toList, 2)]

/-- Whether the text is a whole number of at most 128 bits to another base than ten. -/
def isBasedInteger (cs : List Char) : Bool :=
  bases.any fun (start, base) =>
    let number? (rest : List Char) := (Text.stripStart? start rest).bind (numberToBase? base)
    (number? (dropPlus cs)).any (· < Nat.pow 2 128) ||
      ((Text.stripStart? ['-'] cs).bind number?).any (· ≤ Nat.pow 2 127)

/-- Whether the text is a row of several digits that begins with zero, with or without a sign. -/
def isZeroPadded (cs : List Char) : Bool :=
  let digits := match cs with
    | '+' :: rest | '-' :: rest => rest
    | _ => cs
  digits.head? == some '0' && decide (1 < digits.length) && digits.all Char.isDigit

/-- The exponent of ten after the digits of a number, zero when nothing is written. -/
def exponent? : List Char → Option Int
  | [] => some 0
  | e :: rest =>
    if e == 'e' || e == 'E' then
      match rest with
      | '-' :: digits => (numberToBase? 10 digits).map fun n => -(n : Int)
      | digits => (numberToBase? 10 (dropPlus digits)).map Int.ofNat
    else none

/-- Whether the text is a decimal number in the range of double precision. -/
def isDecimal (cs : List Char) : Bool :=
  let unsigned := match cs with
    | '+' :: rest | '-' :: rest => rest
    | _ => cs
  let whole := unsigned.takeWhile Char.isDigit
  let rest := unsigned.drop whole.length
  let (fraction, rest) := match rest with
    | '.' :: rest => (rest.takeWhile Char.isDigit, rest.dropWhile Char.isDigit)
    | _ => ([], rest)
  match numberToBase? 10 (whole ++ fraction), exponent? rest with
  | some mantissa, some exponent => Json.isFinite mantissa (exponent - fraction.length)
  | _, _ => false

/-- Whether the text is a number, or would be one without the zeros in front. -/
def isNumber (cs : List Char) : Bool :=
  isBasedInteger cs || isZeroPadded cs || isDecimal cs || extremeWords.contains (String.ofList cs)

/-- Whether a plain scalar of this text is taken for text by every reader. -/
def isOnlyText (cs : List Char) : Bool :=
  let word := String.ofList cs
  cs ≠ [] && !truthWords.contains word && !nullWords.contains word && !isNumber cs

end Buildpath.Yaml
