import Buildpath.Text.Blank
import Buildpath.Timestamp.Basic

/-!
# Writing and reading timestamps

Timestamps are written as `2024-01-02T03:04:05.678Z`, with as many groups of three decimals as the
nanoseconds need. Reading is more generous: blanks may stand between the parts, the separator may be
a space, the offset may be anything from `-23:59` to `+23:59`, and digits after the ninth decimal
are dropped.

Models the library `chrono`.
-/

namespace Buildpath.Timestamp

/-! ### Writing -/

/-- The number with zeros in front, at least `width` digits. -/
def padded (width n : Nat) : String :=
  let digits := (toString n).toList
  String.ofList (List.replicate (width - digits.length) '0' ++ digits)

/-- The year in four digits; with a sign when it does not fit. -/
def yearText (year : Int) : String :=
  if 0 ≤ year ∧ year ≤ 9999 then padded 4 year.toNat
  else (if year < 0 then "-" else "+") ++ padded 4 year.natAbs

def Civil.dateText (c : Civil) : String :=
  yearText c.year ++ "-" ++ padded 2 c.month ++ "-" ++ padded 2 c.day

def Civil.timeText (c : Civil) : String :=
  padded 2 c.hour ++ ":" ++ padded 2 c.minute ++ ":" ++ padded 2 c.second

/-- The decimals of the second: none, three, six or nine. -/
def fractionText (nanos : Nat) : String :=
  if nanos = 0 then ""
  else if nanos % 1000000 = 0 then "." ++ padded 3 (nanos / 1000000)
  else if nanos % 1000 = 0 then "." ++ padded 6 (nanos / 1000)
  else "." ++ padded 9 nanos

def text (t : Timestamp) : String :=
  t.civil.dateText ++ "T" ++ t.civil.timeText ++ fractionText t.civil.nanos ++ "Z"

def secondsText (t : Timestamp) : String :=
  t.civil.dateText ++ " " ++ t.civil.timeText ++ " UTC"

/-! ### Reading -/

def digitsValue (digits : List Char) : Nat :=
  digits.foldl (fun n c => n * 10 + (c.toNat - '0'.toNat)) 0

/-- The number that up to `most` digits at the front spell, at least one. -/
def takeNumber? (most : Nat) (cs : List Char) : Option (Nat × List Char) :=
  match (cs.take most).takeWhile Char.isDigit with
  | [] => none
  | digits => some (digitsValue digits, cs.drop digits.length)

/-- A number after blanks. -/
def takeField? (most : Nat) (cs : List Char) : Option (Nat × List Char) :=
  takeNumber? most (Text.trimStart cs)

/-- The year: four digits at most, or any number of them after a sign. -/
def takeYear? (cs : List Char) : Option (Int × List Char) :=
  match Text.trimStart cs with
  | '-' :: rest => (takeNumber? rest.length rest).map fun (n, rest) => (-Int.ofNat n, rest)
  | '+' :: rest => (takeNumber? rest.length rest).map fun (n, rest) => (Int.ofNat n, rest)
  | rest => (takeNumber? 4 rest).map fun (n, rest) => (Int.ofNat n, rest)

/-- What follows the mark; blanks may stand before it. -/
def afterMark? (mark : Char) (cs : List Char) : Option (List Char) :=
  match Text.trimStart cs with
  | c :: rest => if c = mark then some rest else none
  | [] => none

/-- The decimals of the second, as nanoseconds. -/
def takeFraction? : List Char → Option (Nat × List Char)
  | '.' :: rest =>
    match (rest.take 9).takeWhile Char.isDigit with
    | [] => none
    | digits =>
      some (digitsValue digits * Nat.pow 10 (9 - digits.length),
        (rest.drop digits.length).dropWhile Char.isDigit)
  | cs => some (0, cs)

/-- The sign of an offset; the minus sign may be the typographic one. -/
def takeSign? : List Char → Option (Int × List Char)
  | '+' :: rest => some (1, rest)
  | '-' :: rest => some (-1, rest)
  | '\u2212' :: rest => some (-1, rest)
  | _ => none

/-- Two digits, the first of them below `limit`. -/
def takeTwo? (limit : Nat) : List Char → Option (Nat × List Char)
  | a :: b :: rest =>
    if a.isDigit && b.isDigit && a.toNat < '0'.toNat + limit then some (digitsValue [a, b], rest)
    else none
  | _ => none

/-- Whether the first three characters are `UTC`, in any case. -/
def afterUtc? : List Char → Option (List Char)
  | a :: b :: c :: rest =>
    if [a, b, c].map Char.toUpper = ['U', 'T', 'C'] then some rest else none
  | _ => none

/-- The offset from universal time, in seconds. -/
def takeOffset? (cs : List Char) : Option (Int × List Char) :=
  match cs with
  | 'Z' :: rest => some (0, rest)
  | 'z' :: rest => some (0, rest)
  | _ =>
    match afterUtc? cs with
    | some rest => some (0, rest)
    | none => do
      let (sign, rest) ← takeSign? cs
      let (hours, rest) ← takeTwo? 10 rest
      let (minutes, rest) ← takeTwo? 6 (rest.dropWhile fun c => c == ':' || Text.isBlank c)
      return (sign * (hours * 3600 + minutes * 60), rest)

/-- The last year of the calendar's range, and the first one but for the sign and one day. -/
def lastYear : Int := 262142

def Civil.isPossible (c : Civil) : Bool :=
  -lastYear - 1 ≤ c.year && c.year ≤ lastYear && 1 ≤ c.month && c.month ≤ 12 && 1 ≤ c.day &&
    c.day ≤ daysInMonth c.year c.month && c.hour ≤ 23 && c.minute ≤ 59 && c.second ≤ 60

/-- Whether the year of the timestamp lies in the calendar's range. -/
def isInRange (t : Timestamp) : Bool :=
  -lastYear - 1 ≤ t.civil.year && t.civil.year ≤ lastYear

def parse? (cs : List Char) : Option Timestamp := do
  let (year, cs) ← takeYear? cs
  let (month, cs) ← takeField? 2 (← afterMark? '-' cs)
  let (day, cs) ← takeField? 2 (← afterMark? '-' cs)
  let cs ← match cs with
    | 'T' :: rest | 't' :: rest | ' ' :: rest => some rest
    | _ => none
  let (hour, cs) ← takeField? 2 cs
  let (minute, cs) ← takeField? 2 (← afterMark? ':' cs)
  let (second, cs) ← takeField? 2 (← afterMark? ':' cs)
  let (nanos, cs) ← takeFraction? cs
  let (offset, cs) ← takeOffset? (Text.trimStart cs)
  let reading : Civil := { year, month, day, hour, minute, second, nanos }
  let t := ofCivil reading offset
  if Text.isBlankText cs && reading.isPossible && offset.natAbs < 86400 && t.isInRange then some t
  else none

end Buildpath.Timestamp
