import Buildpath.Text.Blank
import Buildpath.Json.Value

/-!
# Reading JSON

`Json.parse?` reads a whole document; anything but blanks after the value makes it fail. Blanks are
space, tab, line feed and carriage return. Every reader returns what is left of the text, and the
fuel of the recursive ones bounds the number of characters they may look at.

Models the library `serde_json`.
-/

namespace Buildpath.Json

def isGap (c : Char) : Bool :=
  c == ' ' || c == '\t' || c == '\n' || c == '\r'

/-- The text without its leading gap. -/
def skipGap (cs : List Char) : List Char :=
  cs.dropWhile isGap

/-! ### Numbers -/

def digitsValue (digits : List Char) : Nat :=
  digits.foldl (fun n c => n * 10 + (c.toNat - '0'.toNat)) 0

/-- The digits at the front, at least one, and what follows. -/
def takeDigits? (cs : List Char) : Option (List Char × List Char) :=
  match cs.takeWhile Char.isDigit with
  | [] => none
  | digits => some (digits, cs.dropWhile Char.isDigit)

/-- The exponent after `e` or `E`. -/
def readExponent? (cs : List Char) : Option (Int × List Char) :=
  match cs with
  | '+' :: rest => (takeDigits? rest).map fun (d, rest) => (Int.ofNat (digitsValue d), rest)
  | '-' :: rest => (takeDigits? rest).map fun (d, rest) => (-Int.ofNat (digitsValue d), rest)
  | rest => (takeDigits? rest).map fun (d, rest) => (Int.ofNat (digitsValue d), rest)

def isExponentMark (c : Char) : Bool :=
  c == 'e' || c == 'E'

/-- The number whose digits before the point have been read. -/
def readTail? (negative : Bool) (whole : List Char) (cs : List Char) :
    Option (Json × List Char) := do
  let signed (n : Nat) : Int := if negative then -Int.ofNat n else Int.ofNat n
  match cs with
  | '.' :: rest =>
    let (fraction, rest) ← takeDigits? rest
    let mantissa := signed (digitsValue (whole ++ fraction))
    match rest with
    | c :: rest' =>
      if isExponentMark c then
        let (e, rest') ← readExponent? rest'
        return (.real mantissa (e - fraction.length), rest')
      else return (.real mantissa (-fraction.length), rest)
    | [] => return (.real mantissa (-fraction.length), [])
  | c :: rest =>
    if isExponentMark c then
      let (e, rest) ← readExponent? rest
      return (.real (signed (digitsValue whole)) e, rest)
    else return (plain (signed (digitsValue whole)), cs)
  | [] => return (plain (signed (digitsValue whole)), [])
where
  /-- A negative zero is not a whole number. -/
  plain (n : Int) : Json :=
    if negative && n == 0 then .real 0 0 else .integer n

/-- The number at the front; a leading zero stands alone. -/
def readNumber? (negative : Bool) (cs : List Char) : Option (Json × List Char) := do
  let (digits, rest) ← takeDigits? cs
  match digits with
  | '0' :: _ :: _ => none
  | _ => readTail? negative digits rest

/-! ### Strings -/

def hexValue? (c : Char) : Option Nat :=
  if '0' ≤ c ∧ c ≤ '9' then some (c.toNat - 48)
  else if 'a' ≤ c ∧ c ≤ 'f' then some (c.toNat - 87)
  else if 'A' ≤ c ∧ c ≤ 'F' then some (c.toNat - 55)
  else none

def readUnit? : List Char → Option (Nat × List Char)
  | a :: b :: c :: d :: rest => do
    return ((((← hexValue? a) * 16 + (← hexValue? b)) * 16 + (← hexValue? c)) * 16 + (← hexValue? d),
      rest)
  | _ => none

/-- Whether the unit is the first half of a surrogate pair. -/
def isHighHalf (unit : Nat) : Bool :=
  0xD800 ≤ unit && unit ≤ 0xDBFF

/-- Whether the unit is the second half of a surrogate pair. -/
def isLowHalf (unit : Nat) : Bool :=
  0xDC00 ≤ unit && unit ≤ 0xDFFF

/-- The character after a backslash that stands for one character. -/
def shortEscape? : Char → Option Char
  | '"' => some '"'
  | '\\' => some '\\'
  | '/' => some '/'
  | 'b' => some '\x08'
  | 'f' => some '\x0c'
  | 'n' => some '\n'
  | 'r' => some '\r'
  | 't' => some '\t'
  | _ => none

/-- A unit of a string: a character, or half of a surrogate pair that stands alone. -/
abbrev Unit? := Option Char

/-- Reads the units of a string up to its closing quote. -/
def readUnits? : Nat → List Char → Option (List Unit? × List Char)
  | 0, _ => none
  | _ + 1, [] => none
  | _ + 1, '"' :: rest => some ([], rest)
  | fuel + 1, '\\' :: 'u' :: rest => do
    let (unit, rest) ← readUnit? rest
    let single : Option (List Unit? × List Char) := do
      let (units, rest) ← readUnits? fuel rest
      let lone := isHighHalf unit || isLowHalf unit
      return ((if lone then none else some (Char.ofNat unit)) :: units, rest)
    match rest with
    | '\\' :: 'u' :: rest' =>
      match readUnit? rest' with
      | some (low, rest') =>
        if isHighHalf unit && isLowHalf low then
          let c := Char.ofNat (0x10000 + (unit - 0xD800) * 0x400 + (low - 0xDC00))
          let (units, rest') ← readUnits? fuel rest'
          return (some c :: units, rest')
        else single
      | none => none
    | _ => single
  | fuel + 1, '\\' :: c :: rest => do
    let c ← shortEscape? c
    let (units, rest) ← readUnits? fuel rest
    return (some c :: units, rest)
  | fuel + 1, c :: rest =>
    if c == '\\' || c.toNat < 0x20 then none
    else do
      let (units, rest) ← readUnits? fuel rest
      return (some c :: units, rest)

/-- The string after an opening quote: its text, if it denotes one, and what follows. -/
def readString? (cs : List Char) : Option (Option String × List Char) :=
  (readUnits? (cs.length + 1) cs).map fun (units, rest) =>
    ((units.mapM id).map String.ofList, rest)

/-! ### Values -/

def objectOf (members : List (Option String × Json)) : Json :=
  match members.mapM fun (key, value) => key.map (·, value) with
  | some members => .object members
  | none => .unreadable

mutual

def readValue? : Nat → List Char → Option (Json × List Char)
  | 0, _ => none
  | fuel + 1, cs =>
    match skipGap cs with
    | 'n' :: 'u' :: 'l' :: 'l' :: rest => some (.null, rest)
    | 't' :: 'r' :: 'u' :: 'e' :: rest => some (.bool true, rest)
    | 'f' :: 'a' :: 'l' :: 's' :: 'e' :: rest => some (.bool false, rest)
    | '"' :: rest =>
      (readString? rest).map fun (s, rest) => (s.elim .unreadable .string, rest)
    | '[' :: rest =>
      match skipGap rest with
      | ']' :: rest => some (.array [], rest)
      | rest => (readItems? fuel rest).map fun (items, rest) => (.array items, rest)
    | '{' :: rest =>
      match skipGap rest with
      | '}' :: rest => some (.object [], rest)
      | rest => (readMembers? fuel rest).map fun (members, rest) => (objectOf members, rest)
    | '-' :: rest => readNumber? true rest
    | rest => readNumber? false rest

def readItems? : Nat → List Char → Option (List Json × List Char)
  | 0, _ => none
  | fuel + 1, cs => do
    let (item, rest) ← readValue? fuel cs
    match skipGap rest with
    | ',' :: rest =>
      let (items, rest) ← readItems? fuel rest
      return (item :: items, rest)
    | ']' :: rest => return ([item], rest)
    | _ => none

def readMembers? : Nat → List Char → Option (List (Option String × Json) × List Char)
  | 0, _ => none
  | fuel + 1, cs => do
    let '"' :: rest := skipGap cs | none
    let (key, rest) ← readString? rest
    let ':' :: rest := skipGap rest | none
    let (value, rest) ← readValue? fuel rest
    match skipGap rest with
    | ',' :: rest =>
      let (members, rest) ← readMembers? fuel rest
      return ((key, value) :: members, rest)
    | '}' :: rest => return ([(key, value)], rest)
    | _ => none

end

def parse? (text : List Char) : Option Json := do
  let (value, rest) ← readValue? (2 * text.length + 2) text
  if skipGap rest = [] then some value else none

end Buildpath.Json
