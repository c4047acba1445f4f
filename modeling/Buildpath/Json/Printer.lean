import Buildpath.Json.Value

/-!
# Writing JSON

`Json.compact` writes a value without any gaps, `Json.pretty` over several lines with two spaces of
indentation. Quotes, backslashes and the control characters below the space are escaped; all other
characters are written as they are.

Models the library `serde_json`.
-/

namespace Buildpath.Json

def hexDigit (n : Nat) : Char :=
  Char.ofNat (if n < 10 then 48 + n else 87 + n)

def escape (c : Char) : List Char :=
  if c = '"' then ['\\', '"']
  else if c = '\\' then ['\\', '\\']
  else if c = '\x08' then ['\\', 'b']
  else if c = '\x0c' then ['\\', 'f']
  else if c = '\n' then ['\\', 'n']
  else if c = '\r' then ['\\', 'r']
  else if c = '\t' then ['\\', 't']
  else if c.toNat < 0x20 then
    ['\\', 'u', '0', '0', hexDigit (c.toNat / 16), hexDigit (c.toNat % 16)]
  else [c]

def quote (s : String) : String :=
  "\"" ++ String.ofList (s.toList.flatMap escape) ++ "\""

/-- The number `mantissa * 10 ^ exponent`. -/
def realText (mantissa exponent : Int) : String :=
  toString mantissa ++ "e" ++ toString exponent

mutual

/-- The value on one line, without gaps. -/
def compact : Json → String
  | .null | .unreadable => "null"
  | .bool b => if b then "true" else "false"
  | .integer n => toString n
  | .real mantissa exponent => realText mantissa exponent
  | .string s => quote s
  | .array items => "[" ++ compactItems items ++ "]"
  | .object members => "\x7b" ++ compactMembers members ++ "\x7d"

def compactItems : List Json → String
  | [] => ""
  | [j] => compact j
  | j :: rest => compact j ++ "," ++ compactItems rest

def compactMembers : List (String × Json) → String
  | [] => ""
  | [(key, j)] => quote key ++ ":" ++ compact j
  | (key, j) :: rest => quote key ++ ":" ++ compact j ++ "," ++ compactMembers rest

end

/-- A line feed and the indentation of `depth` levels. -/
def newLine (depth : Nat) : String :=
  "\n" ++ String.ofList (List.replicate (2 * depth) ' ')

mutual

/-- The value over several lines, inside `depth` levels of nesting. -/
def prettyAt (depth : Nat) : Json → String
  | .null | .unreadable => "null"
  | .bool b => if b then "true" else "false"
  | .integer n => toString n
  | .real mantissa exponent => realText mantissa exponent
  | .string s => quote s
  | .array [] => "[]"
  | .array (j :: rest) => "[" ++ prettyItems (depth + 1) (j :: rest) ++ newLine depth ++ "]"
  | .object [] => "\x7b\x7d"
  | .object (m :: rest) =>
    "\x7b" ++ prettyMembers (depth + 1) (m :: rest) ++ newLine depth ++ "\x7d"

/-- The items, each on lines of its own. -/
def prettyItems (depth : Nat) : List Json → String
  | [] => ""
  | [j] => newLine depth ++ prettyAt depth j
  | j :: rest => newLine depth ++ prettyAt depth j ++ "," ++ prettyItems depth rest

/-- The members, each on lines of its own. -/
def prettyMembers (depth : Nat) : List (String × Json) → String
  | [] => ""
  | [(key, j)] => newLine depth ++ quote key ++ ": " ++ prettyAt depth j
  | (key, j) :: rest =>
    newLine depth ++ quote key ++ ": " ++ prettyAt depth j ++ "," ++ prettyMembers depth rest

end

def pretty (j : Json) : String :=
  prettyAt 0 j

end Buildpath.Json
