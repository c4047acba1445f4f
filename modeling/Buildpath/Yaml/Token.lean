import Buildpath.Text.Number
import Buildpath.Text.Utf8
import Buildpath.Yaml.Scalar

/-!
# YAML tokens

The tokens of a text, and those of them that are read from a single line: directives, tags and the
names of anchors. Block collections have tokens of their own for their beginnings and ends, which
stand where the indentation changes.

Models the library `serde_yaml`.
-/

namespace Buildpath.Yaml

/-- A token. -/
inductive Token where
  | version (major minor : Nat)
  | tagHandle (handle meaning : List Char)
  | documentStart
  | documentEnd
  | blockSequence
  | blockMapping
  | blockEnd
  | openSequence
  | closeSequence
  | openMapping
  | closeMapping
  /-- The sign before an item of a block sequence. -/
  | item
  | comma
  | key
  | value
  | reference (name : List Char)
  | anchor (name : List Char)
  | tag (handle suffix : List Char)
  | scalar (isPlain : Bool) (text : List Char)
deriving DecidableEq, Repr

/-! ### Names of anchors -/

/-- Whether the name of an anchor may end before this text. -/
def endsAnchor : List Char → Bool
  | [] => true
  | c :: rest => atEdge (c :: rest) || "?:,]\x7d%@\x60".toList.contains c

/-- The name after the sign of an anchor or a reference. -/
def anchorName? (c : Cursor) : Option (List Char × Cursor) :=
  let c := c.advance 1
  let name := c.rest.takeWhile isNameChar
  let c := c.advance name.length
  if name ≠ [] ∧ endsAnchor c.rest then some (name, c) else none

/-! ### Tags -/

/-- Whether the character may stand in a tag, or in a tag between angle brackets. -/
def isTagChar (bracketed : Bool) (c : Char) : Bool :=
  isNameChar c || ";/?:@&=+$.%!~*'()".toList.contains c || (bracketed && ",[]".toList.contains c)

def octet? : List Char → Option (UInt8 × List Char)
  | '%' :: a :: b :: rest => do
    return (UInt8.ofNat ((← hexDigit? a) * 16 + (← hexDigit? b)), rest)
  | _ => none

/-- The number of bytes of a character whose first byte this is. -/
def encodedWidth? (b : UInt8) : Option Nat :=
  if b < 0x80 then some 1
  else if 0xC0 ≤ b ∧ b < 0xE0 then some 2
  else if 0xE0 ≤ b ∧ b < 0xF0 then some 3
  else if 0xF0 ≤ b ∧ b < 0xF8 then some 4
  else none

/-- The `n` further bytes of a character. -/
def octets? : Nat → List Char → Option (List UInt8 × List Char)
  | 0, cs => some ([], cs)
  | n + 1, cs => do
    let (b, cs) ← octet? cs
    if 0x80 ≤ b ∧ b < 0xC0 then
      let (bytes, cs) ← octets? n cs
      return (b :: bytes, cs)
    else none

def escapedTagChar? (cs : List Char) : Option (List Char × List Char) := do
  let (b, cs) ← octet? cs
  let (bytes, cs) ← octets? ((← encodedWidth? b) - 1) cs
  return (Utf8.decodeLossy (b :: bytes), cs)

def tagText? (bracketed : Bool) : Nat → List Char → Option (List Char × List Char)
  | 0, cs => some ([], cs)
  | _ + 1, [] => some ([], [])
  | fuel + 1, c :: rest =>
    if c == '%' then do
      let (text, rest) ← escapedTagChar? (c :: rest)
      let (more, rest) ← tagText? bracketed fuel rest
      return (text ++ more, rest)
    else if isTagChar bracketed c then do
      let (more, rest) ← tagText? bracketed fuel rest
      return (c :: more, rest)
    else some ([], c :: rest)

def takeTagText? (bracketed : Bool) (c : Cursor) : Option (List Char × Cursor) := do
  let (text, rest) ← tagText? bracketed c.rest.length c.rest
  return (text, c.advance (c.rest.length - rest.length))

/-- The handle at the front of a text that begins with an exclamation mark. -/
def takeHandle (c : Cursor) : List Char × Cursor :=
  let name := (c.rest.drop 1).takeWhile isNameChar
  let handle := '!' :: name
  let handle :=
    if (c.rest.drop handle.length).head? = some '!' then handle ++ ['!'] else handle
  (handle, c.advance handle.length)

/-- Whether the handle is more than an exclamation mark and ends with one. -/
def isNamedHandle (handle : List Char) : Bool :=
  decide (1 < handle.length) && handle.getLast? == some '!'

def tagParts? (c : Cursor) : Option ((List Char × List Char) × Cursor) :=
  match c.rest with
  | _ :: '<' :: _ => do
    let (text, c) ← takeTagText? true (c.advance 2)
    if text ≠ [] ∧ c.rest.head? = some '>' then return (([], text), c.advance 1) else none
  | _ => do
    let (handle, c) := takeHandle c
    let (text, c) ← takeTagText? false c
    if isNamedHandle handle then
      if text = [] then none else return ((handle, text), c)
    else
      let suffix := handle.drop 1 ++ text
      if suffix = [] then return (([], ['!']), c) else return ((['!'], suffix), c)

/-- The tag at a place; a blank follows it, or a comma in a flow collection. -/
def tag? (flow : Bool) (c : Cursor) : Option (Token × Cursor) := do
  let ((handle, suffix), c) ← tagParts? c
  if atEdge c.rest || (flow && c.rest.head? == some ',') then return (.tag handle suffix, c)
  else none

/-! ### Directives -/

def versionNumber? (c : Cursor) : Option (Nat × Cursor) := do
  let digits := c.rest.takeWhile Char.isDigit
  if digits.length ≤ 9 then
    return (← Text.ofDigits? digits, c.advance digits.length)
  else none

/-- The version after the name of the directive. -/
def versionDirective? (c : Cursor) : Option (Token × Cursor) := do
  let (major, c) ← versionNumber? (c.skipWhile isGap)
  if c.rest.head? = some '.' then
    let (minor, c) ← versionNumber? (c.advance 1)
    return (.version major minor, c)
  else none

/-- The handle and its meaning after the name of the directive. -/
def tagDirective? (c : Cursor) : Option (Token × Cursor) := do
  let c := c.skipWhile isGap
  if c.rest.head? ≠ some '!' then none
  else
    let (handle, c) := takeHandle c
    if (handle = ['!'] ∨ isNamedHandle handle) ∧ c.rest.head?.any isGap then
      let (meaning, c) ← takeTagText? true (c.skipWhile isGap)
      if meaning ≠ [] ∧ atEdge c.rest then return (.tagHandle handle meaning, c) else none
    else none

/-- The directive at a place, up to the end of its line. -/
def directive? (c : Cursor) : Option (Token × Cursor) := do
  let c := c.advance 1
  let name := c.rest.takeWhile isNameChar
  let c := c.advance name.length
  if !atEdge c.rest then none
  else
    let (token, c) ←
      if name = "YAML".toList then versionDirective? c
      else if name = "TAG".toList then tagDirective? c
      else none
    return (token, ← c.finishLine?)

end Buildpath.Yaml
