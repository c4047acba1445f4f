/-!
# JSON values

A document is kept member by member, in order and with repeated keys, because the meaning of a
repeated key is decided by whoever reads the value. Numbers are whole (`integer`) or written with a
point or an exponent (`real`). A string with an unpaired surrogate denotes no text; it, and an
object with such a key, is `unreadable`: it may be skipped but has no content.

Models the library `serde_json`.
-/

namespace Buildpath

/-- A JSON value. -/
inductive Json where
  | null
  | bool (b : Bool)
  | integer (n : Int)
  /-- The number `mantissa * 10 ^ exponent`. -/
  | real (mantissa exponent : Int)
  | string (s : String)
  | array (items : List Json)
  | object (members : List (String × Json))
  | unreadable
deriving Repr, Inhabited

namespace Json

def listOf {α : Type} (encode : α → Json) (l : List α) : Json :=
  .array (l.map encode)

/-- A text, or `null` when there is none. -/
def optionOf {α : Type} (encode : α → Json) : Option α → Json
  | none => .null
  | some a => encode a

/-! ### What can be read as a whole -/

/-- The exponent from which on powers of ten exceed every double-precision number. -/
def realLimit : Int := 309

/-- Whether the number lies in the range of double-precision numbers. -/
def isFinite (mantissa exponent : Int) : Bool :=
  let magnitude := mantissa.natAbs
  let digits : Int := (toString magnitude).length
  if magnitude = 0 then true
  else if digits + exponent < realLimit then true
  else if digits + exponent > realLimit then false
  else
    let bound := Nat.pow 2 1024 - Nat.pow 2 970
    if exponent ≥ 0 then magnitude * Nat.pow 10 exponent.toNat < bound
    else magnitude < bound * Nat.pow 10 (-exponent).toNat

mutual

def height : Json → Nat
  | .array items => heightOfItems items + 1
  | .object members => heightOfMembers members + 1
  | _ => 0

def heightOfItems : List Json → Nat
  | [] => 0
  | j :: rest => max (height j) (heightOfItems rest)

def heightOfMembers : List (String × Json) → Nat
  | [] => 0
  | (_, j) :: rest => max (height j) (heightOfMembers rest)

end

mutual

/-- Whether every part of the value has content. -/
def isReadable : Json → Bool
  | .unreadable => false
  | .integer n => isFinite n 0
  | .real mantissa exponent => isFinite mantissa exponent
  | .array items => areItemsReadable items
  | .object members => areMembersReadable members
  | .null | .bool _ | .string _ => true

/-- Whether every item is readable. -/
def areItemsReadable : List Json → Bool
  | [] => true
  | j :: rest => isReadable j && areItemsReadable rest

/-- Whether every member's value is readable. -/
def areMembersReadable : List (String × Json) → Bool
  | [] => true
  | (_, j) :: rest => isReadable j && areMembersReadable rest

end

end Json

end Buildpath
