import Buildpath.Json.Value

/-!
# Records in JSON

A record is written as an object with one member per field, or as an array of the fields in their
order. Members that belong to no field are skipped; a field that is given twice, under one of its
names or under two, makes the record unreadable, and so does an array with too many items.

Models the records of the library `serde`.
-/

namespace Buildpath.Json

/-- The values found for the fields of a record, in the order of the fields. -/
structure Fields where
  byPosition : Bool
  values : List (Option Json)
deriving Repr

namespace Fields

/-- Puts the value at the first field that goes by this name; fails if that field has one. -/
def put? (key : String) (value : Json) :
    List (List String) → List (Option Json) → Option (List (Option Json))
  | names :: rest, found :: others =>
    if names.contains key then
      match found with
      | none => some (some value :: others)
      | some _ => none
    else (put? key value rest others).map (found :: ·)
  | _, found => some found

def collect? (names : List (List String)) :
    List (String × Json) → List (Option Json) → Option (List (Option Json))
  | [], found => some found
  | (key, value) :: rest, found => do collect? names rest (← put? key value names found)

/-- The fields of a record; each field is given by the names under which it may be written. -/
def ofJson? (names : List (List String)) : Json → Option Fields
  | .object members =>
    (collect? names members (names.map fun _ => none)).map fun values => ⟨false, values⟩
  | .array items =>
    if items.length ≤ names.length then
      some ⟨true, items.map some ++ (names.drop items.length).map fun _ => none⟩
    else none
  | _ => none

/-- The value of the field at an index, if there is one. -/
def get? (fields : Fields) (index : Nat) : Option Json :=
  (fields.values[index]?).join

variable {α : Type}

def required (decode : Json → Option α) (fields : Fields) (index : Nat) : Option α := do
  decode (← fields.get? index)

def withDefault (default_ : α) (decode : Json → Option α) (fields : Fields) (index : Nat) :
    Option α :=
  match fields.get? index with
  | none => some default_
  | some j => decode j

/-- A field that may be left out of an object, but not of an array. -/
def omittable (decode : Json → Option α) (fields : Fields) (index : Nat) : Option (Option α) :=
  match fields.get? index with
  | none => if fields.byPosition then none else some none
  | some .null => some none
  | some j => (decode j).map some

end Fields

/-! ### Simple values -/

def toText? : Json → Option String
  | .string s => some s
  | _ => none

/-- A value or `null`. -/
def toOption? {α : Type} (decode : Json → Option α) : Json → Option (Option α)
  | .null => some none
  | j => (decode j).map some

def toList? {α : Type} (decode : Json → Option α) : Json → Option (List α)
  | .array items => items.mapM decode
  | _ => none

/-- A whole number from zero up to, and without, `bound`. -/
def toNatBelow? (bound : Nat) : Json → Option Nat
  | .integer n => if 0 ≤ n ∧ n < bound then some n.toNat else none
  | _ => none

/-! ### What encoders write is decoded again -/

theorem toText?_string (s : String) : toText? (.string s) = some s := rfl

theorem toList?_listOf {α : Type} {encode : α → Json} {decode : Json → Option α} {l : List α}
    (h : ∀ a ∈ l, decode (encode a) = some a) : toList? decode (listOf encode l) = some l := by
  induction l with
  | nil => rfl
  | cons a rest ih =>
    have ih := ih fun b hb => h b (List.mem_cons_of_mem a hb)
    simp only [toList?, listOf, List.map_cons, List.mapM_cons] at *
    rw [h a List.mem_cons_self]
    simp [ih]

theorem toOption?_optionOf {α : Type} {encode : α → Json} {decode : Json → Option α}
    (h : ∀ a, decode (encode a) = some a) (hn : ∀ a, encode a ≠ .null) (o : Option α) :
    toOption? decode (optionOf encode o) = some o := by
  cases o with
  | none => rfl
  | some a =>
    have := hn a
    simp only [optionOf, toOption?]
    simp [h]

end Buildpath.Json
