import Buildpath.Yaml.Lexer
import Buildpath.Yaml.Node

/-!
# YAML documents

A document is its root node together with the targets of its references. `Document.ofText?` reads
one from text, and the rest of the module reads values from the nodes of a document. Any scalar is
text, whatever it looks like; nothing at all reads as an empty list or a record without members.
References are followed at most a hundred times as often as the document has parts.

Models the library `serde_yaml`.
-/

namespace Buildpath.Yaml

/-- A node whose references are numbers of targets. -/
abbrev LinkedNode := Node Nat

namespace Node

/-! ### References -/

/-- The numbers that names stand for. -/
abbrev Names := List (List Char × Nat)

/-- Gives a name, if there is one, the number of names that are known. -/
def define (names : Names) : Option (List Char) → Names
  | none => names
  | some name => (name, names.length) :: names.filter (·.1 ≠ name)

def target (names : Names) (anchor : Option (List Char)) (n : LinkedNode) :
    List (Nat × LinkedNode) :=
  match anchor with
  | none => []
  | some _ => [(names.length, n)]

/-- A node, or a list of nodes, with its references resolved. -/
structure Linked (α : Type) where
  value : α
  /-- The names that are known after it. -/
  names : Names
  /-- The targets in it, in the order in which they begin. -/
  targets : List (Nat × LinkedNode)

mutual

/-- Resolves the references of a node; fails at a name that was not given before. -/
def link? (names : Names) : NamedNode → Option (Linked LinkedNode)
  | .reference name => do return ⟨.reference (← names.lookup name), names, []⟩
  | .scalar anchor tag isPlain text =>
    let n : LinkedNode := .scalar anchor tag isPlain text
    some ⟨n, define names anchor, target names anchor n⟩
  | .sequence anchor items => do
    let inner ← linkItems? (define names anchor) items
    let n : LinkedNode := .sequence anchor inner.value
    return ⟨n, inner.names, target names anchor n ++ inner.targets⟩
  | .mapping anchor members => do
    let inner ← linkMembers? (define names anchor) members
    let n : LinkedNode := .mapping anchor inner.value
    return ⟨n, inner.names, target names anchor n ++ inner.targets⟩

def linkItems? (names : Names) : List NamedNode → Option (Linked (List LinkedNode))
  | [] => some ⟨[], names, []⟩
  | n :: rest => do
    let first ← link? names n
    let others ← linkItems? first.names rest
    return ⟨first.value :: others.value, others.names, first.targets ++ others.targets⟩

def linkMembers? (names : Names) :
    List (NamedNode × NamedNode) → Option (Linked (List (LinkedNode × LinkedNode)))
  | [] => some ⟨[], names, []⟩
  | (key, value) :: rest => do
    let k ← link? names key
    let v ← link? k.names value
    let others ← linkMembers? v.names rest
    return ⟨(k.value, v.value) :: others.value, others.names,
      k.targets ++ v.targets ++ others.targets⟩

end

/-! ### Size -/

mutual

/-- The number of parts of a node; the beginning and the end of a collection count. -/
def size {ρ : Type} : Node ρ → Nat
  | .scalar _ _ _ _ | .reference _ => 1
  | .sequence _ items => sizeOfItems items + 2
  | .mapping _ members => sizeOfMembers members + 2

def sizeOfItems {ρ : Type} : List (Node ρ) → Nat
  | [] => 0
  | n :: rest => size n + sizeOfItems rest

def sizeOfMembers {ρ : Type} : List (Node ρ × Node ρ) → Nat
  | [] => 0
  | (key, value) :: rest => size key + size value + sizeOfMembers rest

end

end Node

/-! ### Documents -/

/-- A document. -/
structure Document where
  root : LinkedNode
  /-- The targets of references by number; of several the last one counts. -/
  targets : List (Nat × LinkedNode)

namespace Document

/-- The document that a text holds; a text without any reads as nothing at all. -/
def ofText? (text : List Char) : Option Document := do
  match ← Node.ofTokens? (← Token.ofText? text) with
  | none => return ⟨.empty, []⟩
  | some n =>
    let linked ← n.link? []
    return ⟨linked.value, linked.targets⟩

def target? (d : Document) (number : Nat) : Option LinkedNode :=
  d.targets.reverse.lookup number

/-! ### Reading values -/

/-- A reader, which counts the references that it follows. -/
abbrev Reader (α : Type) := StateT Nat Option α

def follow (d : Document) : LinkedNode → Reader LinkedNode
  | .reference number => do
    let followed ← get
    if followed < 100 * d.root.size then
      set (followed + 1)
      d.target? number
    else failure
  | n => pure n

def text (d : Document) (n : LinkedNode) : Reader String := do
  match ← d.follow n with
  | .scalar _ _ _ text => return String.ofList text
  | _ => failure

def list {α : Type} (item : Document → LinkedNode → Reader α) (d : Document) (n : LinkedNode) :
    Reader (List α) := do
  match ← d.follow n with
  | .sequence _ items => items.mapM (item d)
  | .scalar _ _ true [] => return []
  | _ => failure

/-- Whether a plain scalar says that there is nothing. -/
def isNull (text : List Char) : Bool :=
  ["null", "Null", "NULL", "~"].contains (String.ofList text)

/-- The tag of what is nothing. -/
def nullTag : List Char := "tag:yaml.org,2002:null".toList

/-- Whether a node says that there is nothing; fails where only its tag says so. -/
def isAbsent? : LinkedNode → Option Bool
  | .scalar _ none true text => some (text.isEmpty || isNull text)
  | .scalar _ (some tag) true text =>
    if tag = nullTag then if isNull text then some true else none else some false
  | _ => some false

/-- A value or nothing. -/
def optional {α : Type} (value : Document → LinkedNode → Reader α) (d : Document)
    (n : LinkedNode) : Reader (Option α) := do
  let n ← d.follow n
  if ← isAbsent? n then return none else return some (← value d n)

/-! ### Records -/

/-- The values found for the fields of a record, in the order of the fields. -/
abbrev Fields := List (Option LinkedNode)

/-- Puts the value at the field of this name; fails if that field has one. -/
def put? (key : String) (value : LinkedNode) : List String → Fields → Option Fields
  | name :: names, found :: others =>
    if name = key then
      match found with
      | none => some (some value :: others)
      | some _ => none
    else (put? key value names others).map (found :: ·)
  | _, found => some found

/-- The fields among the members of a mapping; the others are passed over. -/
def fields (names : List String) (d : Document) (n : LinkedNode) : Reader Fields := do
  let nothing : Fields := names.map fun _ => none
  match ← d.follow n with
  | .mapping _ members =>
    members.foldlM (fun found (key, value) => do put? (← d.text key) value names found) nothing
  | .scalar _ _ true [] => return nothing
  | _ => failure

def required {α : Type} (value : Document → LinkedNode → Reader α) (d : Document)
    (found : Fields) (index : Nat) : Reader α := do
  value d (← (found[index]?).join)

/-- The value of a field, or what it is without one. -/
def withDefault {α : Type} (default_ : α) (value : Document → LinkedNode → Reader α)
    (d : Document) (found : Fields) (index : Nat) : Reader α :=
  match (found[index]?).join with
  | none => pure default_
  | some n => value d n

def read? {α : Type} (value : Document → LinkedNode → Reader α) (d : Document) : Option α :=
  (value d d.root).run' 0

end Document

end Buildpath.Yaml
