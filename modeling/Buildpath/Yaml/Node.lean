import Buildpath.Yaml.Token

/-!
# YAML nodes

A node is a scalar, a sequence, a mapping, or a reference to a node that was given a name before.
`Node.ofTokens?` reads the one document that tokens hold. The type `ρ` says how references are
written: by name, as they are read, or by the number of their target. The fuel of the readers
bounds the number of steps, of which each token takes at most three.

Models the library `serde_yaml`.
-/

namespace Buildpath.Yaml

/-- A node of a document. -/
inductive Node (ρ : Type) where
  | scalar (anchor : Option (List Char)) (tag : Option (List Char)) (isPlain : Bool)
      (text : List Char)
  | sequence (anchor : Option (List Char)) (items : List (Node ρ))
  | mapping (anchor : Option (List Char)) (members : List (Node ρ × Node ρ))
  | reference (target : ρ)
deriving Repr

/-- A node whose references are names. -/
abbrev NamedNode := Node (List Char)

namespace Node

/-- What stands where nothing is written. -/
def empty {ρ : Type} : Node ρ :=
  .scalar none none true []

/-! ### Properties -/

/-- What handles of tags stand for. -/
abbrev Handles := List (List Char × List Char)

/-- The handles that every document knows. -/
def knownHandles : Handles :=
  [(['!'], ['!']), (['!', '!'], "tag:yaml.org,2002:".toList)]

/-- The name and the tag before a node. -/
structure Properties where
  anchor : Option (List Char)
  tag : Option (List Char)
deriving DecidableEq, Repr

def fullTag? (handles : Handles) (handle suffix : List Char) : Option (List Char) :=
  if handle = [] then some suffix else (handles.lookup handle).map (· ++ suffix)

/-- The properties at the front of the tokens: at most one name and one tag. -/
def properties? (handles : Handles) : List Token → Option (Properties × List Token)
  | .anchor a :: .tag h s :: rest => do return (⟨some a, some (← fullTag? handles h s)⟩, rest)
  | .tag h s :: .anchor a :: rest => do return (⟨some a, some (← fullTag? handles h s)⟩, rest)
  | .anchor a :: rest => some (⟨some a, none⟩, rest)
  | .tag h s :: rest => do return (⟨none, some (← fullTag? handles h s)⟩, rest)
  | rest => some (⟨none, none⟩, rest)

/-- The scalar with these properties; a lone exclamation mark is no tag. -/
def ofScalar (p : Properties) (isPlain : Bool) (text : List Char) : NamedNode :=
  .scalar p.anchor (if p.tag = some ['!'] then none else p.tag) isPlain text

/-! ### Grammar -/

def startsWith (ends : List Token) (tokens : List Token) : Bool :=
  tokens.head?.any ends.contains

mutual

/-- A node. Block collections are read only where `block` is true, and items without a beginning
of their own only where `loose` is. -/
def read? (handles : Handles) : Nat → Bool → Bool → List Token → Option (NamedNode × List Token)
  | 0, _, _, _ => none
  | fuel + 1, block, loose, tokens =>
    match tokens with
    | .reference name :: rest => some (.reference name, rest)
    | _ => do
      let (p, tokens) ← properties? handles tokens
      match tokens with
      | .scalar isPlain text :: rest => return (ofScalar p isPlain text, rest)
      | .openSequence :: rest =>
        let (items, rest) ← flowItems? handles fuel true rest
        return (.sequence p.anchor items, rest)
      | .openMapping :: rest =>
        let (members, rest) ← flowMembers? handles fuel true rest
        return (.mapping p.anchor members, rest)
      | _ =>
        if loose && startsWith [.item] tokens then
          let (items, rest) ← looseItems? handles fuel tokens
          return (.sequence p.anchor items, rest)
        else if block && startsWith [.blockSequence] tokens then
          let (items, rest) ← blockItems? handles fuel (tokens.drop 1)
          return (.sequence p.anchor items, rest)
        else if block && startsWith [.blockMapping] tokens then
          let (members, rest) ← blockMembers? handles fuel (tokens.drop 1)
          return (.mapping p.anchor members, rest)
        else if p.anchor.isSome || p.tag.isSome then
          return (.scalar p.anchor p.tag true [], tokens)
        else none

/-- A node, or nothing before one of the tokens that may follow it. -/
def readBefore? (handles : Handles) :
    Nat → List Token → Bool → Bool → List Token → Option (NamedNode × List Token)
  | 0, _, _, _, _ => none
  | fuel + 1, ends, block, loose, tokens =>
    if startsWith ends tokens then some (.empty, tokens)
    else read? handles fuel block loose tokens

/-- The value after a key, if there is one. -/
def valueBefore? (handles : Handles) :
    Nat → List Token → Bool → List Token → Option (NamedNode × List Token)
  | 0, _, _, _ => none
  | fuel + 1, ends, block, tokens =>
    match tokens with
    | .value :: rest => readBefore? handles fuel ends block block rest
    | _ => some (.empty, tokens)

/-- The items of a block sequence up to its end. -/
def blockItems? (handles : Handles) : Nat → List Token → Option (List NamedNode × List Token)
  | 0, _ => none
  | fuel + 1, tokens =>
    match tokens with
    | .item :: rest => do
      let (item, rest) ← readBefore? handles fuel [.item, .blockEnd] true false rest
      let (items, rest) ← blockItems? handles fuel rest
      return (item :: items, rest)
    | .blockEnd :: rest => some ([], rest)
    | _ => none

/-- The items of a sequence that is no deeper than the key it belongs to. -/
def looseItems? (handles : Handles) : Nat → List Token → Option (List NamedNode × List Token)
  | 0, _ => none
  | fuel + 1, tokens =>
    match tokens with
    | .item :: rest => do
      let (item, rest) ←
        readBefore? handles fuel [.item, .key, .value, .blockEnd] true false rest
      let (items, rest) ← looseItems? handles fuel rest
      return (item :: items, rest)
    | _ => some ([], tokens)

/-- The members of a block mapping up to its end. -/
def blockMembers? (handles : Handles) :
    Nat → List Token → Option (List (NamedNode × NamedNode) × List Token)
  | 0, _ => none
  | fuel + 1, tokens =>
    match tokens with
    | .key :: rest => do
      let ends := [.key, .value, .blockEnd]
      let (key, rest) ← readBefore? handles fuel ends true true rest
      let (value, rest) ← valueBefore? handles fuel ends true rest
      let (members, rest) ← blockMembers? handles fuel rest
      return ((key, value) :: members, rest)
    | .blockEnd :: rest => some ([], rest)
    | _ => none

/-- The items of a flow sequence up to its end; before all but the first stands a comma. -/
def flowItems? (handles : Handles) :
    Nat → Bool → List Token → Option (List NamedNode × List Token)
  | 0, _, _ => none
  | fuel + 1, first, tokens =>
    match tokens with
    | .closeSequence :: rest => some ([], rest)
    | _ => do
      let tokens ← if first then some tokens else afterComma? tokens
      match tokens with
      | .closeSequence :: rest => return ([], rest)
      | .key :: rest =>
        let (member, rest) ← flowPair? handles fuel rest
        let (items, rest) ← flowItems? handles fuel false rest
        return (.mapping none [member] :: items, rest)
      | _ =>
        let (item, rest) ← read? handles fuel false false tokens
        let (items, rest) ← flowItems? handles fuel false rest
        return (item :: items, rest)

/-- A mapping of one member that stands in a flow sequence without brackets. The token after an
empty key is passed over. -/
def flowPair? (handles : Handles) :
    Nat → List Token → Option ((NamedNode × NamedNode) × List Token)
  | 0, _ => none
  | fuel + 1, tokens => do
    let (key, rest) ←
      if startsWith [.value, .comma, .closeSequence] tokens then some (.empty, tokens.drop 1)
      else read? handles fuel false false tokens
    let (value, rest) ← valueBefore? handles fuel [.comma, .closeSequence] false rest
    return ((key, value), rest)

/-- The members of a flow mapping up to its end; before all but the first stands a comma. -/
def flowMembers? (handles : Handles) :
    Nat → Bool → List Token → Option (List (NamedNode × NamedNode) × List Token)
  | 0, _, _ => none
  | fuel + 1, first, tokens =>
    match tokens with
    | .closeMapping :: rest => some ([], rest)
    | _ => do
      let tokens ← if first then some tokens else afterComma? tokens
      match tokens with
      | .closeMapping :: rest => return ([], rest)
      | .key :: rest =>
        let (key, rest) ←
          readBefore? handles fuel [.value, .comma, .closeMapping] false false rest
        let (value, rest) ← valueBefore? handles fuel [.comma, .closeMapping] false rest
        let (members, rest) ← flowMembers? handles fuel false rest
        return ((key, value) :: members, rest)
      | _ =>
        let (key, rest) ← read? handles fuel false false tokens
        let (members, rest) ← flowMembers? handles fuel false rest
        return ((key, .empty) :: members, rest)

def afterComma? : List Token → Option (List Token)
  | .comma :: rest => some rest
  | _ => none

end

/-! ### Documents -/

/-- The handles that the directives at the front define, and what follows them. A version and each
handle are given at most once, and the version is 1.1 or 1.2. -/
def directives? : Bool → Handles → List Token → Option (Handles × List Token)
  | versioned, handles, .version major minor :: rest =>
    if versioned || major != 1 || (minor != 1 && minor != 2) then none
    else directives? true handles rest
  | versioned, handles, .tagHandle handle meaning :: rest =>
    if (handles.lookup handle).isSome then none
    else directives? versioned (handles ++ [(handle, meaning)]) rest
  | _, handles, rest => some (handles, rest)

def isOpening : Token → Bool
  | .version _ _ | .tagHandle _ _ | .documentStart => true
  | _ => false

def document? (tokens : List Token) : Option (NamedNode × List Token) := do
  let fuel := 3 * tokens.length + 3
  if tokens.head?.any isOpening then
    let (handles, rest) ← directives? false [] tokens
    match rest with
    | .documentStart :: rest =>
      if rest.head?.all fun t => isOpening t || t == .documentEnd then return (.empty, rest)
      else read? (handles ++ knownHandles) fuel true false rest
    | _ => none
  else read? knownHandles fuel true false tokens

/-- The node that all tokens together make, or none if there are no tokens. Marks of the
document's end may follow it, and no second document. -/
def ofTokens? : List Token → Option (Option NamedNode)
  | [] => some none
  | tokens => do
    let (node, rest) ← document? tokens
    if rest.all (· == .documentEnd) then return some node else none

end Node

end Buildpath.Yaml
