import Buildpath.Path.Basic

/-!
# Parts of a path

What stands above a path (`parent`, `ancestors`), its last name and that name's extension, and the
text that remains below a base directory (`below?`). All parts are cut from the written text: the
spelling between two kept segments is never touched, only separators and single dots at the cut
are dropped.

Models the paths of the standard library.
-/

namespace Buildpath.Path

/-! ### Cutting lists of segments -/

/-- The segments from the first proper one on. -/
def dropIdle (segments : List (List Char)) : List (List Char) :=
  segments.dropWhile (!isProper ·)

/-- The segments up to the last proper one. -/
def dropIdleEnd (segments : List (List Char)) : List (List Char) :=
  (dropIdle segments.reverse).reverse

/-- The segments after the first `n` proper ones. -/
def dropProper : Nat → List (List Char) → List (List Char)
  | 0, segments => segments
  | _ + 1, [] => []
  | n + 1, s :: rest => if isProper s then dropProper n rest else dropProper (n + 1) rest

/-! ### Without trailing separators -/

/-- The segments of the body that can be cut: a leading `.` of a relative path stays. -/
def loose (p : Path) : List (List Char) :=
  if p.startsHere then p.body.drop 1 else p.body

/-- The path whose anchor is that of `p` and whose remaining segments are `segments`. -/
def rebuild (p : Path) (segments : List (List Char)) : Path :=
  if p.isAbsolute then ⟨'/' :: joinSegments segments⟩
  else if p.startsHere then ⟨joinSegments (['.'] :: segments)⟩
  else ⟨joinSegments segments⟩

/-- The path without the separators and single dots at its end. -/
def trimEnd (p : Path) : Path :=
  p.rebuild (dropIdleEnd p.loose)

/-! ### Above -/

/-- The path without its last component; the root and the empty path have none. -/
def parent? (p : Path) : Option Path :=
  match (dropIdleEnd p.loose).reverse with
  | _ :: rest => some (p.rebuild (dropIdle rest).reverse)
  | [] => if !p.isAbsolute && p.startsHere then some ⟨[]⟩ else none

/-- The path followed by what stands above it; `fuel` bounds the number of steps up. -/
def ancestorsWithin : Nat → Path → List Path
  | 0, p => [p]
  | fuel + 1, p =>
    match p.parent? with
    | none => [p]
    | some q => p :: ancestorsWithin fuel q

def ancestors (p : Path) : List Path :=
  ancestorsWithin (p.components.length + 1) p

/-! ### The last name -/

/-- The last component, if it is a name. -/
def fileName? (p : Path) : Option (List Char) :=
  match p.components.getLast? with
  | some (.name text) => some text
  | _ => none

/-- What follows the last dot of the last name; a leading dot does not count. -/
def extension? (p : Path) : Option (List Char) := do
  let name ← p.fileName?
  let reversed := name.reverse
  let ending := reversed.takeWhile (· != '.')
  match reversed.drop ending.length with
  | _ :: _ :: _ => some ending.reverse
  | _ => none

/-! ### Below a base directory -/

/-- What is left of `p` once the components of `base` are taken off its front. -/
def below? (base p : Path) : Option Path :=
  if base.components.isPrefixOf p.components then
    if base.components = [] then some p.trimEnd
    else
      let names := base.components.length - base.anchor.length
      some ⟨joinSegments (dropIdleEnd (dropIdle (dropProper names p.body)))⟩
  else none

end Buildpath.Path
