import Buildpath.Text.Blank
import Buildpath.Text.Utf8

/-!
# Paths

A path is kept as it was written. What it denotes is its list of components: repeated slashes,
interior `.` segments and a trailing slash add nothing, while `..` is a component of its own.
Two paths are the same path (`Path.Same`) when their components agree, whatever their spelling.

A path is text here. A path of the system is any bytes, and those that are no text are left out: what
is shown of such a path is its lossy decoding (`Path.shown`), which other paths share.

Models the paths of the standard library.
-/

namespace Buildpath

/-- One step of a path. -/
inductive Component where
  /-- The leading slash of an absolute path. -/
  | root
  /-- A leading `.` of a relative path. -/
  | current
  /-- The segment `..`. -/
  | up
  | name (text : List Char)
  /-- A name whose bytes are no text. No `Path` has it, but the keys of a tree may. -/
  | raw (bytes : List Utf8.Byte) (noText : Utf8.decode? bytes = none)
deriving DecidableEq, Repr

/-- A slash-separated path, as written. Only a path that is valid Unicode can be one. -/
structure Path where
  chars : List Char
deriving DecidableEq, Repr

namespace Component

def text : Component → List Char
  | .root => ['/']
  | .current => ['.']
  | .up => ['.', '.']
  | .name text => text
  | .raw bytes _ => Utf8.decodeLossy bytes

end Component

namespace Path

def ofString (s : String) : Path :=
  ⟨s.toList⟩

def toString (p : Path) : String :=
  String.ofList p.chars

/-- What is shown of a path whose bytes may be no text. -/
def shown (bytes : List Utf8.Byte) : Path :=
  ⟨Utf8.decodeLossy bytes⟩

@[simp] theorem toString_ofString (s : String) : (ofString s).toString = s := by
  simp [ofString, toString]

@[simp] theorem ofString_toString (p : Path) : ofString p.toString = p := by
  simp [ofString, toString]

/-! ### Segments -/

/-- The texts between the slashes. -/
abbrev segments (cs : List Char) : List (List Char) :=
  Text.splitOn '/' cs

/-- Whether a segment is neither empty nor a single dot. -/
def isProper (segment : List Char) : Bool :=
  segment != [] && segment != ['.']

def joinSegments : List (List Char) → List Char
  | [] => []
  | [s] => s
  | s :: rest => s ++ '/' :: joinSegments rest

def componentOf (segment : List Char) : Component :=
  if segment = ['.', '.'] then .up else .name segment

/-! ### Components -/

def isAbsolute (p : Path) : Bool :=
  p.chars.head? == some '/'

/-- Whether the path is relative and its first segment is a single dot. -/
def startsHere (p : Path) : Bool :=
  (segments p.chars).head? == some ['.']

/-- The segments after the leading slash of an absolute path; all of them if it is relative. -/
def body (p : Path) : List (List Char) :=
  segments (if p.isAbsolute then p.chars.drop 1 else p.chars)

/-- The components that are written before the body's proper segments. -/
def anchor (p : Path) : List Component :=
  if p.isAbsolute then [.root] else if p.startsHere then [.current] else []

def components (p : Path) : List Component :=
  p.anchor ++ (p.body.filter isProper).map componentOf

def Same (p q : Path) : Prop :=
  p.components = q.components

instance (p q : Path) : Decidable (Same p q) :=
  inferInstanceAs (Decidable (p.components = q.components))

theorem Same.refl (p : Path) : Same p p := rfl

theorem Same.symm {p q : Path} (h : Same p q) : Same q p := Eq.symm h

theorem Same.trans {p q r : Path} (h : Same p q) (k : Same q r) : Same p r := Eq.trans h k

/-! ### Joining -/

/-- The text with a slash after it, unless it is empty or has one. -/
def withSlash (cs : List Char) : List Char :=
  match cs.getLast? with
  | none => cs
  | some c => if c = '/' then cs else cs ++ ['/']

/-- `other` seen from `base`: an absolute path replaces the base. -/
def join (base other : Path) : Path :=
  if other.isAbsolute then other else ⟨withSlash base.chars ++ other.chars⟩

theorem join_of_isAbsolute {other : Path} (base : Path) (h : other.isAbsolute = true) :
    base.join other = other := by
  simp [join, h]

theorem join_of_relative {other : Path} (base : Path) (h : other.isAbsolute = false) :
    base.join other = ⟨withSlash base.chars ++ other.chars⟩ := by
  simp [join, h]

theorem head?_withSlash {cs : List Char} (h : cs ≠ []) : (withSlash cs).head? = cs.head? := by
  obtain ⟨c, rest, rfl⟩ := List.exists_cons_of_ne_nil h
  unfold withSlash
  split
  · rfl
  · split <;> rfl

theorem isAbsolute_join {other : Path} (base : Path) (h : other.isAbsolute = false) :
    (base.join other).isAbsolute = base.isAbsolute := by
  rw [join_of_relative base h]
  unfold isAbsolute at h ⊢
  cases hbase : base.chars with
  | nil => exact h
  | cons c cs =>
    rw [List.head?_append, head?_withSlash (List.cons_ne_nil c cs)]
    rfl

/-- The path that has been built up from components, one joined to the next. -/
def ofComponents (cs : List Component) : Path :=
  cs.foldl (fun p c => p.join ⟨c.text⟩) ⟨[]⟩

end Path

end Buildpath
