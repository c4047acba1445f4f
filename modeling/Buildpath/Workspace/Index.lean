import Buildpath.Report.Traced
import Buildpath.Workspace.Module

/-!
# The index of a workspace

The modules that are known, in the order in which they were added, and for each module the modules
it refers to, in the order in which that was found out. A module that is added again is replaced
where it stands; one that is removed takes its references along, in both directions.

Models the component `workspace`.
-/

namespace Buildpath

/-- The known modules and their references. -/
structure Workspace where
  modules : List Module
  /-- For each name the names it refers to. -/
  links : List (String × List String)
deriving DecidableEq, Repr

namespace Workspace

/-- The workspace without modules. -/
def empty : Workspace := ⟨[], []⟩

/-- Puts the module in the place of the one of its name, or at the end. -/
def insertModule (m : Module) : List Module → List Module
  | [] => [m]
  | n :: rest => if n.name = m.name then m :: rest else n :: insertModule m rest

def addModule (w : Workspace) (m : Module) : Workspace :=
  { w with modules := insertModule m w.modules }

/-- The workspace of the modules, added in turn. -/
def ofModules (modules : List Module) : Workspace :=
  modules.foldl addModule empty

def module? (w : Workspace) (name : String) : Option Module :=
  w.modules.find? (·.name == name)

def hasModule (w : Workspace) (name : String) : Bool :=
  (w.module? name).isSome

/-- The workspace without the module of that name; nothing changes if there is none. -/
def removeModule (w : Workspace) (name : String) : Workspace :=
  if w.hasModule name then
    { modules := w.modules.filter (·.name != name)
      links := (w.links.filter (·.1 != name)).map fun (source, targets) =>
        (source, targets.filter (· != name)) }
  else w

def targetsOf (w : Workspace) (name : String) : List String :=
  ((w.module? name).map (·.targets)).getD []

def references (w : Workspace) (name : String) : List String :=
  (w.links.lookup name).getD []

/-- Adds a name at the end of the list of a key. -/
def appendLink (key name : String) : List (String × List String) → List (String × List String)
  | [] => [(key, [name])]
  | (k, names) :: rest =>
    if k = key then (k, names ++ [name]) :: rest else (k, names) :: appendLink key name rest

/-- Records that one module refers to another; tells whether that was new. -/
def ensureReference (w : Workspace) (source target : String) : Traced (Bool × Workspace) := do
  if (w.references source).contains target then return (false, w)
  Traced.log .debug .workspace "Added module reference"
    [("from", .text source), ("to", .text target)]
  return (true, { w with links := appendLink source target w.links })

def size (w : Workspace) : Nat :=
  w.modules.length

/-! ### Views -/

theorem lookup_appendLink (key name k : String) (l : List (String × List String)) :
    (appendLink key name l).lookup k =
      if k = key then some ((l.lookup key).getD [] ++ [name]) else l.lookup k := by
  induction l with
  | nil =>
    by_cases h : k = key
    · simp [appendLink, h]
    · simp [appendLink, List.lookup_cons, h, beq_false_of_ne h]
  | cons p rest ih =>
    obtain ⟨a, names⟩ := p
    unfold appendLink
    by_cases ha : a = key
    · subst ha
      by_cases h : k = a
      · simp [h]
      · simp [List.lookup_cons, h, beq_false_of_ne h]
    · by_cases h : k = key
      · subst h
        simp [ha, List.lookup_cons, ih, beq_false_of_ne (Ne.symm ha)]
      · simp [ha, List.lookup_cons, ih, h]

theorem modules_ensureReference (w : Workspace) (source target : String) :
    (w.ensureReference source target).value.2.modules = w.modules := by
  unfold ensureReference
  split <;> rfl

theorem ensureReference_of_mem {w : Workspace} {source target : String}
    (h : target ∈ w.references source) : (w.ensureReference source target).value.2 = w := by
  simp [ensureReference, h]

theorem references_ensureReference (w : Workspace) (source target name : String) :
    (w.ensureReference source target).value.2.references name =
      if name = source ∧ target ∉ w.references source then w.references source ++ [target]
      else w.references name := by
  by_cases h : target ∈ w.references source
  · rw [ensureReference_of_mem h, if_neg fun hn => hn.2 h]
  · have hvalue : (w.ensureReference source target).value.2 =
        { w with links := appendLink source target w.links } := by
      simp [ensureReference, h]
    rw [hvalue]
    unfold references at h ⊢
    rw [lookup_appendLink]
    by_cases hn : name = source
    · simp [hn, h]
    · simp [hn]

end Workspace

end Buildpath
