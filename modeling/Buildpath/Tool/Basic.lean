import Buildpath.Archive.Location
import Buildpath.Dependency
import Buildpath.Failure
import Buildpath.Problem
import Buildpath.Report.Traced

/-!
# Build tools

What the resolver asks of a build tool. The tool keeps a state of its own, of type `σ`. A query for
metadata has two halves, because others may act while the tool is at work: `startQuery` announces
it and `finishQuery` delivers the answer. Metadata is ordered by label and holds each label once.

Models the component `build_tool`.
-/

namespace Buildpath

/-- The dependencies that a query found, in ascending order of their labels. -/
structure Metadata where
  units : List Dependency
  ascending : units.Pairwise fun d e => d.label < e.label
deriving DecidableEq, Repr

namespace Metadata

/-- Nothing was found. -/
def empty : Metadata := ⟨[], .nil⟩

instance : Inhabited Metadata := ⟨empty⟩

/-- Puts the dependency where its label belongs, in the place of the one of its label. -/
def place (d : Dependency) : List Dependency → List Dependency
  | [] => [d]
  | e :: rest =>
    if d.label < e.label then d :: e :: rest
    else if d.label = e.label then d :: rest
    else e :: place d rest

theorem mem_place {d e : Dependency} {l : List Dependency} (h : e ∈ place d l) : e = d ∨ e ∈ l := by
  induction l with
  | nil => exact Or.inl (by simpa [place] using h)
  | cons a rest ih =>
    simp only [place] at h
    split at h
    · simpa using h
    · split at h
      · rcases List.mem_cons.mp h with h | h
        · exact Or.inl h
        · exact Or.inr (List.mem_cons_of_mem _ h)
      · rcases List.mem_cons.mp h with h | h
        · exact Or.inr (h ▸ List.mem_cons_self)
        · exact (ih h).imp id (List.mem_cons_of_mem _)

theorem place_ascending (d : Dependency) {l : List Dependency}
    (h : l.Pairwise fun d e => d.label < e.label) :
    (place d l).Pairwise fun d e => d.label < e.label := by
  induction l with
  | nil => simp [place]
  | cons a rest ih =>
    obtain ⟨hhead, htail⟩ := List.pairwise_cons.mp h
    simp only [place]
    split
    · rename_i hlt
      refine List.pairwise_cons.mpr ⟨fun e he => ?_, h⟩
      rcases List.mem_cons.mp he with rfl | he
      · exact hlt
      · exact String.lt_trans hlt (hhead e he)
    · split
      · rename_i heq
        exact List.pairwise_cons.mpr ⟨fun e he => heq ▸ hhead e he, htail⟩
      · rename_i hlt hne
        have hgt : a.label < d.label :=
          String.not_le.mp fun hle => hne (String.le_antisymm hle (String.not_lt.mp hlt))
        refine List.pairwise_cons.mpr ⟨fun e he => ?_, ih htail⟩
        rcases mem_place he with rfl | he
        · exact hgt
        · exact hhead e he

/-- Adds a dependency; a later one replaces an earlier one of its label. -/
def insert (m : Metadata) (d : Dependency) : Metadata :=
  ⟨place d m.units, place_ascending d m.ascending⟩

/-- Adds all dependencies of `n`. -/
def union (m n : Metadata) : Metadata :=
  n.units.foldl insert m

/-- The metadata of the dependencies, added in turn. -/
def ofList (l : List Dependency) : Metadata :=
  l.foldl insert empty

def size (m : Metadata) : Nat :=
  m.units.length

end Metadata

/-- What a query is about and what it is asked for. -/
structure Request where
  module : String
  targets : List String
  operation : String
deriving DecidableEq, Repr

/-- A build tool with a state of type `σ`. -/
structure BuildTool (σ : Type) where
  /-- The directory of the workspace, if the tool knows it. -/
  workspaceRoot : σ → Option Path
  startQuery : Request → σ → Traced σ
  /-- Delivers the metadata of everything that the targets depend on. -/
  finishQuery : Request → σ → Traced (Except Failure Metadata × σ)
  /-- Builds the targets and tells what is wrong with them. -/
  check : List String → σ → Traced (Except Failure (List Problem) × σ)
  outputRoots : σ → Traced (Except Failure OutputRoots × σ)
  flush : List String → σ → Traced σ
  isAvailable : σ → Traced (Bool × σ)

namespace BuildTool

def query {σ : Type} (tool : BuildTool σ) (r : Request) (s : σ) :
    Traced (Except Failure Metadata × σ) := do
  tool.finishQuery r (← tool.startQuery r s)

end BuildTool

end Buildpath
