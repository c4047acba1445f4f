import Buildpath.Proofs.Cache.Views
import Buildpath.Proofs.History

/-!
# Import guards

The cache only counts the imports that are running. Whoever runs an import holds a guard, and guards
may be dropped in any order. Here the guards have numbers, and the count is tied to what a history
says about them: a guard is alive when it was issued and has not been dropped since.
-/

namespace Buildpath

/-- The guards that are held, and how many have been issued; the next one gets that number. -/
structure ImportGuards where
  live : List Nat
  issued : Nat
deriving DecidableEq, Repr

namespace ImportGuards

def empty : ImportGuards := ⟨[], 0⟩

def issue (g : ImportGuards) : ImportGuards :=
  ⟨g.issued :: g.live, g.issued + 1⟩

def drop (g : ImportGuards) (n : Nat) : ImportGuards :=
  ⟨g.live.erase n, g.issued⟩

/-- The guards are those for which `alive` holds, and the cache counts them. -/
structure Tracks (g : ImportGuards) (c : Cache) (alive : Nat → Prop) : Prop where
  count : c.imports = g.live.length
  mem_iff : ∀ n, n ∈ g.live ↔ alive n
  nodup : g.live.Nodup
  lt_issued : ∀ n ∈ g.live, n < g.issued

variable {g : ImportGuards} {c c' : Cache} {alive alive' : Nat → Prop}

theorem tracks_empty (h : c.imports = 0) (hn : ∀ n, ¬ alive n) : empty.Tracks c alive :=
  ⟨h, fun n => ⟨fun hm => absurd hm List.not_mem_nil, fun ha => absurd ha (hn n)⟩, List.nodup_nil,
    fun _ hm => absurd hm List.not_mem_nil⟩

namespace Tracks

/-- What does not count imports leaves the guards alone. -/
theorem congr (h : g.Tracks c alive) (hc : c'.imports = c.imports) (ha : ∀ n, alive' n ↔ alive n) :
    g.Tracks c' alive' :=
  ⟨hc.trans h.count, fun n => (h.mem_iff n).trans (ha n).symm, h.nodup, h.lt_issued⟩

theorem issue (h : g.Tracks c alive) (ha : ∀ n, alive' n ↔ n = g.issued ∨ alive n) :
    g.issue.Tracks c.beginImport alive' := by
  refine ⟨?_, fun n => ?_, ?_, fun n hn => ?_⟩
  · show c.imports + 1 = _
    rw [h.count]
    rfl
  · rw [ha, ← h.mem_iff]
    exact List.mem_cons
  · exact List.nodup_cons.mpr ⟨fun hm => Nat.lt_irrefl _ (h.lt_issued _ hm), h.nodup⟩
  · rcases List.mem_cons.mp hn with rfl | hn
    · exact Nat.lt_succ_self _
    · exact Nat.lt_succ_of_lt (h.lt_issued n hn)

theorem drop (h : g.Tracks c alive) {k : Nat} (hk : k ∈ g.live)
    (ha : ∀ n, alive' n ↔ n ≠ k ∧ alive n) : (g.drop k).Tracks c.endImport alive' := by
  refine ⟨?_, fun n => ?_, h.nodup.erase k, fun n hn => h.lt_issued n (List.mem_of_mem_erase hn)⟩
  · show c.imports - 1 = _
    rw [h.count]
    exact (List.length_erase_of_mem hk).symm
  · rw [ha, ← h.mem_iff]
    exact h.nodup.mem_erase_iff

theorem isImporting_iff (h : g.Tracks c alive) : c.isImporting = true ↔ ∃ n, alive n := by
  rw [Cache.isImporting_iff, h.count, List.length_pos_iff_exists_mem]
  exact exists_congr h.mem_iff

theorem isImporting_eq_false_iff (h : g.Tracks c alive) :
    c.isImporting = false ↔ ¬ ∃ n, alive n := by
  rw [← h.isImporting_iff, Bool.not_eq_true]

end Tracks

end ImportGuards

end Buildpath
