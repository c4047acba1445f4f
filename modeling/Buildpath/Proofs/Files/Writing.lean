import Buildpath.Files.Disk

/-!
# Reading what was written

A file that has been written can be read at the same path (`Disk.read_write`). The walk that finds
the place to write to may end at a name that is not there yet, and the walk that reads goes over a
disk with one more file; still they take the same moves (`Disk.move_put`). How far a walk may go is
bounded in advance, and the bound is never reached (`Disk.walk_succ_of_enough`).
-/

namespace Buildpath

namespace Disk

/-! ### Moves -/

/-- What becomes of a walk at a segment: it ends there, or it goes on from a place with as many links
left to follow. -/
inductive Move where
  | stop (answer : Except SystemError Place)
  | go (links : Nat) (here : Place) (rest : List (List Char))

/-- The move at a name that stands for `next`. -/
def moveTo (d : Disk) (ending : Ending) (links : Nat) (here next : Place)
    (rest : List (List Char)) : Move :=
  match d.inode? next with
  | none => .stop (if ending = .create ∧ rest = [] then .ok next else .error .noSuchFile)
  | some (.link target) =>
    if ending = .keep ∧ rest = [] then .stop (.ok next)
    else
      match links with
      | 0 => .stop (.error .tooManyLinks)
      | links + 1 =>
        .go links (if target.head? = some '/' then [] else here) (Path.segments target ++ rest)
  | some _ => .go links next rest

/-- The move at a segment. -/
def move (d : Disk) (ending : Ending) (links : Nat) (here : Place) (segment : List Char)
    (rest : List (List Char)) : Move :=
  if d.inode? here ≠ some .directory then .stop (.error .notADirectory)
  else if segment = [] ∨ segment = ['.'] then .go links here rest
  else if segment = ['.', '.'] then .go links here.dropLast rest
  else if bytes segment > maxNameBytes then .stop (.error .nameTooLong)
  else if ending = .create ∧ rest ≠ [] ∧ rest.all (· = []) then .stop (.error .isADirectory)
  else d.moveTo ending links here (here ++ [segment]) rest

/-- Walks on after a move. -/
def resume (d : Disk) (ending : Ending) (fuel : Nat) : Move → Except SystemError Place
  | .stop answer => answer
  | .go links here rest => d.walk ending fuel links here rest

variable {d : Disk} {ending : Ending} {fuel links : Nat} {here place : Place}
  {segment : List Char} {rest : List (List Char)}

theorem walk_cons :
    d.walk ending (fuel + 1) links here (segment :: rest) =
      d.resume ending fuel (d.move ending links here segment rest) := by
  have hstop : ∀ answer, d.resume ending fuel (.stop answer) = answer := fun _ => rfl
  have hgo : ∀ links here rest, d.resume ending fuel (.go links here rest) =
      d.walk ending fuel links here rest := fun _ _ _ => rfl
  cases hn : d.inode? (here ++ [segment]) with
  | none => simp only [walk, move, moveTo, hn, apply_ite (d.resume ending fuel), hstop, hgo]
  | some inode =>
    cases inode with
    | link target =>
      cases links <;>
        simp only [walk, move, moveTo, hn, apply_ite (d.resume ending fuel), hstop, hgo]
    | _ => simp only [walk, move, moveTo, hn, apply_ite (d.resume ending fuel), hstop, hgo]

/-- A move goes on where it stands, one place up, or to what the name stands for. -/
theorem move_cases :
    (∃ e, d.move ending links here segment rest = .stop (.error e)) ∨
    d.move ending links here segment rest = .go links here rest ∨
    d.move ending links here segment rest = .go links here.dropLast rest ∨
    d.move ending links here segment rest = d.moveTo ending links here (here ++ [segment]) rest := by
  simp only [move]
  split
  · exact Or.inl ⟨_, rfl⟩
  · split
    · exact Or.inr (Or.inl rfl)
    · split
      · exact Or.inr (Or.inr (Or.inl rfl))
      · split
        · exact Or.inl ⟨_, rfl⟩
        · split
          · exact Or.inl ⟨_, rfl⟩
          · exact Or.inr (Or.inr (Or.inr rfl))

theorem moveTo_eq_go {next here' : Place} {links' : Nat} {rest' : List (List Char)}
    (h : d.moveTo ending links here next rest = .go links' here' rest') :
    (links' = links ∧ here' = next ∧ rest' = rest ∧
        ∃ inode, d.inode? next = some inode ∧ ∀ target, inode ≠ .link target) ∨
      ∃ target, d.inode? next = some (.link target) ∧ links = links' + 1 ∧
        (here' = [] ∨ here' = here) ∧ rest' = Path.segments target ++ rest := by
  unfold moveTo at h
  cases hn : d.inode? next with
  | none => simp [hn] at h
  | some inode =>
    cases inode with
    | link target =>
      simp only [hn] at h
      split at h
      · cases h
      · cases links with
        | zero => cases h
        | succ links =>
          cases h
          refine Or.inr ⟨target, rfl, rfl, ?_, rfl⟩
          split
          · exact Or.inl rfl
          · exact Or.inr rfl
    | _ =>
      simp only [hn] at h
      cases h
      exact Or.inl ⟨rfl, rfl, rfl, _, rfl, by simp⟩

/-! ### How far a walk goes -/

/-- What a move leaves to be walked is less than what there was, where no link has a target of more
than `most` segments. -/
theorem length_of_move {most : Nat}
    (hmost : ∀ q target, d.inode? q = some (.link target) → (Path.segments target).length ≤ most)
    {links' : Nat} {here' : Place} {rest' : List (List Char)}
    (h : d.move ending links here segment rest = .go links' here' rest') :
    rest'.length + links' * most ≤ rest.length + links * most := by
  rcases move_cases (d := d) with ⟨e, hm⟩ | hm | hm | hm
  · rw [hm] at h
    cases h
  · rw [hm] at h
    cases h
    exact Nat.le_refl _
  · rw [hm] at h
    cases h
    exact Nat.le_refl _
  · rw [hm] at h
    rcases moveTo_eq_go h with ⟨rfl, -, rfl, -⟩ | ⟨target, hlink, rfl, -, rfl⟩
    · exact Nat.le_refl _
    · have hlength := hmost _ target hlink
      rw [List.length_append, Nat.add_mul]
      omega

/-- With fuel for everything that may be walked, more fuel makes no difference. -/
theorem walk_succ_of_enough {most : Nat}
    (hmost : ∀ q target, d.inode? q = some (.link target) → (Path.segments target).length ≤ most)
    (h : rest.length + links * most < fuel) :
    d.walk ending (fuel + 1) links here rest = d.walk ending fuel links here rest := by
  induction fuel generalizing links here rest with
  | zero => exact absurd h (Nat.not_lt_zero _)
  | succ fuel ih =>
    cases rest with
    | nil => rfl
    | cons segment rest =>
      rw [walk_cons, walk_cons]
      cases hm : d.move ending links here segment rest with
      | stop answer => rfl
      | go links' here' rest' =>
        have hlength := length_of_move hmost hm
        rw [List.length_cons] at h
        exact ih (by omega)

theorem walk_add_of_enough {most : Nat}
    (hmost : ∀ q target, d.inode? q = some (.link target) → (Path.segments target).length ≤ most)
    (h : rest.length + links * most < fuel) (more : Nat) :
    d.walk ending (fuel + more) links here rest = d.walk ending fuel links here rest := by
  induction more with
  | zero => rfl
  | succ more ih => rw [← ih, ← Nat.add_assoc, walk_succ_of_enough hmost (by omega)]

/-- A walk that arrives does so with more fuel, too. -/
theorem walk_succ_of_ok (h : d.walk ending fuel links here rest = .ok place) :
    d.walk ending (fuel + 1) links here rest = .ok place := by
  induction fuel generalizing links here rest with
  | zero => simp [walk] at h
  | succ fuel ih =>
    cases rest with
    | nil => exact h
    | cons segment rest =>
      rw [walk_cons] at h ⊢
      cases hm : d.move ending links here segment rest with
      | stop answer =>
        rw [hm] at h
        exact h
      | go links' here' rest' =>
        rw [hm] at h
        exact ih h

theorem walk_add_of_ok (h : d.walk ending fuel links here rest = .ok place) (more : Nat) :
    d.walk ending (fuel + more) links here rest = .ok place := by
  induction more with
  | zero => exact h
  | succ more ih => exact walk_succ_of_ok ih

/-- The longer one of a length and the target of a link, with a slash at its end. -/
def longer (n : Nat) (e : Place × Inode) : Nat :=
  match e.2 with
  | .link target => max n (target.length + 1)
  | _ => n

theorem le_longer (n : Nat) (e : Place × Inode) : n ≤ longer n e := by
  unfold longer
  split
  · exact Nat.le_max_left _ _
  · exact Nat.le_refl n

theorem le_foldl_longer (n : Nat) (inodes : List (Place × Inode)) : n ≤ inodes.foldl longer n := by
  induction inodes generalizing n with
  | nil => exact Nat.le_refl n
  | cons e inodes ih => exact Nat.le_trans (le_longer n e) (ih _)

theorem length_le_foldl_longer {inodes : List (Place × Inode)} {q : Place} {target : List Char}
    (h : (q, .link target) ∈ inodes) (n : Nat) : target.length + 1 ≤ inodes.foldl longer n := by
  induction inodes generalizing n with
  | nil => cases h
  | cons e inodes ih =>
    rcases List.mem_cons.mp h with rfl | h
    · exact Nat.le_trans (Nat.le_max_right _ _) (le_foldl_longer _ inodes)
    · exact ih h _

theorem walkFuel_eq (d : Disk) (p : Path) :
    d.walkFuel p = p.chars.length + 2 + (maxLinks + 1) * (d.inodes.foldl longer 0 + 1) := rfl

theorem length_segments_le (cs : List Char) : (Path.segments cs).length ≤ cs.length + 1 := by
  induction cs with
  | nil => exact Nat.le_refl 1
  | cons c cs ih =>
    rw [Path.segments, Text.splitOn, List.length_cons]
    split
    · exact Nat.succ_le_succ ih
    · cases hs : Text.splitOn '/' cs with
      | nil => exact Nat.le_add_left 1 _
      | cons piece pieces =>
        rw [Path.segments, hs, List.length_cons] at ih
        exact Nat.le_succ_of_le ih

theorem mem_of_inode?_link {q : Place} {target : List Char}
    (h : d.inode? q = some (.link target)) : (q, .link target) ∈ d.inodes := by
  unfold inode? at h
  split at h
  · cases h
  · obtain ⟨before, after, hsplit, -⟩ := List.lookup_eq_some_iff.mp h
    rw [hsplit]
    exact List.mem_append_cons_self

/-- No walk of a path runs out of fuel. -/
theorem enough_walkFuel (d : Disk) (p : Path) :
    ∃ most, (∀ q target, d.inode? q = some (.link target) →
      (Path.segments target).length ≤ most) ∧
      (Path.segments p.chars).length + maxLinks * most < d.walkFuel p := by
  refine ⟨d.inodes.foldl longer 0, fun q target h => ?_, ?_⟩
  · exact Nat.le_trans (length_segments_le target)
      (length_le_foldl_longer (mem_of_inode?_link h) 0)
  · have hsegments := length_segments_le p.chars
    rw [walkFuel_eq, Nat.succ_mul, Nat.mul_succ]
    omega

/-! ### One more file -/

theorem lookup_put (inodes : List (Place × Inode)) (place q : Place) (inode : Inode) :
    (inodes.filter (·.1 != place) ++ [(place, inode)]).lookup q =
      if q = place then some inode else inodes.lookup q := by
  induction inodes with
  | nil =>
    by_cases h : q = place
    · simp [h]
    · simp [List.lookup_cons, h, beq_false_of_ne h]
  | cons e inodes ih =>
    obtain ⟨k, i⟩ := e
    by_cases hk : k = place
    · subst hk
      by_cases h : q = k
      · simpa [h] using ih
      · simpa [h, List.lookup_cons, beq_false_of_ne h] using ih
    · by_cases h : q = k
      · simp [hk, h]
      · simpa [hk, List.lookup_cons, beq_false_of_ne h] using ih

theorem inode?_put (d : Disk) {place : Place} (hplace : place ≠ []) (inode : Inode) (q : Place) :
    (d.put place inode).inode? q = if q = place then some inode else d.inode? q := by
  by_cases hq : q = []
  · simp [inode?, hq, Ne.symm hplace]
  · simp [inode?, hq, put, lookup_put]

/-- A walk for writing that ends at a name ends where nothing is. -/
theorem inode?_of_move_stop {q : Place}
    (h : d.move .create links here segment rest = .stop (.ok q)) : d.inode? q = none := by
  rcases move_cases (d := d) with ⟨e, hm⟩ | hm | hm | hm <;> rw [hm] at h
  · cases h
  · cases h
  · cases h
  · unfold moveTo at h
    cases hn : d.inode? (here ++ [segment]) with
    | none =>
      simp only [hn] at h
      split at h
      · cases h
        exact hn
      · cases h
    | some inode =>
      cases inode with
      | link target => cases links <;> simp [hn] at h
      | _ => simp [hn] at h

/-- A walk that is not below the place of a link does not end there. -/
theorem walk_ne_link {target : List Char} (hlink : d.inode? place = some (.link target))
    (houtside : ¬ place <+: here) : d.walk .create fuel links here rest ≠ .ok place := by
  have hplace : place ≠ [] := by
    rintro rfl
    cases hlink
  induction fuel generalizing links here rest with
  | zero => simp [walk]
  | succ fuel ih =>
    cases rest with
    | nil =>
      intro h
      cases h
      exact houtside List.prefix_rfl
    | cons segment rest =>
      rw [walk_cons]
      cases hm : d.move .create links here segment rest with
      | stop answer =>
        rintro rfl
        rw [inode?_of_move_stop hm] at hlink
        cases hlink
      | go links' here' rest' =>
        refine ih fun hbelow => houtside ?_
        rcases move_cases (d := d) with ⟨e, hcase⟩ | hcase | hcase | hcase <;> rw [hcase] at hm
        · cases hm
        · cases hm
          exact hbelow
        · cases hm
          exact hbelow.trans (List.dropLast_prefix here)
        · rcases moveTo_eq_go hm with ⟨-, rfl, -, inode, hn, hnone⟩ | ⟨-, -, -, rfl | rfl, -⟩
          · rcases List.prefix_concat_iff.mp hbelow with rfl | hbelow
            · rw [hlink] at hn
              exact absurd (Option.some.inj hn).symm (hnone target)
            · exact hbelow
          · exact absurd (List.prefix_nil.mp hbelow) hplace
          · exact hbelow

/-- What becomes of a move for writing once the file is there: a walk that ended goes on to the
file. -/
def Move.found (place : Place) (links : Nat) : Move → Move
  | .stop _ => .go links place []
  | .go links here rest => .go links here rest

section

variable (hplace : place ≠ []) (hdir : d.inode? place ≠ some .directory) {content : String}
  (hlink : here ++ [segment] = place → ∀ target, d.inode? place ≠ some (.link target))

include hplace hlink

theorem moveTo_put
    (h : d.resume .create fuel (d.moveTo .create links here (here ++ [segment]) rest) = .ok place) :
    (d.put place (.file content)).moveTo .follow links here (here ++ [segment]) rest =
      (d.moveTo .create links here (here ++ [segment]) rest).found place links := by
  unfold moveTo at h ⊢
  rw [inode?_put d hplace]
  cases hi : d.inode? (here ++ [segment]) with
  | none =>
    -- The file is made here, so this is its place and nothing is left to walk.
    simp only [hi, true_and] at h ⊢
    by_cases hrest : rest = []
    · rw [if_pos hrest] at h
      cases h
      simp [Move.found, hrest]
    · rw [if_neg hrest] at h
      cases h
  | some inode =>
    by_cases hn : here ++ [segment] = place
    · cases inode with
      | link target => exact absurd (hn ▸ hi) (hlink hn target)
      | _ => simp [hn, Move.found]
    · rw [if_neg hn]
      cases inode with
      | link target =>
        simp only [hi] at h
        cases links with
        | zero => simp [resume] at h
        | succ links => simp [Move.found]
      | _ => rfl

include hdir

/-- The walk that finds the place to write to takes the same moves when the file is there. -/
theorem move_put
    (h : d.resume .create fuel (d.move .create links here segment rest) = .ok place) :
    (d.put place (.file content)).move .follow links here segment rest =
      (d.move .create links here segment rest).found place links := by
  have hhere : d.inode? here = some .directory := by
    refine Decidable.not_not.mp fun hne => ?_
    simp [move, hne, resume] at h
  have hne : here ≠ place := by
    rintro rfl
    exact hdir hhere
  have hsame : (d.put place (.file content)).inode? here = some .directory := by
    rw [inode?_put d hplace, if_neg hne, hhere]
  simp only [move, hhere, hsame, ne_eq, not_true_eq_false, if_false, reduceCtorEq, false_and,
    true_and] at h ⊢
  by_cases hdot : segment = [] ∨ segment = ['.']
  · simp only [hdot, if_true]
    rfl
  · by_cases hup : segment = ['.', '.']
    · rw [if_neg hdot, if_neg hdot, if_pos hup, if_pos hup]
      rfl
    · simp only [hdot, hup, if_false] at h ⊢
      split at h
      · cases h
      · rename_i hlong
        rw [if_neg hlong, if_neg hlong]
        split at h
        · cases h
        · rename_i hslash
          rw [if_neg hslash]
          exact moveTo_put hplace hlink h

end

/-- A walk for writing leads to the same place as a walk for reading once the file is there. -/
theorem walk_put (hplace : place ≠ []) (hdir : d.inode? place ≠ some .directory) (content : String)
    (h : d.walk .create fuel links here rest = .ok place) :
    (d.put place (.file content)).walk .follow (fuel + 1) links here rest = .ok place := by
  induction fuel generalizing links here rest with
  | zero => simp [walk] at h
  | succ fuel ih =>
    cases rest with
    | nil => exact h
    | cons segment rest =>
      -- A link at the place itself would have led away from it.
      have hlink : here ++ [segment] = place → ∀ target, d.inode? place ≠ some (.link target) := by
        rintro rfl target hlink
        exact walk_ne_link hlink (fun hbelow => absurd hbelow.length_le (by simp)) h
      rw [walk_cons] at h ⊢
      rw [move_put hplace hdir hlink h]
      cases hm : d.move .create links here segment rest with
      | stop answer => rfl
      | go links' here' rest' =>
        rw [hm] at h
        exact ih h

theorem place?_put (hplace : place ≠ []) (hdir : d.inode? place ≠ some .directory) {p : Path}
    (h : d.place? .create p = .ok place) (content : String) :
    (d.put place (.file content)).place? .follow p = .ok place := by
  unfold place? at h ⊢
  split at h
  · cases h
  · rename_i hnul
    rw [if_neg hnul]
    split at h
    · cases h
    · rename_i hempty
      rw [if_neg hempty]
      split at h
      · cases h
      · rename_i hlong
        rw [if_neg hlong]
        obtain ⟨most, hmost, henough⟩ := enough_walkFuel (d.put place (.file content)) p
        have hwalk := walk_add_of_ok (walk_put hplace hdir content h)
          ((d.put place (.file content)).walkFuel p)
        rw [Nat.add_comm, walk_add_of_enough hmost henough] at hwalk
        exact hwalk

/-- What has been written at a path can be read there, and all other places are as they were. -/
theorem read_write {d' : Disk} {p : Path} {content : String}
    (h : d.write p (.file content) = .ok d') :
    d'.read p = .ok content ∧
      ∃ place, d.place? .create p = .ok place ∧ ∀ q, q ≠ place → d'.inode? q = d.inode? q := by
  cases hp : d.place? .create p with
  | error e =>
    rw [write, hp] at h
    cases h
  | ok place =>
    by_cases hdir : d.inode? place = some .directory
    · simp [write, hp, hdir, bind, Except.bind] at h
    · have hplace : place ≠ [] := by
        rintro rfl
        exact hdir rfl
      have hput : d' = d.put place (.file content) := by
        simpa [write, hp, hdir, bind, Except.bind] using h.symm
      have hfile : d'.inode? place = some (.file content) := by
        rw [hput, inode?_put d hplace, if_pos rfl]
      have hfind : d'.find? .follow p = .ok (.file content) := by
        rw [find?, hput, place?_put hplace hdir hp, ← hput]
        simp [bind, Except.bind, hfile]
      refine ⟨?_, place, rfl, fun q hq => ?_⟩
      · rw [read, hfind]
        rfl
      · rw [hput, inode?_put d hplace, if_neg hq]

end Disk

end Buildpath
