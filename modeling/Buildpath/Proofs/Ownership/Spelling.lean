import Buildpath.Proofs.Ownership.Search
import Buildpath.Proofs.Path.Spelling

/-!
# Ownership and the spelling of a path

Whether a source root contains a file is decided by components, but its patterns see the text that is
left below the root. So two spellings of one path are owned alike where no patterns are involved, and
where the text below the roots with patterns is written alike (`ownership_follows_spelling_below`).
Nothing weaker will do: there is a pattern for every text that matches no other (`Glob.literal`), and
it tells two spellings apart that are written differently below the root.
-/

namespace Buildpath

/-! ### Patterns for one text -/

namespace Glob

/-- Whether the character means something in a pattern. -/
def IsSpecial (c : Char) : Prop :=
  c = '*' ∨ c = '?' ∨ c = '['

instance (c : Char) : Decidable (IsSpecial c) :=
  inferInstanceAs (Decidable (_ ∨ _ ∨ _))

/-- The pattern that matches this text and no other: special characters stand in classes. -/
def literal : List Char → List Char
  | [] => []
  | c :: rest => if IsSpecial c then '[' :: c :: ']' :: literal rest else c :: literal rest

def literalToken (c : Char) : Token :=
  if IsSpecial c then .oneOf [.single c] else .char c

theorem literal_append (text more : List Char) :
    literal (text ++ more) = literal text ++ literal more := by
  induction text with
  | nil => rfl
  | cons c rest ih =>
    rw [List.cons_append, literal, literal, ih]
    split <;> rfl

theorem length_le_literal (text : List Char) : text.length ≤ (literal text).length := by
  induction text with
  | nil => exact Nat.le_refl 0
  | cons c rest ih =>
    unfold literal
    split <;> simp only [List.length_cons] <;> omega

theorem readTokens_nil (fuel : ℕ) (tokens : List Token) (index : ℕ) (before : Option Char) :
    readTokens fuel tokens index before [] = .ok tokens := by
  cases fuel <;> rfl

/-- The pattern for a text is read token by token, whatever comes after it. -/
theorem readTokens_literal (text after : List Char) (fuel : ℕ) (tokens : List Token) (index : ℕ)
    (before : Option Char) :
    readTokens (text.length + fuel) tokens index before (literal text ++ after) =
      readTokens fuel (tokens ++ text.map literalToken) (index + (literal text).length)
        ((literal text).getLast?.or before) after := by
  induction text generalizing tokens index before with
  | nil => simp [literal]
  | cons c rest ih =>
    have hfuel : (c :: rest).length + fuel = rest.length + fuel + 1 := by
      rw [List.length_cons]
      omega
    rw [hfuel]
    unfold literal
    by_cases hc : IsSpecial c
    · have hclass : readClass? (c :: ']' :: (literal rest ++ after)) =
          some (.oneOf [.single c], literal rest ++ after) := by
        rcases hc with rfl | rfl | rfl <;> simp [readClass?, closeClass?, ClassItem.ofText]
      have hindex : index + 1 +
          ((c :: ']' :: (literal rest ++ after)).length - (literal rest ++ after).length) +
            (literal rest).length = index + ((literal rest).length + 3) := by
        simp only [List.length_cons]
        omega
      rw [if_pos hc]
      simp only [List.cons_append]
      rw [readTokens]
      simp only [hclass]
      rw [ih, hindex]
      simp [literalToken, hc, List.getLast?_cons]
    · rw [if_neg hc, List.cons_append, readTokens, ih]
      · simp [literalToken, hc, List.getLast?_cons, Nat.add_assoc, Nat.add_comm 1]
      · exact fun hstar => hc (Or.inl hstar)
      · exact fun hmark => hc (Or.inr (Or.inl hmark))
      · exact fun hbracket => hc (Or.inr (Or.inr hbracket))

/-- The tokens of a pattern that begins with the pattern for a text. -/
theorem parse_literal_append (text after : List Char) : ∃ fuel, after.length < fuel ∧
    parse (literal text ++ after) =
      readTokens fuel (text.map literalToken) (literal text).length (literal text).getLast? after := by
  have hlength := length_le_literal text
  refine ⟨(literal text ++ after).length + 1 - text.length, ?_, ?_⟩
  · rw [List.length_append]
    omega
  · have hfuel : (literal text ++ after).length + 1 =
        text.length + ((literal text ++ after).length + 1 - text.length) := by
      rw [List.length_append]
      omega
    unfold parse
    rw [hfuel, readTokens_literal, ← hfuel]
    simp

theorem parse_literal (text : List Char) :
    parse (literal text) = .ok (text.map literalToken) := by
  obtain ⟨fuel, -, hparse⟩ := parse_literal_append text []
  rw [List.append_nil] at hparse
  rw [hparse, readTokens_nil]

theorem admits_literalToken (c d : Char) : (literalToken c).admits d = (d == c) := by
  unfold literalToken
  by_cases hc : IsSpecial c
  · rw [if_pos hc]
    by_cases hd : d = c
    · have hslash : ¬ c = '/' := by
        rintro rfl
        revert hc
        decide
      simp [Token.admits, ClassItem.admits, hd, hslash]
    · simp [Token.admits, ClassItem.admits, hd]
  · rw [if_neg hc]
    rfl

/-- A text begins with what the literal tokens spell, and the other tokens match the rest. -/
theorem matchTokens_literal_iff {text other : List Char} {tokens : List Token} :
    matchTokens (text.map literalToken ++ tokens) other = .matched ↔
      ∃ rest, other = text ++ rest ∧ matchTokens tokens rest = .matched := by
  have hstep : ∀ c d tokens rest, matchTokens (literalToken c :: tokens) (d :: rest) =
      if d = c then matchTokens tokens rest else .mismatched := by
    intro c d tokens rest
    have hadmits := admits_literalToken c d
    by_cases hc : IsSpecial c <;> simp_all [literalToken, matchTokens]
  have hend : ∀ c tokens, matchTokens (literalToken c :: tokens) [] = .exhausted := by
    intro c tokens
    by_cases hc : IsSpecial c <;> simp [literalToken, hc, matchTokens]
  induction text generalizing other with
  | nil => simp
  | cons c rest ih =>
    rw [List.map_cons, List.cons_append]
    cases other with
    | nil => simp [hend]
    | cons d tail =>
      rw [hstep]
      by_cases hd : d = c
      · simp [hd, ih]
      · simp [hd]

theorem isMatch_literal_iff {text other : List Char} :
    isMatch (text.map literalToken) other = true ↔ other = text := by
  have hend : ∀ rest, matchTokens [] rest = .matched ↔ rest = [] := by
    intro rest
    cases rest <;> simp [matchTokens]
  have hmatch := @matchTokens_literal_iff text other []
  rw [List.append_nil] at hmatch
  simp [isMatch, hmatch, hend]

theorem getLast?_literal_ne {text : List Char} (h : text.getLast? ≠ some '/') :
    (literal text).getLast? ≠ some '/' := by
  induction text with
  | nil => simp [literal]
  | cons c rest ih =>
    unfold literal
    by_cases hr : rest = []
    · subst hr
      by_cases hc : IsSpecial c <;> simp_all [literal]
    · have hne : literal rest ≠ [] := by
        obtain ⟨d, tail, rfl⟩ := List.exists_cons_of_ne_nil hr
        unfold literal
        split <;> simp
      have hlast : (literal rest).getLast? ≠ some '/' :=
        ih (by rwa [List.getLast?_cons_of_ne_nil hr] at h)
      split <;> simpa [List.getLast?_cons_of_ne_nil, hne] using hlast

end Glob

/-! ### Roots -/

namespace SourceRoot

/-- Whether anything but the place of a file decides. -/
def HasPatterns (r : SourceRoot) : Prop :=
  r.included ≠ [] ∨ r.excluded ≠ []

theorem owns_value_of_plain {r : SourceRoot} (h : ¬ r.HasPatterns) (file : Path) :
    (r.owns file).value = (r.path.below? file).isSome := by
  simp only [HasPatterns, not_or, not_not] at h
  rw [Bool.eq_iff_iff, owns_value_iff, Option.isSome_iff_exists]
  simp [h.1, h.2]

variable {p q : Path}

theorem owns_of_same_spelling {r : SourceRoot} (hp : p.isAbsolute = true) (h : Path.Same p q)
    (halike : r.HasPatterns → r.path.Contains p → r.path.WrittenAlikeBelow p q) :
    (r.owns p).value = (r.owns q).value := by
  by_cases hr : r.HasPatterns
  · unfold owns
    rw [(Path.below?_eq_iff hp h).mpr (halike hr)]
  · rw [owns_value_of_plain hr, owns_value_of_plain hr, Bool.eq_iff_iff, Path.isSome_below?_iff,
      Path.isSome_below?_iff]
    exact ⟨fun hc => hc.of_same h, fun hc => hc.of_same h.symm⟩

/-- There is a pattern for every text that a trailing slash does not turn into more. -/
theorem exists_pattern_for {relative : Path} (h : relative.chars.getLast? ≠ some '/') :
    ∃ pattern, ∀ other, Covers pattern other ↔ other = relative := by
  obtain ⟨text⟩ := relative
  have hparse : Glob.parse (expandPattern (String.ofList (Glob.literal text))) =
      .ok (text.map Glob.literalToken) := by
    simp [expandPattern, Glob.getLast?_literal_ne h, Glob.parse_literal]
  refine ⟨String.ofList (Glob.literal text), ?_⟩
  rintro ⟨other⟩
  unfold Covers
  simp [hparse, Glob.isMatch_literal_iff, Path.mk.injEq]

/-- Two spellings that differ below a root are told apart by a pattern for it. -/
theorem exists_telling_pattern {base : Path} (hp : p.isAbsolute = true) (h : Path.Same p q)
    (hc : base.Contains p) (hdiffer : ¬ base.WrittenAlikeBelow p q) :
    ∃ pattern, ((⟨base, [pattern], []⟩ : SourceRoot).owns p).value = true ∧
      ((⟨base, [pattern], []⟩ : SourceRoot).owns q).value = false := by
  obtain ⟨left, hleft⟩ := Option.isSome_iff_exists.mp (Path.isSome_below?_iff.mpr hc)
  obtain ⟨pattern, hcovers⟩ := exists_pattern_for (Path.getLast?_below?_ne hp h hdiffer hleft)
  refine ⟨pattern, owns_value_iff.mpr ⟨left, hleft, by simp, Or.inr ⟨pattern, ?_, ?_⟩⟩, ?_⟩
  · exact List.mem_singleton_self pattern
  · exact (hcovers left).mpr rfl
  · rw [Bool.eq_false_iff]
    intro howns
    obtain ⟨right, hright, -, hin⟩ := owns_value_iff.mp howns
    rcases hin with hnone | ⟨other, hother, hcover⟩
    · cases hnone
    · rw [List.mem_singleton.mp hother, hcovers] at hcover
      have hsame : base.below? p = base.below? q := by rw [hleft, ← hcover, hright]
      exact hdiffer ((Path.below?_eq_iff hp h).mp hsame hc)

end SourceRoot

/-! ### Modules -/

/-- The paths are written alike below every source root that contains the first and has patterns. -/
def Module.SeesAlike (m : Module) (p q : Path) : Prop :=
  ∀ r ∈ m.sourceRoots, r.HasPatterns → r.path.Contains p → r.path.WrittenAlikeBelow p q

variable {p q : Path}

theorem Module.owns_of_seesAlike {m : Module} (hp : p.isAbsolute = true) (h : Path.Same p q)
    (halike : m.SeesAlike p q) : (m.owns p).value = (m.owns q).value := by
  rw [Bool.eq_iff_iff, Module.owns_value_iff, Module.owns_value_iff]
  refine exists_congr fun r => and_congr_right fun hr => ?_
  rw [SourceRoot.owns_of_same_spelling hp h (halike r hr)]

theorem owner_of_seesAlike {root : Path} {modules : List Module} {source source' : String}
    (hp : p.isAbsolute = true) (h : Path.Same p q) (hsource : sourceFile? root source = some p)
    (hsource' : sourceFile? root source' = some q) (halike : ∀ m ∈ modules, m.SeesAlike p q) :
    (ownerOfSources root [source] modules).value =
      (ownerOfSources root [source'] modules).value := by
  rw [owner_singleton, owner_singleton, hsource, hsource']
  rw [Option.bind_some, Option.bind_some, ← List.head?_filter, ← List.head?_filter,
    List.filter_congr fun m hm => Module.owns_of_seesAlike hp h (halike m hm)]

/-- Two spellings of an absolute path are owned alike by a module if they are written alike below
each of its source roots that contains the path and has patterns; how they are written within the
root, right below it and at the end never matters, nor anything if no such root has patterns. Then a
list of sources has the same owner whichever spelling is in it. And the spelling below a root does
matter: it is the same exactly if no patterns for this root tell the two apart. -/
theorem ownership_follows_spelling_below (hp : p.isAbsolute = true) (h : Path.Same p q) :
    (∀ m : Module, m.SeesAlike p q → (m.owns p).value = (m.owns q).value) ∧
    (∀ (root : Path) (before after : List String) (source source' : String) (modules : List Module),
      sourceFile? root source = some p → sourceFile? root source' = some q →
      (∀ m ∈ modules, m.SeesAlike p q) →
      (ownerOfSources root (before ++ source :: after) modules).value =
        (ownerOfSources root (before ++ source' :: after) modules).value) ∧
    (∀ base : Path, base.Contains p → (base.WrittenAlikeBelow p q ↔ ∀ included excluded,
      ((⟨base, included, excluded⟩ : SourceRoot).owns p).value =
        ((⟨base, included, excluded⟩ : SourceRoot).owns q).value)) := by
  refine ⟨fun m => Module.owns_of_seesAlike hp h,
    fun root before after source source' modules hs hs' halike => ?_, fun base hc => ⟨?_, ?_⟩⟩
  · rw [List.append_cons, List.append_cons before source', owner_append, owner_append before,
      owner_append, owner_append before, owner_of_seesAlike hp h hs hs' halike]
  · exact fun halike included excluded =>
      SourceRoot.owns_of_same_spelling hp h fun _ _ => halike
  · intro hsame
    by_contra hdiffer
    obtain ⟨pattern, howns, hnot⟩ := SourceRoot.exists_telling_pattern hp h hc hdiffer
    rw [hsame [pattern] [], hnot] at howns
    cases howns

/-- Two spellings that differ at, above and right below the root and at the end, but not further
below. -/
theorem ownership_follows_spelling_below_of_tidied :
    let p : Path := .ofString "//ws/./lib//src/gen//G.code/."
    let q : Path := .ofString "/ws/lib/src/gen//G.code"
    let m : Module :=
      ⟨"lib", .ofString "/ws/lib", [⟨.ofString "/ws/lib", ["src/**/*.code"], ["src/gen/G*"]⟩], []⟩
    p.isAbsolute = true ∧ Path.Same p q ∧ m.SeesAlike p q ∧
      (m.owns p).value = true ∧ (m.owns q).value = true ∧
      (ownerOfSources (.ofString "/ws") ["x/X.code", "//ws/./lib//src/gen//G.code/."] [m]).value =
        some m ∧
      ¬ ∀ included excluded, ((⟨.ofString "/ws", included, excluded⟩ : SourceRoot).owns p).value =
        ((⟨.ofString "/ws", included, excluded⟩ : SourceRoot).owns q).value := by
  intro p q m
  have hp : p.isAbsolute = true := by decide +kernel
  have h : Path.Same p q := by decide +kernel
  have halike : m.SeesAlike p q := by
    intro r hr _ _
    rw [List.mem_singleton.mp hr]
    decide +kernel
  have hq : (m.owns q).value = true := by decide +kernel
  have howner : (ownerOfSources (.ofString "/ws") ["x/X.code", "/ws/lib/src/gen//G.code"] [m]).value =
      some m := by decide +kernel
  have hcontains : Path.Contains (.ofString "/ws") p := by decide +kernel
  obtain ⟨howns, howners, hexact⟩ := ownership_follows_spelling_below hp h
  refine ⟨hp, h, halike, (howns m halike).trans hq, hq, ?_, ?_⟩
  · refine Eq.trans ?_ howner
    exact howners (.ofString "/ws") ["x/X.code"] [] _ _ [m] (by decide +kernel) (by decide +kernel)
      fun n hn => List.mem_singleton.mp hn ▸ halike
  · rw [← hexact _ hcontains]
    decide +kernel

/-- A second slash between two names hides a file from a pattern. -/
theorem ownership_differs_by_spelling :
    let p : Path := .ofString "/ws/lib/src/A.code"
    let q : Path := .ofString "/ws/lib/src//A.code"
    let m : Module :=
      ⟨"lib", .ofString "/ws/lib", [⟨.ofString "/ws/lib", ["src/*.code"], []⟩], []⟩
    p.isAbsolute = true ∧ q.isAbsolute = true ∧ Path.Same p q ∧
      (m.owns p).value = true ∧ (m.owns q).value = false ∧
      (ownerOfSources (.ofString "/ws") ["/ws/lib/src/A.code"] [m]).value = some m ∧
      (ownerOfSources (.ofString "/ws") ["/ws/lib/src//A.code"] [m]).value = none := by
  decide +kernel

end Buildpath
