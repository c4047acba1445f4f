import Buildpath.Json.Printer
import Buildpath.Json.Reader
import Buildpath.Proofs.Text.Digits
import Mathlib.Data.List.Basic

/-!
# What is written is read

A value is written without gaps or over several lines; either way it is written in a layout, which says
what gaps there are (`written`, `toList_compact`, `toList_prettyAt`). In every layout the text of a value
without numbers other than natural ones is read as this value, whatever follows it, if there is fuel
enough for it (`ReadsValues`); a step of the reader needs one unit less for what is inside
(`readsValues_succ`, `readsItems_succ`, `readsMembers_succ`). A whole text has enough, so that it is read
back (`parse?_compact`, `parse?_pretty`). Strings come first: an escaped character is read as this
character (`readUnits?_escape`).
-/

namespace Buildpath.Json

/-! ### Strings -/

theorem hexValue?_hexDigit : ∀ n < 16, hexValue? (hexDigit n) = some n := by
  decide

theorem escape_cases (c : Char) :
    (escape c = [c] ∧ c ≠ '"' ∧ c ≠ '\\' ∧ 0x20 ≤ c.toNat) ∨
      (∃ d, escape c = ['\\', d] ∧ d ≠ 'u' ∧ shortEscape? d = some c) ∨
      (escape c = ['\\', 'u', '0', '0', hexDigit (c.toNat / 16), hexDigit (c.toNat % 16)] ∧
        c.toNat < 0x20) := by
  unfold escape
  split
  · exact Or.inr (Or.inl ⟨'"', rfl, by decide, by simp_all [shortEscape?]⟩)
  split
  · exact Or.inr (Or.inl ⟨'\\', rfl, by decide, by simp_all [shortEscape?]⟩)
  split
  · exact Or.inr (Or.inl ⟨'b', rfl, by decide, by simp_all [shortEscape?]⟩)
  split
  · exact Or.inr (Or.inl ⟨'f', rfl, by decide, by simp_all [shortEscape?]⟩)
  split
  · exact Or.inr (Or.inl ⟨'n', rfl, by decide, by simp_all [shortEscape?]⟩)
  split
  · exact Or.inr (Or.inl ⟨'r', rfl, by decide, by simp_all [shortEscape?]⟩)
  split
  · exact Or.inr (Or.inl ⟨'t', rfl, by decide, by simp_all [shortEscape?]⟩)
  split
  · rename_i hsmall
    exact Or.inr (Or.inr ⟨rfl, hsmall⟩)
  · rename_i hquote hbackslash _ _ _ _ _ hlarge
    exact Or.inl ⟨rfl, hquote, hbackslash, Nat.le_of_not_lt hlarge⟩

theorem readUnit?_control {c : Char} (hc : c.toNat < 0x20) (rest : List Char) :
    readUnit? ('0' :: '0' :: hexDigit (c.toNat / 16) :: hexDigit (c.toNat % 16) :: rest) =
      some (c.toNat, rest) := by
  have hzero : hexValue? '0' = some 0 := by decide
  have hhigh := hexValue?_hexDigit (c.toNat / 16) (by omega)
  have hlow := hexValue?_hexDigit (c.toNat % 16) (by omega)
  have hvalue : ((0 * 16 + 0) * 16 + c.toNat / 16) * 16 + c.toNat % 16 = c.toNat := by omega
  unfold readUnit?
  simp only [hzero, hhigh, hlow, Option.bind_eq_bind, Option.bind_some, hvalue]
  rfl

/-- The text does not begin with an escaped number that cannot be read. -/
def Continues (cs : List Char) : Prop :=
  ∀ rest, cs = '\\' :: 'u' :: rest → (readUnit? rest).isSome = true

theorem continues_escape (c : Char) (rest : List Char) : Continues (escape c ++ rest) := by
  intro digits hdigits
  rcases escape_cases c with ⟨hc, -, hbackslash, -⟩ | ⟨d, hc, hd, -⟩ | ⟨hc, hsmall⟩
  · rw [hc] at hdigits
    exact absurd (List.cons.inj hdigits).1 hbackslash
  · rw [hc] at hdigits
    exact absurd (List.cons.inj (List.cons.inj hdigits).2).1 hd
  · rw [hc] at hdigits
    have hrest := (List.cons.inj (List.cons.inj hdigits).2).2
    rw [← hrest]
    exact Option.isSome_iff_exists.mpr ⟨_, readUnit?_control hsmall rest⟩

theorem continues_escaped (cs rest : List Char) : Continues (cs.flatMap escape ++ '"' :: rest) := by
  cases cs with
  | nil =>
    intro digits hdigits
    exact absurd (List.cons.inj hdigits).1 (by decide)
  | cons c cs =>
    rw [List.flatMap_cons, List.append_assoc]
    exact continues_escape c _

theorem readUnits?_escape {fuel : ℕ} {cs rest : List Char} {units : List Unit?} (c : Char)
    (hcs : Continues cs) (h : readUnits? fuel cs = some (units, rest)) :
    readUnits? (fuel + 1) (escape c ++ cs) = some (some c :: units, rest) := by
  rcases escape_cases c with ⟨hc, hquote, hbackslash, hlarge⟩ | ⟨d, hc, hd, hshort⟩ | ⟨hc, hsmall⟩
  · have hplain : (c == '\\' || decide (c.toNat < 0x20)) = false := by
      simp [hbackslash, Nat.not_lt.mpr hlarge]
    rw [hc, List.singleton_append, readUnits?]
    · rw [hplain, h]
      rfl
    · exact hquote
    · exact fun _ hback _ => hbackslash hback
    · exact fun _ _ hback _ => hbackslash hback
  · rw [hc, List.cons_append, List.singleton_append, readUnits?, hshort, h]
    · rfl
    · exact hd
  · have hunit := readUnit?_control hsmall cs
    have hhigh : isHighHalf c.toNat = false := by
      unfold isHighHalf
      simp only [Bool.and_eq_false_iff, decide_eq_false_iff_not]
      omega
    have hlow : isLowHalf c.toNat = false := by
      unfold isLowHalf
      simp only [Bool.and_eq_false_iff, decide_eq_false_iff_not]
      omega
    have hchar : Char.ofNat c.toNat = c := Char.ofNat_toNat c
    rw [hc, List.cons_append, List.cons_append, readUnits?]
    simp only [List.cons_append, List.nil_append, hunit, Option.bind_eq_bind, Option.bind_some, hhigh,
      hlow, Bool.false_and, Bool.or_self, Bool.false_eq_true, if_false, hchar, h]
    -- What follows is looked at in case that the number is half of a pair, and it is not.
    split
    · rename_i digits
      obtain ⟨next, hnext⟩ := Option.isSome_iff_exists.mp (hcs digits rfl)
      rw [hnext]
      rfl
    · rfl

theorem readUnits?_escaped (cs rest : List Char) {fuel : ℕ} (hfuel : cs.length < fuel) :
    readUnits? fuel (cs.flatMap escape ++ '"' :: rest) = some (cs.map some, rest) := by
  induction cs generalizing fuel with
  | nil =>
    obtain ⟨fuel, rfl⟩ := Nat.exists_eq_add_one_of_ne_zero (Nat.ne_of_gt hfuel)
    rfl
  | cons c cs ih =>
    obtain ⟨fuel, rfl⟩ := Nat.exists_eq_add_one_of_ne_zero (Nat.ne_of_gt (Nat.zero_lt_of_lt hfuel))
    have hrest := ih (Nat.lt_of_succ_lt_succ hfuel)
    rw [List.flatMap_cons, List.append_assoc]
    exact readUnits?_escape c (continues_escaped cs rest) hrest

theorem length_le_escaped (cs : List Char) : cs.length ≤ (cs.flatMap escape).length := by
  induction cs with
  | nil => exact Nat.le_refl 0
  | cons c cs ih =>
    have hc : 1 ≤ (escape c).length := by
      rcases escape_cases c with ⟨hc, -⟩ | ⟨d, hc, -⟩ | ⟨hc, -⟩ <;> simp [hc]
    rw [List.flatMap_cons, List.length_append, List.length_cons]
    omega

theorem mapM_some (cs : List Char) : (cs.map some).mapM (m := Option) id = some cs := by
  induction cs with
  | nil => rfl
  | cons c cs ih =>
    rw [List.map_cons, List.mapM_cons, ih]
    rfl

theorem readString?_escaped (s : String) (rest : List Char) :
    readString? (s.toList.flatMap escape ++ '"' :: rest) = some (some s, rest) := by
  have hlength := length_le_escaped s.toList
  have hunits : readUnits? ((s.toList.flatMap escape ++ '"' :: rest).length + 1)
      (s.toList.flatMap escape ++ '"' :: rest) = some (s.toList.map some, rest) := by
    apply readUnits?_escaped
    rw [List.length_append]
    omega
  unfold readString?
  rw [hunits]
  simp only [Option.map_some, mapM_some, String.ofList_toList]

/-! ### Numbers -/

/-- No text that begins so goes on with a number before it. -/
def EndsNumber (rest : List Char) : Prop :=
  ∀ c ∈ rest.head?, c.isDigit = false ∧ c ≠ '.' ∧ isExponentMark c = false

theorem endsNumber_cons {c : Char} (rest : List Char) (hdigit : c.isDigit = false) (hpoint : c ≠ '.')
    (hmark : isExponentMark c = false) : EndsNumber (c :: rest) := by
  intro d hd
  cases hd
  exact ⟨hdigit, hpoint, hmark⟩

theorem digitsValue_eq (digits : List Char) : digitsValue digits = Nat.ofDigitChars 10 digits 0 := by
  unfold digitsValue Nat.ofDigitChars
  simp only [Nat.mul_comm]

theorem takeDigits?_toDigits (n : ℕ) {rest : List Char} (h : EndsNumber rest) :
    takeDigits? (Nat.toDigits 10 n ++ rest) = some (Nat.toDigits 10 n, rest) := by
  have hdigits : ∀ c ∈ Nat.toDigits 10 n, c.isDigit = true := fun c hc =>
    Text.isDigit_of_mem_toDigits hc
  have hstop : rest.takeWhile Char.isDigit = [] ∧ rest.dropWhile Char.isDigit = rest := by
    cases rest with
    | nil => exact ⟨rfl, rfl⟩
    | cons c rest => simp [(h c rfl).1]
  have hne : Nat.toDigits 10 n ≠ [] := by simp
  unfold takeDigits?
  rw [List.takeWhile_append_of_pos hdigits, List.dropWhile_append_of_pos hdigits, hstop.1, hstop.2,
    List.append_nil]
  split
  · rename_i hnil
    exact absurd hnil hne
  · rfl

theorem readTail?_natural {digits rest : List Char} (h : EndsNumber rest) :
    readTail? false digits rest = some (.integer (digitsValue digits), rest) := by
  cases rest with
  | nil => rfl
  | cons c rest =>
    obtain ⟨-, hpoint, hmark⟩ := h c rfl
    rw [readTail?]
    · simp [hmark, readTail?.plain]
    · exact hpoint

theorem readNumber?_natural (n : ℕ) {rest : List Char} (h : EndsNumber rest) :
    readNumber? false (Nat.toDigits 10 n ++ rest) = some (.integer n, rest) := by
  have hvalue : digitsValue (Nat.toDigits 10 n) = n := by
    rw [digitsValue_eq, Nat.ofDigitChars_ten_toDigits]
  unfold readNumber?
  rw [takeDigits?_toDigits n h]
  simp only [Option.bind_eq_bind, Option.bind_some]
  split
  · rename_i hzero
    exact absurd hzero Text.not_zeroPadded_toDigits
  · rw [readTail?_natural h, hvalue]

/-! ### Gaps -/

def IsGaps (gap : List Char) : Prop :=
  ∀ c ∈ gap, isGap c = true

theorem isGap_of_isDigit {c : Char} (h : c.isDigit = true) : isGap c = false := by
  by_contra hgap
  simp only [isGap, Bool.not_eq_false, Bool.or_eq_true, beq_iff_eq] at hgap
  rcases hgap with ((rfl | rfl) | rfl) | rfl <;> cases h

theorem skipGap_cons {c : Char} (h : isGap c = false) (cs : List Char) :
    skipGap (c :: cs) = c :: cs :=
  List.dropWhile_cons_of_neg (by rw [h]; decide)

theorem skipGap_append {gap : List Char} (h : IsGaps gap) (cs : List Char) :
    skipGap (gap ++ cs) = skipGap cs :=
  List.dropWhile_append_of_pos h

theorem readValue?_gap {gap : List Char} (h : IsGaps gap) (fuel : ℕ) (cs : List Char) :
    readValue? fuel (gap ++ cs) = readValue? fuel cs := by
  cases fuel with
  | zero => rfl
  | succ fuel => rw [readValue?, readValue?, skipGap_append h]

theorem endsNumber_gap {gap : List Char} (h : IsGaps gap) {rest : List Char}
    (hrest : EndsNumber rest) : EndsNumber (gap ++ rest) := by
  cases gap with
  | nil => exact hrest
  | cons c gap =>
    have hc : isGap c = true := h c List.mem_cons_self
    simp only [isGap, Bool.or_eq_true, beq_iff_eq] at hc
    rcases hc with ((rfl | rfl) | rfl) | rfl <;>
      exact endsNumber_cons _ (by decide) (by decide) (by decide)

/-! ### Layouts -/

/-- What stands between the parts of a value. -/
structure Layout where
  /-- The gap before an item or a member, and before what closes them, at a depth. -/
  gap : ℕ → List Char
  /-- The gap before the value of a member. -/
  space : List Char
  isGaps_gap (depth : ℕ) : IsGaps (gap depth)
  isGaps_space : IsGaps space

namespace Layout

/-- There are no gaps. -/
def tight : Layout := ⟨fun _ => [], [], fun _ => nofun, nofun⟩

/-- Every item and every member stands on lines of its own. -/
def indented : Layout where
  gap depth := (newLine depth).toList
  space := [' ']
  isGaps_gap depth c hc := by
    simp only [newLine, String.toList_append, String.toList_ofList, List.mem_append,
      List.mem_replicate] at hc
    rcases hc with hc | ⟨-, rfl⟩
    · rw [show c = '\n' by simpa using hc]
      decide
    · decide
  isGaps_space := List.forall_mem_singleton.mpr (by decide)

end Layout

mutual

/-- The text of a value in a layout, inside `depth` levels of nesting. -/
def written (L : Layout) (depth : ℕ) : Json → List Char
  | .null | .unreadable => "null".toList
  | .bool b => (if b then "true" else "false").toList
  | .integer n => (toString n).toList
  | .real mantissa exponent => (realText mantissa exponent).toList
  | .string s => (quote s).toList
  | .array [] => ['[', ']']
  | .array (j :: rest) =>
    '[' :: (writtenItems L (depth + 1) (j :: rest) ++ (L.gap depth ++ [']']))
  | .object [] => ['\x7b', '\x7d']
  | .object (m :: rest) =>
    '\x7b' :: (writtenMembers L (depth + 1) (m :: rest) ++ (L.gap depth ++ ['\x7d']))

def writtenItems (L : Layout) (depth : ℕ) : List Json → List Char
  | [] => []
  | [j] => L.gap depth ++ written L depth j
  | j :: rest => L.gap depth ++ (written L depth j ++ ',' :: writtenItems L depth rest)

def writtenMembers (L : Layout) (depth : ℕ) : List (String × Json) → List Char
  | [] => []
  | [(key, j)] => L.gap depth ++ ((quote key).toList ++ ':' :: (L.space ++ written L depth j))
  | (key, j) :: rest =>
    L.gap depth ++ ((quote key).toList ++
      ':' :: (L.space ++ (written L depth j ++ ',' :: writtenMembers L depth rest)))

end

mutual

theorem toList_compact (depth : ℕ) : (j : Json) → (compact j).toList = written .tight depth j
  | .null | .unreadable => by rw [compact, written]
  | .bool b => by rw [compact, written]
  | .integer n => by rw [compact, written]
  | .real mantissa exponent => by rw [compact, written]
  | .string s => by rw [compact, written]
  | .array [] => rfl
  | .array (j :: rest) => by
    have hitems := toList_compactItems (depth + 1) (j :: rest)
    simp [compact, written, hitems, Layout.tight]
  | .object [] => rfl
  | .object (m :: rest) => by
    have hmembers := toList_compactMembers (depth + 1) (m :: rest)
    simp [compact, written, hmembers, Layout.tight]

theorem toList_compactItems (depth : ℕ) :
    (l : List Json) → (compactItems l).toList = writtenItems .tight depth l
  | [] => rfl
  | [j] => by
    have hj := toList_compact depth j
    simp [compactItems, writtenItems, hj, Layout.tight]
  | j :: k :: rest => by
    have hj := toList_compact depth j
    have hrest := toList_compactItems depth (k :: rest)
    simp [compactItems, writtenItems, hj, hrest, Layout.tight]

theorem toList_compactMembers (depth : ℕ) :
    (l : List (String × Json)) → (compactMembers l).toList = writtenMembers .tight depth l
  | [] => rfl
  | [(key, j)] => by
    have hj := toList_compact depth j
    simp [compactMembers, writtenMembers, hj, Layout.tight]
  | (key, j) :: m :: rest => by
    have hj := toList_compact depth j
    have hrest := toList_compactMembers depth (m :: rest)
    simp [compactMembers, writtenMembers, hj, hrest, Layout.tight]

end

mutual

theorem toList_prettyAt (depth : ℕ) :
    (j : Json) → (prettyAt depth j).toList = written .indented depth j
  | .null | .unreadable => by rw [prettyAt, written]
  | .bool b => by rw [prettyAt, written]
  | .integer n => by rw [prettyAt, written]
  | .real mantissa exponent => by rw [prettyAt, written]
  | .string s => by rw [prettyAt, written]
  | .array [] => by
    rw [prettyAt, written]
    decide +kernel
  | .array (j :: rest) => by
    have hitems := toList_prettyItems (depth + 1) (j :: rest)
    simp [prettyAt, written, hitems, Layout.indented]
  | .object [] => by
    rw [prettyAt, written]
    decide +kernel
  | .object (m :: rest) => by
    have hmembers := toList_prettyMembers (depth + 1) (m :: rest)
    simp [prettyAt, written, hmembers, Layout.indented]

theorem toList_prettyItems (depth : ℕ) :
    (l : List Json) → (prettyItems depth l).toList = writtenItems .indented depth l
  | [] => rfl
  | [j] => by
    have hj := toList_prettyAt depth j
    simp [prettyItems, writtenItems, hj, Layout.indented]
  | j :: k :: rest => by
    have hj := toList_prettyAt depth j
    have hrest := toList_prettyItems depth (k :: rest)
    simp [prettyItems, writtenItems, hj, hrest, Layout.indented]

theorem toList_prettyMembers (depth : ℕ) :
    (l : List (String × Json)) → (prettyMembers depth l).toList = writtenMembers .indented depth l
  | [] => rfl
  | [(key, j)] => by
    have hj := toList_prettyAt depth j
    simp [prettyMembers, writtenMembers, hj, Layout.indented]
  | (key, j) :: m :: rest => by
    have hj := toList_prettyAt depth j
    have hrest := toList_prettyMembers depth (m :: rest)
    simp [prettyMembers, writtenMembers, hj, hrest, Layout.indented]

end

/-! ### Values -/

mutual

/-- Whether the value has content and holds no numbers but natural ones. -/
def isPlain : Json → Bool
  | .null | .bool _ | .string _ => true
  | .integer n => 0 ≤ n
  | .array items => areItemsPlain items
  | .object members => areMembersPlain members
  | .real _ _ | .unreadable => false

def areItemsPlain : List Json → Bool
  | [] => true
  | j :: rest => isPlain j && areItemsPlain rest

def areMembersPlain : List (String × Json) → Bool
  | [] => true
  | (_, j) :: rest => isPlain j && areMembersPlain rest

end

theorem toList_quote (s : String) :
    (quote s).toList = '"' :: (s.toList.flatMap escape ++ ['"']) := by
  simp [quote]

theorem exists_natural {n : ℤ} (h : isPlain (.integer n) = true) : ∃ k : ℕ, n = k :=
  Int.eq_ofNat_of_zero_le (of_decide_eq_true h)

theorem written_natural (L : Layout) (depth n : ℕ) :
    written L depth (.integer n) = Nat.toDigits 10 n := by
  have htext : toString (n : ℤ) = toString n := rfl
  rw [written, htext]
  simp

/-- No value begins with a gap or with what closes an array. -/
theorem exists_head (L : Layout) (depth : ℕ) {j : Json} (h : isPlain j = true) :
    ∃ c cs, written L depth j = c :: cs ∧ isGap c = false ∧ c ≠ ']' := by
  cases j with
  | null => exact ⟨'n', "ull".toList, by rw [written]; decide +kernel, by decide, by decide⟩
  | bool b =>
    cases b with
    | true => exact ⟨'t', "rue".toList, by rw [written]; decide +kernel, by decide, by decide⟩
    | false => exact ⟨'f', "alse".toList, by rw [written]; decide +kernel, by decide, by decide⟩
  | integer n =>
    obtain ⟨k, rfl⟩ := exists_natural h
    obtain ⟨c, cs, hdigits⟩ := List.exists_cons_of_ne_nil
      (show Nat.toDigits 10 k ≠ [] by simp)
    have hc : c.isDigit = true :=
      Text.isDigit_of_mem_toDigits (n := k) (hdigits ▸ List.mem_cons_self)
    refine ⟨c, cs, (written_natural L depth k).trans hdigits, isGap_of_isDigit hc, ?_⟩
    rintro rfl
    cases hc
  | string s => exact ⟨'"', _, by rw [written, toList_quote], by decide, by decide⟩
  | array items => cases items <;> exact ⟨'[', _, by rw [written], by decide, by decide⟩
  | object members => cases members <;> exact ⟨'\x7b', _, by rw [written], by decide, by decide⟩
  | real mantissa exponent => cases h
  | unreadable => cases h

theorem length_pos (L : Layout) (depth : ℕ) {j : Json} (h : isPlain j = true) :
    0 < (written L depth j).length := by
  obtain ⟨c, cs, htext, -⟩ := exists_head L depth h
  rw [htext]
  exact Nat.succ_pos _

theorem exists_items (L : Layout) (depth : ℕ) (j : Json) (l : List Json) :
    ∃ more, writtenItems L depth (j :: l) = L.gap depth ++ (written L depth j ++ more) := by
  cases l with
  | nil => exact ⟨[], by rw [writtenItems, List.append_nil]⟩
  | cons k l =>
    exact ⟨',' :: writtenItems L depth (k :: l), by rw [writtenItems]; exact nofun⟩

theorem exists_members (L : Layout) (depth : ℕ) (key : String) (j : Json)
    (l : List (String × Json)) :
    ∃ more, writtenMembers L depth ((key, j) :: l) = L.gap depth ++ '"' :: more := by
  cases l with
  | nil => exact ⟨_, by rw [writtenMembers, toList_quote]; rfl⟩
  | cons m l =>
    rw [writtenMembers, toList_quote]
    · exact ⟨_, rfl⟩
    · exact nofun

section Steps

variable {fuel : ℕ} {c : Char} {gap cs rest rest' : List Char} {j : Json} {items : List Json}
  {members : List (Option String × Json)}

theorem readValue?_string (s : String) (fuel : ℕ) (rest : List Char) :
    readValue? (fuel + 1) ((quote s).toList ++ rest) = some (.string s, rest) := by
  have hread := readString?_escaped s rest
  rw [toList_quote, List.cons_append, readValue?, skipGap_cons (by decide), List.append_assoc,
    List.singleton_append]
  show (readString? _).map _ = _
  rw [hread]
  rfl

theorem readValue?_digit (hc : c.isDigit = true) :
    readValue? (fuel + 1) (c :: cs) = readNumber? false (c :: cs) := by
  rw [readValue?, skipGap_cons (isGap_of_isDigit hc)]
  -- Of the values that begin with a character of their own none begins with a digit.
  split
  all_goals first
    | rfl
    | (rename_i heq
       obtain ⟨rfl, -⟩ := List.cons.inj heq
       cases hc)

theorem readValue?_natural (n : ℕ) (h : EndsNumber rest) :
    readValue? (fuel + 1) (Nat.toDigits 10 n ++ rest) = some (.integer n, rest) := by
  have hread := readNumber?_natural n h
  obtain ⟨c, cs, hdigits⟩ := List.exists_cons_of_ne_nil (show Nat.toDigits 10 n ≠ [] by simp)
  have hc : c.isDigit = true := Text.isDigit_of_mem_toDigits (n := n) (hdigits ▸ List.mem_cons_self)
  rw [hdigits, List.cons_append] at hread ⊢
  rw [readValue?_digit hc, hread]

theorem readItems?_gap (h : IsGaps gap) (fuel : ℕ) (cs : List Char) :
    readItems? fuel (gap ++ cs) = readItems? fuel cs := by
  cases fuel with
  | zero => rfl
  | succ fuel => rw [readItems?, readItems?, readValue?_gap h]

theorem readItems?_last (hgap : IsGaps gap)
    (h : readValue? fuel cs = some (j, gap ++ ']' :: rest)) :
    readItems? (fuel + 1) cs = some ([j], rest) := by
  have hclosed : skipGap (gap ++ ']' :: rest) = ']' :: rest := by
    rw [skipGap_append hgap, skipGap_cons (by decide)]
  rw [readItems?, h]
  simp only [Option.bind_eq_bind, Option.bind_some, hclosed]
  rfl

theorem readItems?_more (h : readValue? fuel cs = some (j, ',' :: rest))
    (hrest : readItems? fuel rest = some (items, rest')) :
    readItems? (fuel + 1) cs = some (j :: items, rest') := by
  rw [readItems?, h]
  show (readItems? fuel rest).bind (fun r => some (j :: r.1, r.2)) = _
  rw [hrest]
  rfl

theorem readValue?_array (hgap : IsGaps gap) (h : isGap c = false) (hc : c ≠ ']')
    (hitems : readItems? fuel (gap ++ c :: cs) = some (items, rest)) :
    readValue? (fuel + 1) ('[' :: (gap ++ c :: cs)) = some (.array items, rest) := by
  rw [readItems?_gap hgap] at hitems
  rw [readValue?, skipGap_cons (by decide)]
  simp only [skipGap_append hgap, skipGap_cons h]
  split
  · rename_i heq
    exact absurd (List.cons.inj heq).1 hc
  · rw [hitems]
    rfl

theorem readMembers?_gap (h : IsGaps gap) (fuel : ℕ) (cs : List Char) :
    readMembers? fuel (gap ++ cs) = readMembers? fuel cs := by
  cases fuel with
  | zero => rfl
  | succ fuel => rw [readMembers?, readMembers?, skipGap_append h]

theorem readMembers?_succ (key : String) (h : readValue? fuel cs = some (j, rest)) :
    readMembers? (fuel + 1) ((quote key).toList ++ ':' :: cs) =
      match skipGap rest with
      | ',' :: rest =>
        (readMembers? fuel rest).bind fun r => some ((some key, j) :: r.1, r.2)
      | '\x7d' :: rest => some ([(some key, j)], rest)
      | _ => none := by
  have hkey := readString?_escaped key (':' :: cs)
  have hcolon : skipGap (':' :: cs) = ':' :: cs := skipGap_cons (by decide) cs
  rw [toList_quote, List.cons_append, readMembers?, skipGap_cons (by decide), List.append_assoc,
    List.singleton_append]
  simp only [hkey, Option.bind_eq_bind, Option.bind_some, hcolon, h]
  rfl

theorem readMembers?_last (key : String) (hgap : IsGaps gap)
    (h : readValue? fuel cs = some (j, gap ++ '\x7d' :: rest)) :
    readMembers? (fuel + 1) ((quote key).toList ++ ':' :: cs) = some ([(some key, j)], rest) := by
  rw [readMembers?_succ key h, skipGap_append hgap]
  rfl

theorem readMembers?_more (key : String) (h : readValue? fuel cs = some (j, ',' :: rest))
    (hrest : readMembers? fuel rest = some (members, rest')) :
    readMembers? (fuel + 1) ((quote key).toList ++ ':' :: cs) =
      some ((some key, j) :: members, rest') := by
  rw [readMembers?_succ key h]
  show (readMembers? fuel rest).bind (fun r => some ((some key, j) :: r.1, r.2)) = _
  rw [hrest]
  rfl

theorem readValue?_object (hgap : IsGaps gap)
    (h : readMembers? fuel (gap ++ '"' :: cs) = some (members, rest)) :
    readValue? (fuel + 1) ('\x7b' :: (gap ++ '"' :: cs)) = some (objectOf members, rest) := by
  have hquote : skipGap ('"' :: cs) = '"' :: cs := skipGap_cons (by decide) cs
  rw [readMembers?_gap hgap] at h
  rw [readValue?, skipGap_cons (by decide)]
  simp only [skipGap_append hgap, hquote]
  show (readMembers? fuel ('"' :: cs)).map _ = _
  rw [h]
  rfl

end Steps

theorem objectOf_map (members : List (String × Json)) :
    objectOf (members.map fun m => (some m.1, m.2)) = .object members := by
  have hall : (members.map fun m => (some m.1, m.2)).mapM
      (fun m : Option String × Json => m.1.map (·, m.2)) = some members := by
    induction members with
    | nil => rfl
    | cons m rest ih =>
      rw [List.map_cons, List.mapM_cons, ih]
      rfl
  unfold objectOf
  rw [hall]

/-! ### What every amount of fuel reads -/

/-- The text of every plain value that the fuel is enough for is read as this value. -/
def ReadsValues (L : Layout) (fuel : ℕ) : Prop :=
  ∀ depth j rest, isPlain j = true → EndsNumber rest → 2 * (written L depth j).length ≤ fuel →
    readValue? fuel (written L depth j ++ rest) = some (j, rest)

def ReadsItems (L : Layout) (fuel : ℕ) : Prop :=
  ∀ depth j l gap rest, areItemsPlain (j :: l) = true → IsGaps gap →
    2 * (writtenItems L depth (j :: l)).length < fuel →
    readItems? fuel (writtenItems L depth (j :: l) ++ (gap ++ ']' :: rest)) = some (j :: l, rest)

def ReadsMembers (L : Layout) (fuel : ℕ) : Prop :=
  ∀ depth key j l gap rest, areMembersPlain ((key, j) :: l) = true → IsGaps gap →
    2 * (writtenMembers L depth ((key, j) :: l)).length < fuel →
    readMembers? fuel (writtenMembers L depth ((key, j) :: l) ++ (gap ++ '\x7d' :: rest)) =
      some (((key, j) :: l).map fun m => (some m.1, m.2), rest)

section Fuel

variable {L : Layout} {fuel : ℕ}

theorem readsItems_succ (hvalues : ReadsValues L fuel) (hitems : ReadsItems L fuel) :
    ReadsItems L (fuel + 1) := by
  intro depth j l gap rest hplain hgap hfuel
  obtain ⟨hfirst, hmore⟩ := Bool.and_eq_true_iff.mp hplain
  cases l with
  | nil =>
    have hends : EndsNumber (gap ++ ']' :: rest) :=
      endsNumber_gap hgap (endsNumber_cons rest (by decide) (by decide) (by decide))
    rw [writtenItems, List.length_append] at hfuel
    rw [writtenItems, List.append_assoc, readItems?_gap (L.isGaps_gap depth)]
    exact readItems?_last hgap (hvalues depth j _ hfirst hends (by omega))
  | cons k l =>
    have hpos := length_pos L depth hfirst
    have htext : writtenItems L depth (j :: k :: l) =
        L.gap depth ++ (written L depth j ++ ',' :: writtenItems L depth (k :: l)) := by
      rw [writtenItems]
      exact nofun
    rw [htext, List.length_append, List.length_append, List.length_cons] at hfuel
    have hvalue := hvalues depth j (',' :: (writtenItems L depth (k :: l) ++ (gap ++ ']' :: rest)))
      hfirst (endsNumber_cons _ (by decide) (by decide) (by decide)) (by omega)
    have hrest := hitems depth k l gap rest hmore hgap (by omega)
    rw [htext, List.append_assoc, List.append_assoc, List.cons_append,
      readItems?_gap (L.isGaps_gap depth)]
    exact readItems?_more hvalue hrest

theorem readsMembers_succ (hvalues : ReadsValues L fuel) (hmembers : ReadsMembers L fuel) :
    ReadsMembers L (fuel + 1) := by
  intro depth key j l gap rest hplain hgap hfuel
  obtain ⟨hfirst, hmore⟩ := Bool.and_eq_true_iff.mp hplain
  cases l with
  | nil =>
    have hends : EndsNumber (gap ++ '\x7d' :: rest) :=
      endsNumber_gap hgap (endsNumber_cons rest (by decide) (by decide) (by decide))
    rw [writtenMembers, List.length_append, List.length_append, List.length_cons,
      List.length_append] at hfuel
    have hvalue := hvalues depth j (gap ++ '\x7d' :: rest) hfirst hends (by omega)
    rw [← readValue?_gap L.isGaps_space] at hvalue
    rw [writtenMembers, List.append_assoc, List.append_assoc, List.cons_append, List.append_assoc,
      readMembers?_gap (L.isGaps_gap depth)]
    exact readMembers?_last key hgap hvalue
  | cons m l =>
    obtain ⟨other, k⟩ := m
    have htext : writtenMembers L depth ((key, j) :: (other, k) :: l) =
        L.gap depth ++ ((quote key).toList ++ ':' :: (L.space ++
          (written L depth j ++ ',' :: writtenMembers L depth ((other, k) :: l)))) := by
      rw [writtenMembers]
      exact nofun
    rw [htext, List.length_append, List.length_append, List.length_cons, List.length_append,
      List.length_append, List.length_cons] at hfuel
    have hvalue := hvalues depth j
      (',' :: (writtenMembers L depth ((other, k) :: l) ++ (gap ++ '\x7d' :: rest)))
      hfirst (endsNumber_cons _ (by decide) (by decide) (by decide)) (by omega)
    have hrest := hmembers depth other k l gap rest hmore hgap (by omega)
    rw [← readValue?_gap L.isGaps_space] at hvalue
    rw [htext, List.append_assoc, List.append_assoc, List.cons_append, List.append_assoc,
      List.append_assoc, List.cons_append, readMembers?_gap (L.isGaps_gap depth)]
    exact readMembers?_more key hvalue hrest

theorem readsValues_succ (hitems : ReadsItems L fuel) (hmembers : ReadsMembers L fuel) :
    ReadsValues L (fuel + 1) := by
  intro depth j rest hplain hends hfuel
  cases j with
  | null =>
    have htext : written L depth .null = ['n', 'u', 'l', 'l'] := by rw [written]; decide +kernel
    rw [htext]
    rfl
  | bool b =>
    cases b with
    | true =>
      have htext : written L depth (.bool true) = ['t', 'r', 'u', 'e'] := by
        rw [written]
        decide +kernel
      rw [htext]
      rfl
    | false =>
      have htext : written L depth (.bool false) = ['f', 'a', 'l', 's', 'e'] := by
        rw [written]
        decide +kernel
      rw [htext]
      rfl
  | integer n =>
    obtain ⟨k, rfl⟩ := exists_natural hplain
    rw [written_natural]
    exact readValue?_natural k hends
  | string s =>
    rw [written]
    exact readValue?_string s fuel rest
  | array items =>
    cases items with
    | nil =>
      rw [written]
      rfl
    | cons j l =>
      rw [written, List.length_cons, List.length_append] at hfuel
      have hread := hitems (depth + 1) j l (L.gap depth) rest hplain (L.isGaps_gap depth) (by omega)
      -- The items begin as the first of them does, so the reader does not take the array for empty.
      obtain ⟨c, cs, htext, hgap, hc⟩ :=
        exists_head L (depth + 1) (Bool.and_eq_true_iff.mp hplain).1
      obtain ⟨more, hitemsText⟩ := exists_items L (depth + 1) j l
      rw [hitemsText, htext, List.append_assoc, List.cons_append, List.cons_append,
        List.append_assoc] at hread
      rw [written, hitemsText, htext, List.cons_append, List.append_assoc, List.append_assoc,
        List.append_assoc, List.cons_append, List.append_assoc, List.singleton_append]
      exact readValue?_array (L.isGaps_gap _) hgap hc hread
  | object members =>
    cases members with
    | nil =>
      rw [written]
      rfl
    | cons m l =>
      obtain ⟨key, j⟩ := m
      rw [written, List.length_cons, List.length_append] at hfuel
      have hread := hmembers (depth + 1) key j l (L.gap depth) rest hplain (L.isGaps_gap depth)
        (by omega)
      obtain ⟨more, htext⟩ := exists_members L (depth + 1) key j l
      rw [htext, List.append_assoc, List.cons_append] at hread
      rw [written, htext, List.cons_append, List.append_assoc, List.append_assoc, List.cons_append,
        List.append_assoc, List.singleton_append,
        readValue?_object (L.isGaps_gap _) hread, objectOf_map]
  | real mantissa exponent => cases hplain
  | unreadable => cases hplain

end Fuel

theorem readsValues (L : Layout) (fuel : ℕ) : ReadsValues L fuel := by
  -- Values hold items and members and these hold values, so the induction carries all three.
  have hall : ReadsValues L fuel ∧ ReadsItems L fuel ∧ ReadsMembers L fuel := by
    induction fuel with
    | zero =>
      refine ⟨?_, fun _ j l _ rest _ _ hfuel => absurd hfuel (Nat.not_lt_zero _),
        fun _ key j l _ rest _ _ hfuel => absurd hfuel (Nat.not_lt_zero _)⟩
      intro depth j rest hplain hends hfuel
      have hpos := length_pos L depth hplain
      omega
    | succ fuel ih =>
      obtain ⟨hvalues, hitems, hmembers⟩ := ih
      exact ⟨readsValues_succ hitems hmembers, readsItems_succ hvalues hitems,
        readsMembers_succ hvalues hmembers⟩
  exact hall.1

theorem parse?_written (L : Layout) {j : Json} (h : isPlain j = true) :
    parse? (written L 0 j) = some j := by
  have hread := readsValues L (2 * (written L 0 j).length + 2) 0 j [] h nofun (by omega)
  rw [List.append_nil] at hread
  unfold parse?
  rw [hread]
  rfl

theorem parse?_compact {j : Json} (h : isPlain j = true) : parse? (compact j).toList = some j := by
  rw [toList_compact 0]
  exact parse?_written _ h

theorem parse?_pretty {j : Json} (h : isPlain j = true) : parse? (pretty j).toList = some j := by
  unfold pretty
  rw [toList_prettyAt]
  exact parse?_written _ h

end Buildpath.Json
