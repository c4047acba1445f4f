import Buildpath.Proofs.Codec.Calendar
import Buildpath.Proofs.Text.Digits
import Buildpath.Timestamp.Text
import Mathlib.Data.List.TakeWhile

/-!
# Timestamps as text

What `Timestamp.text` writes is read again by `Timestamp.parse?`, for every point in time that a
calendar shows (`Timestamp.IsProper`), and only such points are ever read. A number is written with a
known count of digits, or a character that is no digit follows it, so that each field is read up to
its end.
-/

namespace Buildpath

theorem Text.isBlank_of_isDigit {c : Char} (h : c.isDigit = true) : Text.isBlank c = false := by
  simp only [Char.isDigit, Bool.and_eq_true, decide_eq_true_eq] at h
  have h0 : 48 ≤ c.toNat := h.1
  have h9 : c.toNat ≤ 57 := h.2
  simp [Text.isBlank]
  omega

namespace Timestamp

/-! ### Digits -/

theorem digitsValue_eq (digits : List Char) : digitsValue digits = Nat.ofDigitChars 10 digits 0 := by
  unfold digitsValue Nat.ofDigitChars
  simp only [Nat.mul_comm]

theorem digitsValue_lt {digits : List Char} (h : ∀ c ∈ digits, c.isDigit = true) :
    digitsValue digits < 10 ^ digits.length := by
  rw [digitsValue_eq]
  exact Text.ofDigitChars_lt h

/-- A row of digits, zeros in front included, that spells a number. -/
structure Spells (digits : List Char) (n : Nat) : Prop where
  isDigit : ∀ c ∈ digits, c.isDigit = true
  ne_nil : digits ≠ []
  value : digitsValue digits = n

theorem toList_padded (width n : Nat) :
    (padded width n).toList =
      List.replicate (width - (Nat.toDigits 10 n).length) '0' ++ Nat.toDigits 10 n := by
  simp [padded]

theorem spells_padded (width n : Nat) : Spells (padded width n).toList n := by
  rw [toList_padded]
  refine ⟨fun c hc => ?_, by simp, ?_⟩
  · rcases List.mem_append.mp hc with hc | hc
    · rw [List.eq_of_mem_replicate hc]
      rfl
    · exact Text.isDigit_of_mem_toDigits hc
  · rw [digitsValue_eq, Nat.ofDigitChars_append, Nat.ofDigitChars_replicate_zero,
      Nat.mul_zero, Nat.ofDigitChars_toDigits (by decide) (by decide)]

theorem length_padded {width n : Nat} (hw : 0 < width) (h : n < 10 ^ width) :
    (padded width n).toList.length = width := by
  have hle : (Nat.toDigits 10 n).length ≤ width :=
    (Nat.length_toDigits_le_iff (by decide) hw).mpr h
  rw [toList_padded, List.length_append, List.length_replicate]
  omega

/-! ### Fields -/

section

variable {digits rest : List Char} {most n : Nat}

/-- Whether the text does not go on with a digit. -/
def Stops (rest : List Char) : Prop :=
  ∀ c ∈ rest.head?, c.isDigit = false

theorem takeWhile_digits (h : Spells digits n) (hmost : digits.length ≤ most)
    (hstop : digits.length = most ∨ Stops rest) :
    ((digits ++ rest).take most).takeWhile Char.isDigit = digits := by
  rw [List.take_append, List.take_of_length_le hmost, List.takeWhile_append_of_pos h.isDigit]
  have hrest : (rest.take (most - digits.length)).takeWhile Char.isDigit = [] := by
    rcases hstop with rfl | hstop
    · simp
    · cases rest with
      | nil => simp
      | cons c rest =>
        have hc : c.isDigit = false := hstop c rfl
        cases most - digits.length <;> simp [hc]
  rw [hrest, List.append_nil]

theorem takeNumber?_digits (h : Spells digits n) (hmost : digits.length ≤ most)
    (hstop : digits.length = most ∨ Stops rest) :
    takeNumber? most (digits ++ rest) = some (n, rest) := by
  unfold takeNumber?
  rw [takeWhile_digits h hmost hstop]
  cases digits with
  | nil => exact absurd rfl h.ne_nil
  | cons c cs => simp [h.value]

theorem trimStart_digits (h : Spells digits n) :
    Text.trimStart (digits ++ rest) = digits ++ rest := by
  cases digits with
  | nil => exact absurd rfl h.ne_nil
  | cons c cs =>
    have hc := Text.isBlank_of_isDigit (h.isDigit c List.mem_cons_self)
    simp [Text.trimStart, hc]

/-- A field of two digits. -/
theorem takeField?_padded (hn : n < 100) :
    takeField? 2 ((padded 2 n).toList ++ rest) = some (n, rest) := by
  have hlength := length_padded (by decide : 0 < 2) hn
  unfold takeField?
  rw [trimStart_digits (spells_padded 2 n)]
  exact takeNumber?_digits (spells_padded 2 n) (Nat.le_of_eq hlength) (Or.inl hlength)

theorem takeYear?_minus (cs : List Char) :
    takeYear? ('-' :: cs) =
      (takeNumber? cs.length cs).map fun (n, rest) => (-Int.ofNat n, rest) := rfl

theorem takeYear?_plus (cs : List Char) :
    takeYear? ('+' :: cs) =
      (takeNumber? cs.length cs).map fun (n, rest) => (Int.ofNat n, rest) := rfl

theorem takeYear?_digits (h : Spells digits n) (hlength : digits.length = 4) :
    takeYear? (digits ++ rest) = some (Int.ofNat n, rest) := by
  unfold takeYear?
  rw [trimStart_digits h]
  have hnumber : takeNumber? 4 (digits ++ rest) = some (n, rest) :=
    takeNumber?_digits h (Nat.le_of_eq hlength) (Or.inl hlength)
  cases digits with
  | nil => exact absurd rfl h.ne_nil
  | cons c cs =>
    have hc := h.isDigit c List.mem_cons_self
    rw [List.cons_append] at hnumber ⊢
    split
    · rename_i heq
      obtain ⟨rfl, -⟩ := List.cons.inj heq
      exact absurd hc (by decide)
    · rename_i heq
      obtain ⟨rfl, -⟩ := List.cons.inj heq
      exact absurd hc (by decide)
    · rw [hnumber]
      rfl

theorem takeYear?_yearText (year : Int) :
    takeYear? ((yearText year).toList ++ '-' :: rest) = some (year, '-' :: rest) := by
  -- A signed year has any number of digits: it ends at the dash.
  have hsigned : takeNumber? ((padded 4 year.natAbs).toList ++ '-' :: rest).length
      ((padded 4 year.natAbs).toList ++ '-' :: rest) = some (year.natAbs, '-' :: rest) :=
    takeNumber?_digits (spells_padded 4 _) (by simp) (Or.inr fun c hc => Option.some.inj hc ▸ rfl)
  unfold yearText
  split
  · rename_i hshort
    obtain ⟨n, rfl⟩ := Int.eq_ofNat_of_zero_le hshort.1
    exact takeYear?_digits (spells_padded 4 n) (length_padded (by decide) (by omega))
  · split
    · rename_i hnegative
      rw [String.toList_append, List.append_assoc, show "-".toList = ['-'] from rfl,
        List.singleton_append, takeYear?_minus, hsigned]
      have hvalue : -Int.ofNat year.natAbs = year := by
        show -(year.natAbs : Int) = year
        omega
      exact congrArg (fun y => some (y, '-' :: rest)) hvalue
    · rename_i hlarge hpositive
      rw [String.toList_append, List.append_assoc, show "+".toList = ['+'] from rfl,
        List.singleton_append, takeYear?_plus, hsigned]
      have hvalue : Int.ofNat year.natAbs = year := by
        show (year.natAbs : Int) = year
        omega
      exact congrArg (fun y => some (y, '-' :: rest)) hvalue

theorem afterMark?_cons {mark : Char} (h : Text.isBlank mark = false) :
    afterMark? mark (mark :: rest) = some rest := by
  simp [afterMark?, Text.trimStart, h]

/-- Decimals are read up to the mark of the offset. -/
theorem takeFraction?_fractionText (hn : n < 1000000000) :
    takeFraction? ((fractionText n).toList ++ ['Z']) = some (n, ['Z']) := by
  have hread : ∀ width m, 0 < width → width ≤ 9 → m < 10 ^ width →
      takeFraction? (("." ++ padded width m).toList ++ ['Z']) =
        some (m * 10 ^ (9 - width), ['Z']) := by
    intro width m hw hwidth hm
    have hlength := length_padded hw hm
    have hspells := spells_padded width m
    have hstop : Stops ['Z'] := fun c hc => Option.some.inj hc ▸ rfl
    rw [String.toList_append, List.append_assoc, show ".".toList = ['.'] from rfl,
      List.singleton_append, takeFraction?]
    rw [takeWhile_digits hspells (hlength.trans_le hwidth) (Or.inr hstop)]
    cases hdigits : (padded width m).toList with
    | nil => exact absurd hdigits hspells.ne_nil
    | cons c cs =>
      simp only
      rw [← hdigits, hspells.value, List.drop_left, hlength]
      rfl
  -- There are no decimals, or as many as are needed in threes.
  unfold fractionText
  split
  · rename_i hzero
    rw [hzero]
    rfl
  · split
    · rw [hread 3 _ (by decide) (by decide) (by omega)]
      simp
      omega
    · split
      · rw [hread 6 _ (by decide) (by decide) (by omega)]
        simp
        omega
      · rw [hread 9 _ (by decide) (by decide) (by omega)]
        simp

end

/-! ### Points in time -/

/-- A point in time that the calendar shows; only the last second of a minute can be leapt. -/
structure IsProper (t : Timestamp) : Prop where
  inRange : t.isInRange = true
  nanos : t.nanos < 2000000000
  leapt : 1000000000 ≤ t.nanos → t.seconds % 60 = 59

variable {t : Timestamp}

/-- What the calendar and the clock show is possible, and it tells the point in time. -/
theorem civil_spec (h : t.IsProper) :
    t.civil.isPossible = true ∧ t.civil.nanos < 1000000000 ∧ ofCivil t.civil 0 = t := by
  obtain ⟨seconds, nanos⟩ := t
  obtain ⟨hrange, hnanos, hleapt⟩ := h
  obtain ⟨days, hdays⟩ : ∃ days, days = seconds.fdiv 86400 := ⟨_, rfl⟩
  obtain ⟨ofDay, hofDay⟩ : ∃ ofDay, ofDay = (seconds - days * 86400).toNat := ⟨_, rfl⟩
  obtain ⟨leapt, hleap⟩ : ∃ leapt, leapt = if nanos ≥ 1000000000 then 1 else 0 := ⟨_, rfl⟩
  obtain ⟨year, month, day, hdate⟩ : ∃ year month day, civilFromDays days = (year, month, day) :=
    ⟨_, _, _, rfl⟩
  have hcivil : civil ⟨seconds, nanos⟩ = ⟨year, month, day, ofDay / 3600, ofDay / 60 % 60,
      ofDay % 60 + leapt, nanos - leapt * 1000000000⟩ := by
    subst hleap hofDay hdays
    simp only [civil, hdate]
  obtain ⟨hmonth, hday, hback⟩ := civilFromDays_spec hdate
  rw [Int.fdiv_eq_ediv_of_nonneg _ (by decide)] at hdays
  have hseconds : seconds = days * 86400 + ofDay := by omega
  have hofDay' : ofDay < 86400 := by omega
  -- The clock shows a second 60 exactly when the second is leapt.
  have hsixty : (if ofDay % 60 + leapt = 60 then 1 else 0) = leapt := by
    simp only at hleapt hnanos
    split at hleap <;> split <;> omega
  have hnanos' : leapt * 1000000000 ≤ nanos ∧ nanos - leapt * 1000000000 < 1000000000 := by
    simp only at hnanos
    split at hleap <;> omega
  have hleapt1 : leapt ≤ 1 := by
    split at hleap <;> omega
  unfold isInRange at hrange
  rw [hcivil] at hrange ⊢
  refine ⟨?_, hnanos'.2, ?_⟩
  · simp only [Civil.isPossible, Bool.and_eq_true, decide_eq_true_eq] at hrange ⊢
    exact ⟨⟨⟨⟨⟨⟨⟨hrange, hmonth.1⟩, hmonth.2⟩, hday.1⟩, hday.2⟩, by omega⟩, by omega⟩, by omega⟩
  · simp only [ofCivil, hsixty, hback, Timestamp.mk.injEq]
    omega

theorem toList_text (t : Timestamp) :
    t.text.toList = (yearText t.civil.year).toList ++ '-' :: ((padded 2 t.civil.month).toList ++
      '-' :: ((padded 2 t.civil.day).toList ++ 'T' :: ((padded 2 t.civil.hour).toList ++
      ':' :: ((padded 2 t.civil.minute).toList ++ ':' :: ((padded 2 t.civil.second).toList ++
      ((fractionText t.civil.nanos).toList ++ ['Z'])))))) := by
  simp [text, Civil.dateText, Civil.timeText, String.toList_append]

theorem parse?_of_fields {c : Civil} {cs a₁ a₂ b₁ b₂ d₁ e₁ e₂ f₁ f₂ g₁ : List Char}
    (hyear : takeYear? cs = some (c.year, a₁)) (ha : afterMark? '-' a₁ = some a₂)
    (hmonth : takeField? 2 a₂ = some (c.month, b₁)) (hb : afterMark? '-' b₁ = some b₂)
    (hday : takeField? 2 b₂ = some (c.day, 'T' :: d₁))
    (hhour : takeField? 2 d₁ = some (c.hour, e₁)) (he : afterMark? ':' e₁ = some e₂)
    (hminute : takeField? 2 e₂ = some (c.minute, f₁)) (hf : afterMark? ':' f₁ = some f₂)
    (hsecond : takeField? 2 f₂ = some (c.second, g₁))
    (hnanos : takeFraction? g₁ = some (c.nanos, ['Z'])) (hpossible : c.isPossible = true)
    (hrange : (ofCivil c 0).isInRange = true) : parse? cs = some (ofCivil c 0) := by
  refine Option.bind_eq_some_iff.mpr ⟨_, hyear, ?_⟩
  refine Option.bind_eq_some_iff.mpr ⟨_, ha, ?_⟩
  refine Option.bind_eq_some_iff.mpr ⟨_, hmonth, ?_⟩
  refine Option.bind_eq_some_iff.mpr ⟨_, hb, ?_⟩
  refine Option.bind_eq_some_iff.mpr ⟨_, hday, ?_⟩
  refine Option.bind_eq_some_iff.mpr ⟨d₁, rfl, ?_⟩
  refine Option.bind_eq_some_iff.mpr ⟨_, hhour, ?_⟩
  refine Option.bind_eq_some_iff.mpr ⟨_, he, ?_⟩
  refine Option.bind_eq_some_iff.mpr ⟨_, hminute, ?_⟩
  refine Option.bind_eq_some_iff.mpr ⟨_, hf, ?_⟩
  refine Option.bind_eq_some_iff.mpr ⟨_, hsecond, ?_⟩
  refine Option.bind_eq_some_iff.mpr ⟨_, hnanos, ?_⟩
  refine Option.bind_eq_some_iff.mpr ⟨(0, []), rfl, ?_⟩
  exact if_pos (by simp [hpossible, hrange, Text.isBlankText])

theorem parse?_text (h : t.IsProper) : parse? t.text.toList = some t := by
  obtain ⟨hpossible, hnanos, hback⟩ := civil_spec h
  have hparts := hpossible
  simp only [Civil.isPossible, Bool.and_eq_true, decide_eq_true_eq] at hparts
  obtain ⟨⟨⟨⟨⟨⟨⟨⟨-, -⟩, -⟩, hmonth⟩, -⟩, hday⟩, hhour⟩, hminute⟩, hsecond⟩ := hparts
  have hday' : t.civil.day < 100 := by
    refine Nat.lt_of_le_of_lt hday ?_
    unfold daysInMonth
    split <;> split <;> omega
  have hdash : Text.isBlank '-' = false := rfl
  have hcolon : Text.isBlank ':' = false := rfl
  rw [toList_text, parse?_of_fields (takeYear?_yearText _) (afterMark?_cons hdash)
    (takeField?_padded (by omega)) (afterMark?_cons hdash) (takeField?_padded hday')
    (takeField?_padded (by omega)) (afterMark?_cons hcolon) (takeField?_padded (by omega))
    (afterMark?_cons hcolon) (takeField?_padded (by omega)) (takeFraction?_fractionText hnanos)
    hpossible (hback.symm ▸ h.inRange), hback]

/-! ### What is read is proper -/

theorem nanos_of_takeFraction? {cs rest : List Char} {n : Nat}
    (h : takeFraction? cs = some (n, rest)) : n < 1000000000 := by
  unfold takeFraction? at h
  split at h
  · rename_i decimals
    obtain ⟨digits, hdigits⟩ : ∃ digits, digits = (decimals.take 9).takeWhile Char.isDigit :=
      ⟨_, rfl⟩
    have hall : ∀ c ∈ digits, c.isDigit = true := fun c hc => List.mem_takeWhile_imp (hdigits ▸ hc)
    have hlength : digits.length ≤ 9 := by
      rw [hdigits]
      exact Nat.le_trans (List.takeWhile_sublist _).length_le (List.length_take_le _ _)
    rw [← hdigits] at h
    have hn : n = digitsValue digits * 10 ^ (9 - digits.length) := by
      cases digits with
      | nil => cases h
      | cons c cs => exact (Prod.mk.inj (Option.some.inj h)).1.symm
    calc
      n = digitsValue digits * 10 ^ (9 - digits.length) := hn
      _ < 10 ^ digits.length * 10 ^ (9 - digits.length) :=
        Nat.mul_lt_mul_of_pos_right (digitsValue_lt hall) (Nat.pow_pos (by decide))
      _ = 10 ^ 9 := by rw [← Nat.pow_add, Nat.add_sub_cancel' hlength]
  · cases h
    decide

/-- Offsets are whole minutes. -/
theorem offset_of_takeOffset? {cs rest : List Char} {offset : Int}
    (h : takeOffset? cs = some (offset, rest)) : offset % 60 = 0 := by
  unfold takeOffset? at h
  split at h
  · cases h
    rfl
  · cases h
    rfl
  · split at h
    · cases h
      rfl
    · obtain ⟨⟨sign, _⟩, -, h⟩ := Option.bind_eq_some_iff.mp h
      obtain ⟨⟨hours, _⟩, -, h⟩ := Option.bind_eq_some_iff.mp h
      obtain ⟨⟨minutes, _⟩, -, h⟩ := Option.bind_eq_some_iff.mp h
      cases h
      have hwhole : sign * (hours * 3600 + minutes * 60) = sign * (hours * 60 + minutes) * 60 := by
        rw [Int.mul_assoc]
        congr 1
        omega
      rw [hwhole]
      exact Int.mul_emod_left _ _

theorem reading_of_parse? {cs : List Char} (h : parse? cs = some t) :
    ∃ c offset, c.nanos < 1000000000 ∧ offset % 60 = 0 ∧ c.isPossible = true ∧
      t.isInRange = true ∧ t = ofCivil c offset := by
  obtain ⟨⟨year, a₁⟩, -, h⟩ := Option.bind_eq_some_iff.mp h
  obtain ⟨a₂, -, h⟩ := Option.bind_eq_some_iff.mp h
  obtain ⟨⟨month, b₁⟩, -, h⟩ := Option.bind_eq_some_iff.mp h
  obtain ⟨b₂, -, h⟩ := Option.bind_eq_some_iff.mp h
  obtain ⟨⟨day, d₁⟩, -, h⟩ := Option.bind_eq_some_iff.mp h
  simp only at h
  split at h
  all_goals
    obtain ⟨d₂, hd, h⟩ := Option.bind_eq_some_iff.mp h
    obtain ⟨⟨hour, e₁⟩, -, h⟩ := Option.bind_eq_some_iff.mp h
    obtain ⟨e₂, -, h⟩ := Option.bind_eq_some_iff.mp h
    obtain ⟨⟨minute, f₁⟩, -, h⟩ := Option.bind_eq_some_iff.mp h
    obtain ⟨f₂, -, h⟩ := Option.bind_eq_some_iff.mp h
    obtain ⟨⟨second, g₁⟩, -, h⟩ := Option.bind_eq_some_iff.mp h
    obtain ⟨⟨nanos, g₂⟩, hnanos, h⟩ := Option.bind_eq_some_iff.mp h
    obtain ⟨⟨offset, g₃⟩, hoffset, h⟩ := Option.bind_eq_some_iff.mp h
    simp only [Option.ite_none_right_eq_some, Bool.and_eq_true] at h
    obtain ⟨⟨⟨⟨-, hpossible⟩, -⟩, hrange⟩, h⟩ := h
    cases h
    exact ⟨_, offset, nanos_of_takeFraction? hnanos, offset_of_takeOffset? hoffset, hpossible,
      hrange, rfl⟩

theorem isProper_of_parse? {cs : List Char} (h : parse? cs = some t) : t.IsProper := by
  obtain ⟨c, offset, hnanos, hoffset, hpossible, hrange, rfl⟩ := reading_of_parse? h
  simp only [Civil.isPossible, Bool.and_eq_true, decide_eq_true_eq] at hpossible
  obtain ⟨days, hdays⟩ : ∃ days, days = daysFromCivil c.year c.month c.day := ⟨_, rfl⟩
  refine ⟨hrange, ?_, ?_⟩
  · simp only [ofCivil]
    split <;> omega
  · simp only [ofCivil, ← hdays]
    split <;> omega

end Timestamp

end Buildpath
