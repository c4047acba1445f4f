import Buildpath.Text.Number
import Mathlib.Algebra.Group.Nat.Defs

/-!
# Digits

A number is written with the digits that spell it (`natBelow?_natText`). A row of digits spells a number
below the power of ten of its length, so none of a number's digits is a zero in front of others
(`not_zeroPadded_toDigits`).
-/

namespace Buildpath.Text

theorem ofDigitChars_lt {digits : List Char} (h : ∀ c ∈ digits, c.isDigit = true) :
    Nat.ofDigitChars 10 digits 0 < 10 ^ digits.length := by
  induction digits with
  | nil => simp
  | cons c rest ih =>
    obtain ⟨hc, hrest⟩ := List.forall_mem_cons.mp h
    simp only [Char.isDigit, Bool.and_eq_true, decide_eq_true_eq] at hc
    have h9 : c.toNat ≤ 57 := hc.2
    have hdigit : c.toNat - '0'.toNat ≤ 9 := by
      simp
      omega
    have hpow : 10 ^ rest.length * (c.toNat - '0'.toNat) ≤ 10 ^ rest.length * 9 :=
      Nat.mul_le_mul_left _ hdigit
    have hrest := ih hrest
    rw [Nat.ofDigitChars_cons, Nat.ofDigitChars_eq_ofDigitChars_zero, Nat.mul_zero, Nat.zero_add,
      List.length_cons, Nat.pow_succ]
    omega

theorem isDigit_of_mem_toDigits {n : ℕ} {c : Char} (h : c ∈ Nat.toDigits 10 n) :
    c.isDigit = true :=
  Nat.isDigit_of_mem_toDigits (by decide) (by decide) h

/-- The digits of a number are one, or begin with another one than zero. -/
theorem not_zeroPadded_toDigits {n : ℕ} {c : Char} {rest : List Char} :
    Nat.toDigits 10 n ≠ '0' :: c :: rest := by
  intro hdigits
  have hvalue : Nat.ofDigitChars 10 (c :: rest) 0 = n := by
    have hall : Nat.ofDigitChars 10 (Nat.toDigits 10 n) 0 = n := Nat.ofDigitChars_ten_toDigits
    rw [hdigits, Nat.ofDigitChars_cons] at hall
    exact hall
  have hlt : n < 10 ^ (c :: rest).length := by
    rw [← hvalue]
    refine ofDigitChars_lt fun d hd => @isDigit_of_mem_toDigits n d ?_
    rw [hdigits]
    exact List.mem_cons_of_mem _ hd
  have hlength : (Nat.toDigits 10 n).length ≤ (c :: rest).length :=
    (Nat.length_toDigits_le_iff (by decide) (by simp)).mpr hlt
  rw [hdigits, List.length_cons] at hlength
  omega

theorem digitsFrom_eq (n : ℕ) (digits : List Char) :
    digitsFrom n digits = Nat.ofDigitChars 10 digits n := by
  induction digits generalizing n with
  | nil => rfl
  | cons c rest ih =>
    have hstep : digitsFrom n (c :: rest) = digitsFrom (n * 10 + (c.toNat - '0'.toNat)) rest := rfl
    rw [hstep, ih, Nat.ofDigitChars_cons, Nat.mul_comm]

theorem natText_eq (n : ℕ) : natText n = Nat.toDigits 10 n := by
  simp [natText]

theorem isDigit_of_mem_natText {n : ℕ} {c : Char} (h : c ∈ natText n) : c.isDigit = true :=
  isDigit_of_mem_toDigits (natText_eq n ▸ h)

theorem not_mem_natText {c : Char} (h : c.isDigit = false) (n : ℕ) : c ∉ natText n := fun hc =>
  Bool.false_ne_true (h.symm.trans (isDigit_of_mem_natText hc))

/-- What a number is written as spells this number. -/
theorem natBelow?_natText {bound n : ℕ} (h : n < bound) : natBelow? bound (natText n) = some n := by
  have hdigits : ∀ c ∈ natText n, c.isDigit = true := fun c hc => isDigit_of_mem_natText hc
  have hvalue : digitsFrom 0 (natText n) = n := by
    rw [digitsFrom_eq, natText_eq, Nat.ofDigitChars_ten_toDigits]
  have hplus : ∀ rest, natText n ≠ '+' :: rest := fun rest hrest =>
    not_mem_natText (by decide) n (hrest ▸ List.mem_cons_self)
  have hnat : nat? (natText n) = some n := by
    have hne : natText n ≠ [] := by simp [natText_eq]
    unfold nat?
    split
    · rename_i rest hrest
      exact absurd hrest (hplus rest)
    · rw [ofDigits?, if_pos ⟨hne, List.all_eq_true.mpr hdigits⟩, hvalue]
  rw [natBelow?, hnat]
  simp [h]

end Buildpath.Text
