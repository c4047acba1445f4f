import Buildpath.Timestamp.Basic
import Mathlib.Tactic.IntervalCases

/-!
# The calendar

`civilFromDays` finds a date by counting the years of an era of 400 years that begins on 1 March, and
the months of a year that begins in March. It inverts `daysFromCivil`, and what it finds is a date.
-/

namespace Buildpath.Timestamp

/-! ### Years of an era -/

theorem isLeapYear_of_mod {year : Int} (h : year % 4 = 0) (h' : year % 100 ≠ 0 ∨ year % 400 = 0) :
    isLeapYear year = true := by
  rcases h' with h' | h' <;> simp [isLeapYear, h, h']

theorem isLeapYear_add_eras (year era : Int) :
    isLeapYear (year + era * 400) = isLeapYear year := by
  have h4 : (year + era * 400) % 4 = year % 4 := by omega
  have h100 : (year + era * 400) % 100 = year % 100 := by omega
  have h400 : (year + era * 400) % 400 = year % 400 := by omega
  rw [isLeapYear, isLeapYear, h4, h100, h400]

/-- The years of the century `k` of an era, of whose days `r` have passed: every fourth year is a day
longer. An era's days exceed the 1460 for four years by 24 a century, which the quotient makes up
for. -/
theorem yearOfCentury_bounds {k r u : Int} (hk : 0 ≤ k ∧ k ≤ 3) (hr : 0 ≤ r ∧ r ≤ 36523)
    (hu : u = (r - (24 * k + r) / 1460) / 365) :
    (0 ≤ u ∧ u ≤ 99) ∧ 365 * u + u / 4 ≤ r ∧ r ≤ 365 * u + u / 4 + 364 + (u % 4 + 1) / 4 := by
  omega

variable {dayOfEra yearOfEra dayOfYear : Int}

/-- Only a leap year has a day 365. -/
theorem dayOfYear_bounds (hday : 0 ≤ dayOfEra ∧ dayOfEra ≤ 146096)
    (hyear : yearOfEra = (dayOfEra - dayOfEra / 1460 + dayOfEra / 36524 - dayOfEra / 146096) / 365)
    (hdayOfYear : dayOfYear = dayOfEra - (365 * yearOfEra + yearOfEra / 4 - yearOfEra / 100)) :
    (0 ≤ yearOfEra ∧ yearOfEra ≤ 399) ∧ (0 ≤ dayOfYear ∧ dayOfYear ≤ 365) ∧
      (dayOfYear = 365 → isLeapYear (yearOfEra + 1)) := by
  obtain ⟨k, hk⟩ : ∃ k, k = dayOfEra / 36524 := ⟨_, rfl⟩
  obtain ⟨r, hr⟩ : ∃ r, r = dayOfEra % 36524 := ⟨_, rfl⟩
  -- The last day of an era is the leap day that the fourth century has and the others have not.
  rcases (by omega : k ≤ 3 ∨ dayOfEra = 146096) with hcentury | rfl
  · obtain ⟨u, hu⟩ : ∃ u, u = (r - (24 * k + r) / 1460) / 365 := ⟨_, rfl⟩
    obtain ⟨hu99, hlow, hhigh⟩ :=
      yearOfCentury_bounds ⟨by omega, hcentury⟩ ⟨by omega, by omega⟩ hu
    have hyear' : yearOfEra = 100 * k + u := by omega
    clear hyear
    have hcenturies : yearOfEra / 100 = k := by omega
    have hquarters : yearOfEra / 4 = 25 * k + u / 4 := by omega
    have hday' : dayOfYear = r - 365 * u - u / 4 := by omega
    clear hdayOfYear hu
    refine ⟨by omega, by omega, fun hlast => ?_⟩
    have hfourth : u % 4 = 3 := by omega
    have hnotLast : u ≠ 99 := by omega
    exact isLeapYear_of_mod (by omega) (Or.inl (by omega))
  · obtain rfl : yearOfEra = 399 := by omega
    exact ⟨by omega, by omega, fun _ => by decide⟩

/-! ### Months of a year -/

/-- The number of the month whose number counted from March is `shifted`. -/
def monthOf (shifted : Int) : Int :=
  if shifted < 10 then shifted + 3 else shifted - 9

theorem month_bounds (year : Int) {shifted day : Int} (hday : 0 ≤ dayOfYear ∧ dayOfYear ≤ 365)
    (hshifted : shifted = (5 * dayOfYear + 2) / 153)
    (hd : day = dayOfYear - (153 * shifted + 2) / 5 + 1)
    (hleap : dayOfYear = 365 → isLeapYear (year + 1)) :
    (0 ≤ shifted ∧ shifted ≤ 11) ∧ 1 ≤ day ∧
      day ≤ daysInMonth (year + if monthOf shifted ≤ 2 then 1 else 0) (monthOf shifted).toNat := by
  obtain ⟨h0, h11⟩ : 0 ≤ shifted ∧ shifted ≤ 11 := by omega
  refine ⟨⟨h0, h11⟩, by omega, ?_⟩
  by_cases hfebruary : shifted = 11
  · obtain rfl := hfebruary
    show day ≤ (if isLeapYear (year + 1) then 29 else 28 : Nat)
    split
    · omega
    · have hshort : dayOfYear ≠ 365 := fun h => absurd (hleap h) ‹_›
      omega
  · interval_cases shifted <;> simp [daysInMonth, monthOf] <;> omega

/-! ### Days and dates -/

/-- The days of a date that is given by its era, the year in it and the month counted from March. -/
theorem daysFromCivil_of_shifted {era yearOfEra shifted day : Int}
    (hyear : 0 ≤ yearOfEra ∧ yearOfEra ≤ 399) (hshifted : 0 ≤ shifted ∧ shifted ≤ 11)
    (hday : 1 ≤ day) :
    daysFromCivil (yearOfEra + era * 400 + if monthOf shifted ≤ 2 then 1 else 0)
        (monthOf shifted).toNat day.toNat =
      era * 146097 + (yearOfEra * 365 + yearOfEra / 4 - yearOfEra / 100 +
        ((153 * shifted + 2) / 5 + day - 1)) - 719468 := by
  obtain ⟨month, hmonth⟩ : ∃ month : Nat, (month : Int) = monthOf shifted := by
    refine ⟨(monthOf shifted).toNat, Int.toNat_of_nonneg ?_⟩
    unfold monthOf
    omega
  have hyear' : (if month ≤ 2 then
      (yearOfEra + era * 400 + if (month : Int) ≤ 2 then 1 else 0) - 1
      else yearOfEra + era * 400 + if (month : Int) ≤ 2 then 1 else 0) =
        yearOfEra + era * 400 := by
    split <;> split <;> omega
  have hshifted' : (if month > 2 then (month : Int) - 3 else month + 9) = shifted := by
    unfold monthOf at hmonth
    split at hmonth <;> split <;> omega
  have hera : (yearOfEra + era * 400) / 400 = era := by omega
  have hyears : yearOfEra + era * 400 - era * 400 = yearOfEra := by omega
  rw [← hmonth, Int.toNat_natCast]
  unfold daysFromCivil
  simp only [hyear', hshifted', Int.fdiv_eq_ediv_of_nonneg _ (by decide : (0 : Int) ≤ 400), hera,
    hyears, Int.toNat_of_nonneg (Int.le_trans (by decide) hday)]

/-- What `civilFromDays` finds is the date of the day. -/
theorem civilFromDays_spec {days year : Int} {month day : Nat}
    (h : civilFromDays days = (year, month, day)) :
    (1 ≤ month ∧ month ≤ 12) ∧ (1 ≤ day ∧ day ≤ daysInMonth year month) ∧
      daysFromCivil year month day = days := by
  obtain ⟨era, hera⟩ : ∃ era, era = (days + 719468) / 146097 := ⟨_, rfl⟩
  obtain ⟨dayOfEra, hdayOfEra⟩ : ∃ d, d = days + 719468 - era * 146097 := ⟨_, rfl⟩
  obtain ⟨yearOfEra, hyearOfEra⟩ : ∃ y, y =
      (dayOfEra - dayOfEra / 1460 + dayOfEra / 36524 - dayOfEra / 146096) / 365 := ⟨_, rfl⟩
  obtain ⟨dayOfYear, hdayOfYear⟩ : ∃ d, d =
      dayOfEra - (365 * yearOfEra + yearOfEra / 4 - yearOfEra / 100) := ⟨_, rfl⟩
  obtain ⟨shifted, hshifted⟩ : ∃ m, m = (5 * dayOfYear + 2) / 153 := ⟨_, rfl⟩
  obtain ⟨d, hd⟩ : ∃ d, d = dayOfYear - (153 * shifted + 2) / 5 + 1 := ⟨_, rfl⟩
  have hdate : civilFromDays days = (yearOfEra + era * 400 + (if monthOf shifted ≤ 2 then 1 else 0),
      (monthOf shifted).toNat, d.toNat) := by
    subst hd hshifted hdayOfYear hyearOfEra hdayOfEra hera
    unfold civilFromDays
    simp only [Int.fdiv_eq_ediv_of_nonneg _ (by decide : (0 : Int) ≤ 146097)]
    rfl
  obtain ⟨rfl, hdate⟩ := Prod.mk.inj (hdate.symm.trans h)
  obtain ⟨rfl, rfl⟩ := Prod.mk.inj hdate
  obtain ⟨hyear, hdays, hleap⟩ :=
    dayOfYear_bounds (by omega : 0 ≤ dayOfEra ∧ dayOfEra ≤ 146096) hyearOfEra hdayOfYear
  have hleap' : dayOfYear = 365 → isLeapYear (yearOfEra + era * 400 + 1) := fun hlast => by
    rw [Int.add_right_comm, isLeapYear_add_eras]
    exact hleap hlast
  obtain ⟨hmonths, hfirst, hlast⟩ := month_bounds _ hdays hshifted hd hleap'
  refine ⟨?_, ⟨by omega, by omega⟩, ?_⟩
  · unfold monthOf
    omega
  · rw [daysFromCivil_of_shifted hyear hmonths hfirst]
    omega

end Buildpath.Timestamp
