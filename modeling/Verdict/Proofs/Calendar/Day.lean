import Verdict.Calendar.Instant

/-!
# Days and dates

Every day has exactly the date that its number is computed from.  An era is 400 years from March
to February; a day of it is taken apart into centuries, groups of four years, years and the day of
the year, of which the last years of a group alone may have 366.
-/

namespace Verdict.Calendar

structure DayOfEra (n c k j r : Int) : Prop where
  century : 0 ≤ c ∧ c ≤ 3
  group : 0 ≤ k ∧ k ≤ 24
  year : 0 ≤ j ∧ j ≤ 3
  day : 0 ≤ r ∧ r ≤ 365
  long : r = 365 → j = 3 ∧ (k = 24 → c = 3)
  sum : n = 36524 * c + 1461 * k + 365 * j + r

theorem exists_dayOfEra {n : Int} (h : 0 ≤ n ∧ n < 146097) : ∃ c k j r, DayOfEra n c k j r := by
  obtain ⟨c, hc, hrest⟩ : ∃ c : Int, (0 ≤ c ∧ c ≤ 3) ∧ 0 ≤ n - 36524 * c ∧
      (n - 36524 * c < 36524 ∨ n - 36524 * c = 36524 ∧ c = 3) :=
    ⟨min (n / 36524) 3, by omega, by omega, by omega⟩
  generalize hm : n - 36524 * c = m at hrest
  obtain ⟨k, s, hk, hs, hsum⟩ : ∃ k s : Int, (0 ≤ k ∧ k ≤ 24) ∧ (0 ≤ s ∧ s ≤ 1460) ∧
      m = 1461 * k + s :=
    ⟨m / 1461, m % 1461, by omega, by omega, by omega⟩
  refine ⟨c, k, min (s / 365) 3, s - 365 * min (s / 365) 3, hc, hk, ?_, ?_, ?_, ?_⟩ <;> omega

namespace DayOfEra

variable {n c k j r : Int}

theorem yearOfEra_eq (h : DayOfEra n c k j r) :
    (n - n / 1460 + n / 36524 - n / 146096) / 365 = 100 * c + 4 * k + j := by
  obtain ⟨hc, hk, hj, hr, hlong, hsum⟩ := h
  -- four years count 1460 days here, so that a late day of a group may be one group ahead
  obtain ⟨e, he, hgroups⟩ : ∃ e : Int, (e = 0 ∧ r ≤ 364 ∨ e = 1 ∧ 1 ≤ r) ∧
      n / 1460 = 25 * c + k + e := by
    by_cases hlate : 1460 ≤ 24 * c + k + 365 * j + r
    · exact ⟨1, .inr ⟨rfl, by omega⟩, by omega⟩
    · exact ⟨0, .inl ⟨rfl, by omega⟩, by omega⟩
  have hcenturies : n / 36524 - n / 146096 = c := by
    have hrest : n = 146096 ∧ c = 3 ∨ 36524 * c ≤ n ∧ n ≤ 36524 * c + 36523 := by
      by_cases hlast : r = 365 ∧ k = 24
      · exact .inl (by omega)
      · exact .inr (by omega)
    omega
  omega

theorem dayOfYear_eq (h : DayOfEra n c k j r) :
    n - (365 * (100 * c + 4 * k + j) + (100 * c + 4 * k + j) / 4 - (100 * c + 4 * k + j) / 100) =
      r := by
  obtain ⟨hc, hk, hj, hr, hlong, hsum⟩ := h
  omega

theorem lt (h : DayOfEra n c k j r) : 0 ≤ n ∧ n < 146097 := by
  obtain ⟨hc, hk, hj, hr, hlong, hsum⟩ := h
  omega

theorem dateOf_eq (h : DayOfEra n c k j r) {day era : Int}
    (hday : day + 719468 = era * 146097 + n) :
    dateOf day =
      let shifted := (5 * r + 2) / 153
      let month := if shifted < 10 then shifted + 3 else shifted - 9
      (100 * c + 4 * k + j + era * 400 + (if month ≤ 2 then 1 else 0), month.toNat,
        (r - (153 * shifted + 2) / 5 + 1).toNat) := by
  have hn := h.lt
  have hera : (day + 719468).fdiv 146097 = era := by
    rw [Int.fdiv_eq_ediv_of_nonneg _ (by decide)]
    omega
  have hrest : day + 719468 - era * 146097 = n := by omega
  simp only [dateOf, hera, hrest, h.yearOfEra_eq, h.dayOfYear_eq]

theorem dayOf_eq (h : DayOfEra n c k j r) (era : Int) {year : Int} {month day : Nat}
    (hyear : (if month ≤ 2 then year - 1 else year) = 100 * c + 4 * k + j + era * 400)
    (hday : (153 * (((month + 9) % 12 : Nat) : Int) + 2) / 5 + day - 1 = r) :
    dayOf year month day = era * 146097 + n - 719468 := by
  obtain ⟨hc, hk, hj, hr, hlong, hsum⟩ := h
  have hera : (100 * c + 4 * k + j + era * 400).fdiv 400 = era := by
    rw [Int.fdiv_eq_ediv_of_nonneg _ (by decide)]
    omega
  have hshifted : ((month : Int) + 9) % 12 = ((month + 9) % 12 : Nat) := by omega
  simp only [dayOf, hyear, hera, hshifted, hday]
  omega

end DayOfEra

theorem isLeapYear_iff (year : Int) :
    isLeapYear year = true ↔ year % 4 = 0 ∧ (year % 100 ≠ 0 ∨ year % 400 = 0) := by
  simp [isLeapYear]

theorem le_daysInMonth {n c k j r : Int} (h : DayOfEra n c k j r) (era : Int) {s : Int}
    (hs : s = (5 * r + 2) / 153) {month : Nat}
    (hmonth : (month : Int) = if s < 10 then s + 3 else s - 9) :
    r - (153 * s + 2) / 5 + 1 ≤ daysInMonth
      (100 * c + 4 * k + j + era * 400 + (if month ≤ 2 then 1 else 0)) month := by
  obtain ⟨hc, hk, hj, hr, hlong, hsum⟩ := h
  unfold daysInMonth
  by_cases hfebruary : month = 2
  · subst hfebruary
    rw [if_pos rfl, if_pos (Nat.le_refl 2)]
    split
    · omega
    · rename_i hleap
      rw [isLeapYear_iff] at hleap
      omega
  · rw [if_neg hfebruary]
    split <;> omega

theorem dayOf?_dateOf (day : Int) :
    dayOf? (dateOf day).1 (dateOf day).2.1 (dateOf day).2.2 = some day := by
  obtain ⟨c, k, j, r, h⟩ := exists_dayOfEra (n := (day + 719468) % 146097) (by omega)
  obtain ⟨era, hday⟩ : ∃ era, day + 719468 = era * 146097 + (day + 719468) % 146097 :=
    ⟨(day + 719468) / 146097, by omega⟩
  rw [h.dateOf_eq hday]
  generalize (day + 719468) % 146097 = n at h hday
  generalize hs : (5 * r + 2) / 153 = s
  have hr := h.day
  dsimp only
  obtain ⟨month, hmonth⟩ : ∃ month : Nat, (month : Int) = if s < 10 then s + 3 else s - 9 :=
    ⟨(if s < 10 then s + 3 else s - 9).toNat, by omega⟩
  obtain ⟨date, hdate⟩ : ∃ date : Nat, (date : Int) = r - (153 * s + 2) / 5 + 1 :=
    ⟨(r - (153 * s + 2) / 5 + 1).toNat, by omega⟩
  have hlength := le_daysInMonth h era hs.symm hmonth
  have hback : (((month + 9) % 12 : Nat) : Int) = s := by
    split at hmonth <;> omega
  have hearly : (month : Int) ≤ 2 ↔ month ≤ 2 := by omega
  rw [← hmonth, ← hdate, Int.toNat_natCast, Int.toNat_natCast]
  rw [← hdate] at hlength
  simp only [hearly]
  rw [dayOf?, if_pos (by omega), h.dayOf_eq era]
  · congr 1
    omega
  · split <;> omega
  · rw [hback]
    omega

theorem dateOf_bounds (day : Int) : (dateOf day).2.1 ≤ 12 ∧ (dateOf day).2.2 ≤ 31 := by
  have hdate := dayOf?_dateOf day
  rw [dayOf?] at hdate
  split at hdate
  · rename_i h
    have hmonth : daysInMonth (dateOf day).1 (dateOf day).2.1 ≤ 31 := by
      unfold daysInMonth
      split
      · split <;> omega
      · split <;> omega
    omega
  · cases hdate

end Verdict.Calendar
