import Doenerstag.Go.Strings

/-!
# Dates

The date of a day and the day of a date belong to each other.

* `daysFromCivil_civilDate` — **the day of the date of a day is that day.**
* `civilDate_month`, `civilDate_day` — a date has a month and a day that two digits write.
* `Time.civil_seconds` — what a clock shows adds up to its time.
-/

namespace Doenerstag

/-! ## The years of an era -/

section Era

variable {c q t doe yoe : Int}

/-- The leap days of the years before a day `t` of the four years `q` of the century `c`, but for one near their end -/
theorem leaps_before (hdoe : doe = 36524 * c + 1461 * q + t) (hc : 0 ≤ c ∧ c ≤ 3) (hq : 0 ≤ q ∧ q ≤ 24)
    (ht : 0 ≤ t ∧ t ≤ 1460) :
    ∃ e, doe / 1460 = 25 * c + q + e ∧ (0 ≤ e ∧ e ≤ 1) ∧ (e = 1 → 1364 ≤ t) ∧ (t = 1460 → e = 1) := by
  refine ⟨(24 * c + q + t) / 1460, ?_, ?_, ?_, ?_⟩ <;> omega

theorem year_of_four {e : Int} (ht : 0 ≤ t ∧ t ≤ 1460) (he : 0 ≤ e ∧ e ≤ 1) (hstart : e = 1 → 1364 ≤ t)
    (hend : t = 1460 → e = 1) :
    ∃ k, (36500 * c + 1460 * q + t - e) / 365 = 100 * c + 4 * q + k ∧ (0 ≤ k ∧ k ≤ 3) ∧
      0 ≤ t - 365 * k ∧ t - 365 * k ≤ 365 := by
  refine ⟨(t - e) / 365, ?_, ?_, ?_, ?_⟩ <;> omega

theorem leaps_of_year {k : Int} (hyoe : yoe = 100 * c + 4 * q + k) (hq : 0 ≤ q ∧ q ≤ 24) (hk : 0 ≤ k ∧ k ≤ 3) :
    yoe / 4 = 25 * c + q ∧ yoe / 100 = c := by
  omega

/-- The year of a day in an era, and the day in that year -/
theorem year_of_era (hlow : 0 ≤ doe) (hhigh : doe < 146097)
    (hyoe : yoe = (doe - doe / 1460 + doe / 36524 - doe / 146096) / 365) :
    (0 ≤ yoe ∧ yoe < 400) ∧ 0 ≤ doe - (365 * yoe + yoe / 4 - yoe / 100) ∧
      doe - (365 * yoe + yoe / 4 - yoe / 100) ≤ 365 := by
  obtain rfl | hlast : doe = 146096 ∨ doe < 146096 := by omega
  · -- the leap day at the end of the era is in no century of 36524 days
    subst hyoe
    decide
  obtain ⟨c, q, t, hdoe, hc, hq, ht, hrest⟩ : ∃ c q t : Int, doe = 36524 * c + 1461 * q + t ∧ (0 ≤ c ∧ c ≤ 3) ∧
      (0 ≤ q ∧ q ≤ 24) ∧ (0 ≤ t ∧ t ≤ 1460) ∧ 1461 * q + t < 36524 :=
    ⟨doe / 36524, doe % 36524 / 1461, doe % 36524 % 1461, by omega, by omega, by omega, by omega, by omega⟩
  have hcentury : doe / 36524 = c := by omega
  have hera : doe / 146096 = 0 := by omega
  obtain ⟨e, hleaps, he, hstart, hend⟩ := leaps_before hdoe hc hq ht
  obtain ⟨k, hyear, hk, hday⟩ := year_of_four (c := c) (q := q) ht he hstart hend
  have hcounted : doe - doe / 1460 + doe / 36524 - doe / 146096 = 36500 * c + 1460 * q + t - e := by
    rw [hleaps, hcentury, hera, hdoe]
    omega
  have hyear : yoe = 100 * c + 4 * q + k := by rw [hyoe, hcounted, hyear]
  obtain ⟨hfours, hcenturies⟩ := leaps_of_year hyear hq hk
  have hdoy : doe - (365 * yoe + yoe / 4 - yoe / 100) = t - 365 * k := by
    rw [hfours, hcenturies, hdoe, hyear]
    omega
  rw [hdoy]
  exact ⟨⟨by omega, by omega⟩, hday⟩

end Era

/-! ## Days and dates -/

/-- The month, counted from March, of a day of a year -/
theorem month_of_day {doy mp : Int} (hdoy : 0 ≤ doy ∧ doy ≤ 365) (hmp : mp = (5 * doy + 2) / 153) :
    (0 ≤ mp ∧ mp ≤ 11) ∧ 1 ≤ doy - (153 * mp + 2) / 5 + 1 ∧ doy - (153 * mp + 2) / 5 + 1 ≤ 31 := by
  omega

/-- **The day of the date of a day is that day.** -/
theorem daysFromCivil_civilDate (d : Int) :
    daysFromCivil (civilDate d).1 (civilDate d).2.1 (civilDate d).2.2 = d := by
  have hlow := Int.emod_nonneg (d + 719468) (show (146097 : Int) ≠ 0 by decide)
  have hhigh := Int.emod_lt_of_pos (d + 719468) (show (0 : Int) < 146097 by decide)
  unfold civilDate daysFromCivil
  simp only
  generalize hdoe : (d + 719468) % 146097 = doe at *
  generalize hyoe : (doe - doe / 1460 + doe / 36524 - doe / 146096) / 365 = yoe
  obtain ⟨hyear, hday⟩ := year_of_era hlow hhigh hyoe.symm
  have hdays := Int.mul_ediv_add_emod (d + 719468) 146097
  rw [hdoe] at hdays
  generalize (d + 719468) / 146097 = era at *
  have hcycle : (yoe + era * 400) % 400 = yoe := by omega
  have hera : (yoe + era * 400) / 400 = era := by omega
  generalize hdoy : doe - (365 * yoe + yoe / 4 - yoe / 100) = doy at *
  generalize hmp : (5 * doy + 2) / 153 = mp
  obtain ⟨hmonth, -⟩ := month_of_day hday hmp.symm
  have hwhole (month : Int) (hmonth : month = mp) : era * 146097 + yoe * 365 + yoe / 4 - yoe / 100 +
      ((153 * month + 2) / 5 + (doy - (153 * mp + 2) / 5 + 1) - 1) - 719468 = d := by
    rw [hmonth]
    omega
  by_cases hlate : mp < 10
  · have hmarch : ¬ mp + 3 ≤ 2 := by omega
    simp only [if_pos hlate, if_neg hmarch, if_pos (Int.not_le.mp hmarch), hcycle, hera]
    exact hwhole _ (by omega)
  · have hjanuary : mp - 9 ≤ 2 := by omega
    simp only [if_neg hlate, if_pos hjanuary, if_neg (Int.not_lt.mpr hjanuary), Int.add_sub_cancel, hcycle, hera]
    exact hwhole _ (by omega)

theorem civilDate_month (d : Int) : 1 ≤ (civilDate d).2.1 ∧ (civilDate d).2.1 ≤ 12 := by
  have hlow := Int.emod_nonneg (d + 719468) (show (146097 : Int) ≠ 0 by decide)
  have hhigh := Int.emod_lt_of_pos (d + 719468) (show (0 : Int) < 146097 by decide)
  obtain ⟨-, hday⟩ := year_of_era hlow hhigh rfl
  obtain ⟨hmonth, -⟩ := month_of_day hday rfl
  unfold civilDate
  simp only
  split_ifs <;> omega

theorem civilDate_day (d : Int) : 1 ≤ (civilDate d).2.2 ∧ (civilDate d).2.2 ≤ 31 := by
  have hlow := Int.emod_nonneg (d + 719468) (show (146097 : Int) ≠ 0 by decide)
  have hhigh := Int.emod_lt_of_pos (d + 719468) (show (0 : Int) < 146097 by decide)
  obtain ⟨-, hday⟩ := year_of_era hlow hhigh rfl
  exact (month_of_day hday rfl).2

/-- What a clock shows adds up to its time. -/
theorem Time.civil_seconds (t : Time) (offset : Int) :
    daysFromCivil (t.civil offset).year (t.civil offset).month (t.civil offset).day * 86400 +
        (t.civil offset).hour * 3600 + (t.civil offset).minute * 60 + (t.civil offset).second =
      t / Time.second + offset := by
  have hdate : daysFromCivil (t.civil offset).year (t.civil offset).month (t.civil offset).day =
      (t / Time.second + offset) / 86400 := daysFromCivil_civilDate _
  have hhour : (t.civil offset).hour = (t / Time.second + offset) % 86400 / 3600 := rfl
  have hminute : (t.civil offset).minute = (t / Time.second + offset) % 86400 / 60 % 60 := rfl
  have hsecond : (t.civil offset).second = (t / Time.second + offset) % 86400 % 60 := rfl
  rw [hdate, hhour, hminute, hsecond]
  omega

end Doenerstag
