import LedgerScript.Timestamp.Epoch

/-! Counts fall on days of the calendar and on times of the clock: a day that is counted
from the first one has a year, a month of that year and a day of that month. -/
namespace LedgerScript

namespace Date

def yearDays (year : Nat) : Nat := if isLeap year then 366 else 365

theorem isLeap_iff (year : Nat) :
    isLeap year = true ↔ year % 4 = 0 ∧ (year % 100 ≠ 0 ∨ year % 400 = 0) := by
  simp [isLeap]

theorem daysBefore_succ (year : Nat) : daysBefore (year + 1) = daysBefore year + yearDays year := by
  -- Each of the three terms goes up by one with a multiple of its divisor.
  have h4 : (year + 1 + 3) / 4 = (year + 3) / 4 + (if year % 4 = 0 then 1 else 0) := by
    split <;> omega
  have h100 : (year + 1 + 99) / 100 = (year + 99) / 100 + (if year % 100 = 0 then 1 else 0) := by
    split <;> omega
  have h400 : (year + 1 + 399) / 400 = (year + 399) / 400 + (if year % 400 = 0 then 1 else 0) := by
    split <;> omega
  have hbound : (year + 99) / 100 ≤ 365 * year + (year + 3) / 4 := by omega
  have hcentury : year % 100 = 0 → year % 4 = 0 := by omega
  have hfourth : year % 400 = 0 → year % 100 = 0 := by omega
  have hdays : yearDays year + (if year % 100 = 0 then 1 else 0) =
      365 + (if year % 4 = 0 then 1 else 0) + (if year % 400 = 0 then 1 else 0) := by
    simp only [yearDays, isLeap_iff]
    by_cases d4 : year % 4 = 0 <;> by_cases d100 : year % 100 = 0 <;>
      by_cases d400 : year % 400 = 0 <;> simp_all
  have hone : (if year % 100 = 0 then 1 else 0) ≤ 1 := by split <;> simp
  simp only [daysBefore, h4, h100, h400]
  clear h4 h100 h400
  generalize (year + 3) / 4 = a at *
  generalize (year + 99) / 100 = b at *
  generalize (year + 399) / 400 = c at *
  omega

/-- The mean length of a year is 146097 / 400 days, and no year starts two days away from
where it would start if all were of that length. -/
theorem daysBefore_near_mean (year : Nat) :
    146097 * year ≤ 400 * daysBefore year + 400 ∧ 400 * daysBefore year ≤ 146097 * year + 800 := by
  simp only [daysBefore]
  omega

theorem daysBefore_yearOf (day : Nat) :
    daysBefore (yearOf day) ≤ day ∧ day < daysBefore (yearOf day + 1) := by
  have hmean : 146097 * (400 * day / 146097) ≤ 400 * day ∧
      400 * day < 146097 * (400 * day / 146097 + 1) := by omega
  simp only [yearOf]
  generalize 400 * day / 146097 = year at *
  -- The estimate is late by a year, early by a year, or right.
  split
  · next hearly =>
    have hyear : year ≠ 0 := by
      intro hzero
      simp [hzero, daysBefore] at hearly
    have hbefore := (daysBefore_near_mean (year - 1)).2
    have hsucc : year - 1 + 1 = year := by omega
    rw [hsucc]
    omega
  · next hstarted =>
    split
    · next hlate =>
      have hafter := (daysBefore_near_mean (year + 1 + 1)).1
      omega
    · omega

theorem yearOf_le {day : Nat} (h : day ≤ 3652424) : yearOf day ≤ 9999 := by
  have hstart := (daysBefore_yearOf day).1
  have hmean := (daysBefore_near_mean (yearOf day)).1
  have hlast : daysBefore 10000 = 3652425 := by decide
  by_cases hyear : yearOf day = 10000
  · rw [hyear, hlast] at hstart
    omega
  · omega

theorem monthDays_december (year : Nat) : monthDays year 12 = 31 := by
  simp [monthDays]

def monthsDays (year : Nat) : List Nat → Nat
  | [] => 0
  | month :: later => monthDays year month + monthsDays year later

/-- A day that is left over after the given months falls into December. -/
theorem monthOf_valid {year : Nat} {months : List Nat} (hmonths : ∀ m ∈ months, 1 ≤ m ∧ m ≤ 12)
    {day : Nat} (hday : day < monthsDays year months + 31) :
    1 ≤ (monthOf year months day).1 ∧ (monthOf year months day).1 ≤ 12 ∧
      1 ≤ (monthOf year months day).2 ∧
      (monthOf year months day).2 ≤ monthDays year (monthOf year months day).1 := by
  induction months generalizing day with
  | nil =>
    simp only [monthsDays] at hday
    simp only [monthOf, monthDays_december]
    omega
  | cons month later ih =>
    rw [monthOf]
    split
    · next hin =>
      have hmonth := hmonths month (by simp)
      exact ⟨hmonth.1, hmonth.2, Nat.le_add_left 1 day, hin⟩
    · next hout =>
      simp only [monthsDays] at hday
      exact ih (fun m hm => hmonths m (List.mem_cons_of_mem month hm)) (by omega)

theorem monthsDays_year (year : Nat) :
    monthsDays year [1, 2, 3, 4, 5, 6, 7, 8, 9, 10, 11] + 31 = yearDays year := by
  by_cases h : isLeap year = true <;> simp [monthsDays, monthDays, yearDays, h]

theorem valid_ofDay {day : Nat} (h : day ≤ 3652424) : (ofDay day).Valid := by
  obtain ⟨hstart, hend⟩ := daysBefore_yearOf day
  have hinYear : day - daysBefore (yearOf day) <
      monthsDays (yearOf day) [1, 2, 3, 4, 5, 6, 7, 8, 9, 10, 11] + 31 := by
    rw [monthsDays_year]
    rw [daysBefore_succ] at hend
    omega
  exact ⟨yearOf_le h, monthOf_valid (by decide) hinYear⟩

end Date

namespace Timestamp

theorem valid_of_ofSeconds? {seconds : Int} {micro : Nat} (hmicro : micro ≤ 999999)
    {t : Timestamp} (h : ofSeconds? seconds micro = some t) : t.Valid := by
  simp only [ofSeconds?] at h
  split at h
  · next hrange =>
    cases h
    simp only [firstSecond, lastSecond] at hrange ⊢
    refine ⟨Date.valid_ofDay (by omega), ?_, by simp⟩
    simp only [TimeOfDay.Valid]
    omega
  · cases h

theorem valid_of_ofUnits? {milli : Bool} {count : Int} {micros : Nat} {t : Timestamp}
    (h : ofUnits? milli count micros = some t) : t.Valid :=
  valid_of_ofSeconds? (by omega) h

end Timestamp
end LedgerScript
