/-! The calendar: leap years, the lengths of months, and dates counted in days from the
first day of year zero. -/
namespace LedgerScript

structure Date where
  year : Nat
  month : Nat
  day : Nat
deriving DecidableEq, Repr

namespace Date

def isLeap (year : Nat) : Bool := year % 4 == 0 && (year % 100 != 0 || year % 400 == 0)

def monthDays (year month : Nat) : Nat :=
  if month = 2 then (if isLeap year then 29 else 28)
  else if month ∈ [4, 6, 9, 11] then 30 else 31

def Valid (d : Date) : Prop :=
  d.year ≤ 9999 ∧ 1 ≤ d.month ∧ d.month ≤ 12 ∧ 1 ≤ d.day ∧ d.day ≤ monthDays d.year d.month

instance (d : Date) : Decidable d.Valid := by unfold Valid; infer_instance

/-- The days of all years before. Each term after the first counts leap years. -/
def daysBefore (year : Nat) : Nat :=
  365 * year + (year + 3) / 4 - (year + 99) / 100 + (year + 399) / 400

/-- The year of a day. The mean length of a year gives it up to one. -/
def yearOf (day : Nat) : Nat :=
  let year := 400 * day / 146097
  if day < daysBefore year then year - 1
  else if daysBefore (year + 1) ≤ day then year + 1
  else year

/-- The month and the day of the month, counted off from the given months of the year. -/
def monthOf (year : Nat) : List Nat → Nat → Nat × Nat
  | [], day => (12, day + 1)
  | month :: later, day =>
    if day < monthDays year month then (month, day + 1)
    else monthOf year later (day - monthDays year month)

def ofDay (day : Nat) : Date :=
  let year := yearOf day
  let (month, inMonth) := monthOf year [1, 2, 3, 4, 5, 6, 7, 8, 9, 10, 11] (day - daysBefore year)
  ⟨year, month, inMonth⟩

end Date
end LedgerScript
