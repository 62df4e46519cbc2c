import TokenPlan.Unit.Natural

/-!
The proleptic Gregorian calendar from the year 0 on: dates, and the days counted from its first.
-/

set_option autoImplicit false
set_option relaxedAutoImplicit false

namespace TokenPlan.Calendar

/-- A day as year, month and day of the month. -/
structure Date where
  year : Nat
  month : Nat
  day : Nat
deriving DecidableEq, Repr

/-- Every fourth year is a leap year, except the centuries that four hundred does not divide. -/
def isLeap (year : Nat) : Bool :=
  year % 4 == 0 && (year % 100 != 0 || year % 400 == 0)

def monthLengths (year : Nat) : List Nat :=
  [31, if isLeap year then 29 else 28, 31, 30, 31, 30, 31, 31, 30, 31, 30, 31]

/-- The days of a month counted from one; a month that does not exist has none. -/
def daysInMonth (year month : Nat) : Nat :=
  if month = 0 then 0 else ((monthLengths year)[month - 1]?).getD 0

def Date.Exists (date : Date) : Prop :=
  1 ≤ date.day ∧ date.day ≤ daysInMonth date.year date.month

instance (date : Date) : Decidable date.Exists :=
  inferInstanceAs (Decidable (_ ∧ _))

/-- The days before the first of January of a year: 365 for each year and one for each leap year. -/
def daysBeforeYear (year : Nat) : Nat :=
  365 * year + (year + 3) / 4 + (year + 399) / 400 - (year + 99) / 100

/-- The days from the first day of the year 0 to a date. -/
def Date.dayNumber (date : Date) : Nat :=
  daysBeforeYear date.year + ((monthLengths date.year).take (date.month - 1)).sum + (date.day - 1)

/-- The year in which a day lies: an estimate from the mean year, which is at most two too large. -/
def yearOfDay (number : Nat) : Nat :=
  let guess := 400 * number / 146097 + 1
  if daysBeforeYear guess ≤ number then guess
  else if daysBeforeYear (guess - 1) ≤ number then guess - 1
  else guess - 2

/-- Walks over month lengths to the month in which a day of the year, counted from zero, lies. -/
def monthOfDay : List Nat → Nat → Nat → Nat × Nat
  | [], month, rest => (month, rest + 1)
  | length :: lengths, month, rest =>
    if rest < length then (month, rest + 1) else monthOfDay lengths (month + 1) (rest - length)

/-- The date of a day counted from the first day of the year 0. -/
def Date.ofDayNumber (number : Nat) : Date :=
  let year := yearOfDay number
  let (month, day) := monthOfDay (monthLengths year) 1 (number - daysBeforeYear year)
  ⟨year, month, day⟩

def epochDay : Nat := 719528

example : (Date.mk 1970 1 1).dayNumber = epochDay := by decide

example : Date.ofDayNumber (Date.mk 2024 2 29).dayNumber = ⟨2024, 2, 29⟩ := by decide

end TokenPlan.Calendar
