import Mathlib.Logic.Function.Iterate
import TokenPlan.Proofs.Unit.Calendar

/-!
The calendar day by day. The dates that exist are those that come after the first one, a day at a
time; the number of a date counts the days up to it, and no two dates share a number.
-/

set_option autoImplicit false
set_option relaxedAutoImplicit false

namespace TokenPlan.Calendar

/-- The day after a date: in the same month, on the first of the next one, or in the next year. -/
def Date.next (date : Date) : Date :=
  if date.day < daysInMonth date.year date.month then ⟨date.year, date.month, date.day + 1⟩
  else if date.month < 12 then ⟨date.year, date.month + 1, 1⟩
  else ⟨date.year + 1, 1, 1⟩

def Date.first : Date := ⟨0, 1, 1⟩

/-- The date comes so many days after the first one. -/
def Date.Comes (date : Date) (days : Nat) : Prop :=
  Date.next^[days] Date.first = date

variable {date later : Date} {year month : Nat}

/-! ### Months -/

private theorem one_le_daysInMonth (low : 1 ≤ month) (high : month ≤ 12) :
    1 ≤ daysInMonth year month := by
  have long : ∀ length ∈ monthLengths year, 1 ≤ length := by
    cases leap : isLeap year <;> simp [monthLengths, leap]
  have within : month - 1 < (monthLengths year).length := by
    change month - 1 < 12
    omega
  rw [daysInMonth, if_neg (by omega), List.getElem?_eq_getElem within, Option.getD_some]
  exact long _ (List.getElem_mem within)

private theorem one_le_month_of_exists (there : date.Exists) : 1 ≤ date.month := by
  apply Nat.pos_of_ne_zero
  intro unnamed
  have none_there : daysInMonth date.year date.month = 0 := if_pos unnamed
  obtain ⟨low, high⟩ := there
  omega

private theorem sum_take_month (year : Nat) (low : 1 ≤ month) (high : month ≤ 12) :
    ((monthLengths year).take month).sum =
      ((monthLengths year).take (month - 1)).sum + daysInMonth year month := by
  have within : month - 1 < (monthLengths year).length := by
    change month - 1 < 12
    omega
  obtain ⟨before, rfl⟩ : ∃ before, month = before + 1 := ⟨month - 1, by omega⟩
  rw [Nat.add_sub_cancel] at within ⊢
  rw [List.take_add_one, List.sum_append, daysInMonth, if_neg (Nat.succ_ne_zero before),
    Nat.add_sub_cancel, List.getElem?_eq_getElem within]
  simp

private theorem sum_take_mono (lengths : List Nat) {first second : Nat} (le : first ≤ second) :
    (lengths.take first).sum ≤ (lengths.take second).sum := by
  obtain ⟨between, rfl⟩ := Nat.exists_eq_add_of_le le
  rw [List.take_add, List.sum_append]
  exact Nat.le_add_right _ _

/-! ### The next day -/

private theorem exists_next (there : date.Exists) : date.next.Exists := by
  have low := one_le_month_of_exists there
  unfold Date.next
  split
  · rename_i inside
    exact ⟨Nat.le_add_left 1 _, inside⟩
  · split
    · rename_i inside
      exact ⟨Nat.le_refl 1, one_le_daysInMonth (Nat.le_add_left 1 _) inside⟩
    · have january : 1 ≤ 12 := by decide
      exact ⟨Nat.le_refl 1, one_le_daysInMonth (Nat.le_refl 1) january⟩

private theorem dayNumber_next (there : date.Exists) :
    date.next.dayNumber = date.dayNumber + 1 := by
  have low := one_le_month_of_exists there
  have high := month_le_of_exists there
  have month := sum_take_month date.year low high
  obtain ⟨day_low, day_high⟩ := there
  unfold Date.next
  split
  · simp only [Date.dayNumber]
    omega
  · rename_i last
    split
    · simp only [Date.dayNumber, Nat.add_sub_cancel, month]
      omega
    · rename_i last_month
      have december : date.month = 12 := by omega
      have whole : ((monthLengths date.year).take date.month).sum = (monthLengths date.year).sum := by
        rw [december]
        rfl
      simp only [Date.dayNumber, daysBeforeYear_succ, ← whole, month, Nat.sub_self, List.take_zero,
        List.sum_nil]
      omega

private theorem iterate_next (days : Nat) :
    (Date.next^[days] Date.first).Exists ∧ (Date.next^[days] Date.first).dayNumber = days := by
  induction days with
  | zero => decide
  | succ days ih =>
    obtain ⟨there, number⟩ := ih
    rw [Function.iterate_succ_apply']
    exact ⟨exists_next there, by rw [dayNumber_next there, number]⟩

/-! ### The order of dates -/

private theorem year_le_of_dayNumber_le (there : date.Exists)
    (le : later.dayNumber ≤ date.dayNumber) :
    later.year ≤ date.year := by
  apply Nat.le_of_not_lt
  intro before
  have year := daysBeforeYear_mono (Nat.succ_le_of_lt before)
  have day := dayNumber_lt there
  have start : daysBeforeYear later.year ≤ later.dayNumber := by
    unfold Date.dayNumber
    omega
  change daysBeforeYear (date.year + 1) ≤ _ at year
  omega

private theorem month_le_of_dayNumber_le (there : date.Exists) (same_year : later.year = date.year)
    (le : later.dayNumber ≤ date.dayNumber) : later.month ≤ date.month := by
  have low := one_le_month_of_exists there
  have high := month_le_of_exists there
  have whole := sum_take_month date.year low high
  obtain ⟨day_low, day_high⟩ := there
  apply Nat.le_of_not_lt
  intro before
  have months := sum_take_mono (monthLengths date.year)
    (show date.month ≤ later.month - 1 by omega)
  simp only [Date.dayNumber, same_year] at le
  omega

private theorem eq_of_dayNumber_eq (there : date.Exists) (there' : later.Exists)
    (same : date.dayNumber = later.dayNumber) : date = later := by
  have le := Nat.le_of_eq same
  have ge := Nat.le_of_eq same.symm
  have year : date.year = later.year :=
    Nat.le_antisymm (year_le_of_dayNumber_le there' le) (year_le_of_dayNumber_le there ge)
  have month : date.month = later.month :=
    Nat.le_antisymm (month_le_of_dayNumber_le there' year le)
      (month_le_of_dayNumber_le there year.symm ge)
  have day : date.day = later.day := by
    obtain ⟨low, -⟩ := there
    obtain ⟨low', -⟩ := there'
    simp only [Date.dayNumber, year, month] at same
    omega
  cases date
  cases later
  cases year
  cases month
  cases day
  rfl

/-- The dates that exist are those that come after some days, as many as their numbers tell. -/
theorem comes_iff {days : Nat} : date.Comes days ↔ date.Exists ∧ date.dayNumber = days := by
  obtain ⟨there, number⟩ := iterate_next days
  constructor
  · rintro rfl
    exact ⟨there, number⟩
  · rintro ⟨there', number'⟩
    exact eq_of_dayNumber_eq there there' (number.trans number'.symm)

theorem Date.Comes.unique {days days' : Nat} (comes : date.Comes days)
    (comes' : date.Comes days') : days = days' :=
  (comes_iff.mp comes).2.symm.trans (comes_iff.mp comes').2

theorem comes_epoch : (Date.mk 1970 1 1).Comes epochDay :=
  comes_iff.mpr ⟨by decide, by decide⟩

end TokenPlan.Calendar
