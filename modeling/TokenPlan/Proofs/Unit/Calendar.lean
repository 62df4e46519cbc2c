import TokenPlan.Unit.Calendar

/-!
The calendar counts every day once: the date of a day number exists and has that number.
-/

set_option autoImplicit false
set_option relaxedAutoImplicit false

namespace TokenPlan.Calendar

private theorem isLeap_iff {year : Nat} :
    isLeap year = true ↔ year % 4 = 0 ∧ (year % 100 ≠ 0 ∨ year % 400 = 0) := by
  simp [isLeap]

private theorem sum_monthLengths (year : Nat) :
    (monthLengths year).sum = if isLeap year then 366 else 365 := by
  cases leap : isLeap year <;> simp [monthLengths, leap]

theorem daysBeforeYear_succ (year : Nat) :
    daysBeforeYear (year + 1) = daysBeforeYear year + (monthLengths year).sum := by
  have fourth : (year + 1 + 3) / 4 = (year + 3) / 4 + if year % 4 = 0 then 1 else 0 := by
    split <;> omega
  have century : (year + 1 + 99) / 100 = (year + 99) / 100 + if year % 100 = 0 then 1 else 0 := by
    split <;> omega
  have cycle : (year + 1 + 399) / 400 = (year + 399) / 400 + if year % 400 = 0 then 1 else 0 := by
    split <;> omega
  have fewer : (year + 99) / 100 ≤ (year + 3) / 4 := by omega
  have divides : year % 100 = 0 → year % 4 = 0 := by omega
  have divides_cycle : year % 400 = 0 → year % 100 = 0 := by omega
  rw [sum_monthLengths]
  simp only [daysBeforeYear, fourth, century, cycle, isLeap_iff]
  generalize (year + 3) / 4 = fourths at fewer
  generalize (year + 99) / 100 = centuries at fewer
  generalize (year + 399) / 400 = cycles
  -- The leap rule with each exception inside the rule that it is an exception to.
  by_cases four : year % 4 = 0
  · by_cases hundred : year % 100 = 0
    · by_cases all : year % 400 = 0
      · simp only [four, hundred, all, if_true, ne_eq, not_true, or_true, and_self]
        omega
      · simp only [four, hundred, all, if_true, if_false, ne_eq, not_true, or_self, and_false]
        omega
    · have all : year % 400 ≠ 0 := fun divided => hundred (divides_cycle divided)
      simp only [four, hundred, all, if_true, if_false, ne_eq, not_false_eq_true, or_false,
        and_self]
      omega
  · have hundred : year % 100 ≠ 0 := fun divided => four (divides divided)
    have all : year % 400 ≠ 0 := fun divided => hundred (divides_cycle divided)
    simp only [four, hundred, all, if_false, false_and]
    omega

theorem daysBeforeYear_mono {first second : Nat} (le : first ≤ second) :
    daysBeforeYear first ≤ daysBeforeYear second := by
  induction le with
  | refl => exact Nat.le_refl _
  | step le ih =>
    rw [daysBeforeYear_succ]
    omega

private theorem daysBeforeYear_bounds (year : Nat) :
    146097 * year ≤ 400 * daysBeforeYear year + 396 ∧
      400 * daysBeforeYear year ≤ 146097 * year + 699 := by
  unfold daysBeforeYear
  omega

private theorem yearOfDay_spec (number : Nat) :
    daysBeforeYear (yearOfDay number) ≤ number ∧
      number < daysBeforeYear (yearOfDay number + 1) := by
  have mean : 146097 * (400 * number / 146097) ≤ 400 * number ∧
      400 * number < 146097 * (400 * number / 146097 + 1) := by omega
  unfold yearOfDay
  generalize 400 * number / 146097 = estimate at mean
  -- The bounds on both sides leave three years: the one behind the estimate, the estimate and the
  -- one before it, which the definition tries in this order.
  by_cases first : daysBeforeYear (estimate + 1) ≤ number
  · have next := (daysBeforeYear_bounds (estimate + 1 + 1)).1
    simp only [first, if_true, true_and]
    omega
  · by_cases second : daysBeforeYear (estimate + 1 - 1) ≤ number
    · simp only [first, second, if_true, if_false, true_and]
      exact Nat.lt_of_not_le first
    · cases estimate with
      | zero => exact absurd (Nat.zero_le number) second
      | succ before =>
        have start := (daysBeforeYear_bounds before).2
        simp only [first, second, if_false]
        refine ⟨?_, Nat.lt_of_not_le second⟩
        change daysBeforeYear before ≤ number
        omega

/-- The walk over month lengths ends in the month in which the day lies. -/
private theorem monthOfDay_spec (lengths : List Nat) (month rest : Nat)
    (within : rest < lengths.sum) :
    ∃ before length, (monthOfDay lengths month rest).1 = month + before ∧
      lengths[before]? = some length ∧ 1 ≤ (monthOfDay lengths month rest).2 ∧
        (monthOfDay lengths month rest).2 ≤ length ∧
          (lengths.take before).sum + ((monthOfDay lengths month rest).2 - 1) = rest := by
  induction lengths generalizing month rest with
  | nil => cases within
  | cons length lengths ih =>
    by_cases here : rest < length
    · refine ⟨0, length, ?_⟩
      simp only [monthOfDay, here, if_true]
      exact ⟨rfl, rfl, by omega, by omega, by simp⟩
    · rw [List.sum_cons] at within
      obtain ⟨before, found, month_eq, length_eq, low, high, sum⟩ :=
        ih (month + 1) (rest - length) (by omega)
      refine ⟨before + 1, found, ?_⟩
      simp only [monthOfDay, here, if_false, month_eq, List.getElem?_cons_succ, length_eq,
        List.take_succ_cons, List.sum_cons]
      exact ⟨by omega, trivial, low, high, by omega⟩

private theorem ofDayNumber_eq (number : Nat) :
    Date.ofDayNumber number =
      ⟨yearOfDay number,
        (monthOfDay (monthLengths (yearOfDay number)) 1
          (number - daysBeforeYear (yearOfDay number))).1,
        (monthOfDay (monthLengths (yearOfDay number)) 1
          (number - daysBeforeYear (yearOfDay number))).2⟩ := rfl

/-- The date of a day number exists, has that number, and lies in the year that was found. -/
theorem ofDayNumber_spec (number : Nat) :
    (Date.ofDayNumber number).Exists ∧ (Date.ofDayNumber number).dayNumber = number ∧
      (Date.ofDayNumber number).year = yearOfDay number := by
  obtain ⟨start, next⟩ := yearOfDay_spec number
  rw [daysBeforeYear_succ] at next
  obtain ⟨before, length, month_eq, length_eq, low, high, sum⟩ :=
    monthOfDay_spec (monthLengths (yearOfDay number)) 1 (number - daysBeforeYear (yearOfDay number))
      (by omega)
  have month_pos : 1 + before ≠ 0 := by omega
  have index : 1 + before - 1 = before := by omega
  rw [ofDayNumber_eq, month_eq]
  refine ⟨⟨low, ?_⟩, ?_, rfl⟩
  · simp only [daysInMonth, if_neg month_pos, index, length_eq, Option.getD_some]
    exact high
  · simp only [Date.dayNumber, index]
    omega

private theorem monthLength_of_exists {date : Date} (there : date.Exists) :
    ∃ length, (monthLengths date.year)[date.month - 1]? = some length ∧ 1 ≤ date.day ∧
      date.day ≤ length := by
  obtain ⟨low, high⟩ := there
  unfold daysInMonth at high
  by_cases unnamed : date.month = 0
  · rw [if_pos unnamed] at high
    omega
  · rw [if_neg unnamed] at high
    cases found : (monthLengths date.year)[date.month - 1]? with
    | none =>
      rw [found, Option.getD_none] at high
      omega
    | some length =>
      rw [found, Option.getD_some] at high
      exact ⟨length, rfl, low, high⟩

theorem month_le_of_exists {date : Date} (there : date.Exists) : date.month ≤ 12 := by
  obtain ⟨length, found, -⟩ := monthLength_of_exists there
  obtain ⟨within, -⟩ := List.getElem?_eq_some_iff.mp found
  change date.month - 1 < 12 at within
  omega

theorem day_le_of_exists {date : Date} (there : date.Exists) : date.day ≤ 31 := by
  obtain ⟨length, found, -, high⟩ := monthLength_of_exists there
  have short : ∀ length ∈ monthLengths date.year, length ≤ 31 := by
    cases leap : isLeap date.year <;> simp [monthLengths, leap]
  exact Nat.le_trans high (short length (List.mem_of_getElem? found))

private theorem sum_take_add_le {lengths : List Nat} {index length : Nat}
    (found : lengths[index]? = some length) : (lengths.take index).sum + length ≤ lengths.sum := by
  induction lengths generalizing index with
  | nil => cases found
  | cons first rest ih =>
    cases index with
    | zero =>
      cases found
      simp
    | succ index =>
      have behind := ih (List.getElem?_cons_succ ▸ found)
      rw [List.take_succ_cons, List.sum_cons, List.sum_cons]
      omega

theorem dayNumber_lt {date : Date} (there : date.Exists) :
    date.dayNumber < daysBeforeYear (date.year + 1) := by
  obtain ⟨length, found, low, high⟩ := monthLength_of_exists there
  have months := sum_take_add_le found
  rw [daysBeforeYear_succ, Date.dayNumber]
  omega

/-- The years of four digits end with the day before the first of January 10000. -/
theorem yearOfDay_le_iff (number : Nat) : yearOfDay number ≤ 9999 ↔ number < 3652425 := by
  obtain ⟨start, next⟩ := yearOfDay_spec number
  have bound : daysBeforeYear 10000 = 3652425 := rfl
  constructor
  · intro short
    have := daysBeforeYear_mono (show yearOfDay number + 1 ≤ 10000 by omega)
    omega
  · intro early
    apply Nat.le_of_not_lt
    intro long
    have := daysBeforeYear_mono (show 10000 ≤ yearOfDay number from long)
    omega

end TokenPlan.Calendar
