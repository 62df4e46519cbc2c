import TokenPlan.Proofs.Text.Digits
import TokenPlan.Proofs.Unit.Calendar
import TokenPlan.Unit.Instant

/-!
Dates, times of the day and offsets in the widths of RFC 3339, and what reading makes of each,
whatever stands behind it.
-/

set_option autoImplicit false
set_option relaxedAutoImplicit false

namespace TokenPlan.Instant

open Calendar (Date)

/-- The date has four digits for its year, and two for its month and for its day. -/
structure Fits (date : Date) : Prop where
  year : date.year < 10 ^ 4
  month : date.month < 10 ^ 2
  day : date.day < 10 ^ 2

/-- A time of the day. -/
structure Clock where
  hour : Fin 24
  minute : Fin 60
  second : Fin 60

/-- What has to be taken from a local time to come to universal time. -/
inductive Zone where
  | universal
  | ahead (hours : Fin 24) (minutes : Fin 60)
  | behind (hours : Fin 24) (minutes : Fin 60)

def Clock.secondOfDay (clock : Clock) : Nat :=
  3600 * clock.hour + 60 * clock.minute + clock.second

/-- The offset in seconds. -/
def Zone.offset : Zone → Int
  | .universal => 0
  | .ahead hours minutes => (3600 * hours + 60 * minutes : Nat)
  | .behind hours minutes => -(3600 * hours + 60 * minutes : Nat)

def writeDate (date : Date) : List Char :=
  Text.paddedDigits 4 date.year ++ '-' ::
    (Text.paddedDigits 2 date.month ++ '-' :: Text.paddedDigits 2 date.day)

def Clock.write (clock : Clock) : List Char :=
  Text.paddedDigits 2 clock.hour ++ ':' ::
    (Text.paddedDigits 2 clock.minute ++ ':' :: Text.paddedDigits 2 clock.second)

def Zone.write : Zone → List Char
  | .universal => ['Z']
  | .ahead hours minutes =>
    '+' :: (Text.paddedDigits 2 hours ++ ':' :: Text.paddedDigits 2 minutes)
  | .behind hours minutes =>
    '-' :: (Text.paddedDigits 2 hours ++ ':' :: Text.paddedDigits 2 minutes)

/-- A date with a time and an offset. -/
def writeDateTime (date : Date) (clock : Clock) (zone : Zone) : List Char :=
  writeDate date ++ 'T' :: (clock.write ++ zone.write)

variable {date : Date}

theorem fits_of_exists (there : date.Exists) (short : date.year ≤ 9999) : Fits date := by
  have month := Calendar.month_le_of_exists there
  have day := Calendar.day_le_of_exists there
  constructor <;> omega

private theorem visible_writeDate (date : Date) : Text.Visible (writeDate date) := by
  simp only [writeDate, Text.visible_cons, Text.visible_append, Text.visible_paddedDigits, true_and,
    and_true]
  exact ⟨rfl, rfl⟩

private theorem Clock.visible_write (clock : Clock) : Text.Visible clock.write := by
  simp only [Clock.write, Text.visible_cons, Text.visible_append, Text.visible_paddedDigits,
    true_and, and_true]
  exact ⟨rfl, rfl⟩

private theorem Zone.visible_write (zone : Zone) : Text.Visible zone.write := by
  have visible : ∀ hours minutes : Nat,
      Text.Visible (Text.paddedDigits 2 hours ++ ':' :: Text.paddedDigits 2 minutes) := by
    intro hours minutes
    rw [Text.visible_append, Text.visible_cons]
    exact ⟨Text.visible_paddedDigits 2 _, rfl, Text.visible_paddedDigits 2 _⟩
  cases zone with
  | universal => exact Text.visible_cons.mpr ⟨rfl, nofun⟩
  | ahead hours minutes => exact Text.visible_cons.mpr ⟨rfl, visible hours minutes⟩
  | behind hours minutes => exact Text.visible_cons.mpr ⟨rfl, visible hours minutes⟩

theorem visible_writeDateTime (date : Date) (clock : Clock) (zone : Zone) :
    Text.Visible (writeDateTime date clock zone) := by
  rw [writeDateTime, Text.visible_append, Text.visible_cons, Text.visible_append]
  exact ⟨visible_writeDate date, rfl, clock.visible_write, zone.visible_write⟩

/-! ### Parts -/

private theorem readDate_writeDate (fits : Fits date) (rest : List Char) :
    readDate (writeDate date ++ rest) = if date.Exists then some (date, rest) else none := by
  have dash : ∀ text, Text.expect '-' ('-' :: text) = some text := fun _ => rfl
  simp only [readDate, writeDate, List.append_assoc, List.cons_append,
    Text.readFixed_paddedDigits (by decide : 0 < 4) fits.year,
    Text.readFixed_paddedDigits (by decide : 0 < 2) fits.month,
    Text.readFixed_paddedDigits (by decide : 0 < 2) fits.day, dash, Option.bind_eq_bind,
    Option.bind_some]

private theorem readHoursMinutes_write (hours : Fin 24) (minutes : Fin 60) (rest : List Char) :
    readHoursMinutes (Text.paddedDigits 2 hours ++ ':' :: (Text.paddedDigits 2 minutes ++ rest)) =
      some ((↑hours, ↑minutes), rest) := by
  have hours_lt : (hours : Nat) < 10 ^ 2 := by omega
  have minutes_lt : (minutes : Nat) < 10 ^ 2 := by omega
  have colon : ∀ text, Text.expect ':' (':' :: text) = some text := fun _ => rfl
  have within : (hours : Nat) ≤ 23 ∧ (minutes : Nat) ≤ 59 := by omega
  simp only [readHoursMinutes, Text.readFixed_paddedDigits (by decide : 0 < 2) hours_lt,
    Text.readFixed_paddedDigits (by decide : 0 < 2) minutes_lt, colon, Option.bind_eq_bind,
    Option.bind_some]
  exact if_pos within

private theorem readTime_write (clock : Clock) (rest : List Char) :
    readTime (clock.write ++ rest) = some (clock.secondOfDay, rest) := by
  have second_lt : (clock.second : Nat) < 10 ^ 2 := by omega
  have colon : ∀ text, Text.expect ':' (':' :: text) = some text := fun _ => rfl
  have within : (clock.second : Nat) ≤ 60 := by omega
  have whole : min (clock.second : Nat) 59 = clock.second := by omega
  simp only [readTime, Clock.write, List.append_assoc, List.cons_append, readHoursMinutes_write,
    Text.readFixed_paddedDigits (by decide : 0 < 2) second_lt, colon, Option.bind_eq_bind,
    Option.bind_some, within, if_true, whole, Clock.secondOfDay]

private theorem readOffset_write (zone : Zone) :
    readOffset zone.write = some (zone.offset, []) := by
  have read : ∀ (hours : Fin 24) (minutes : Fin 60),
      readHoursMinutes (Text.paddedDigits 2 hours ++ ':' :: Text.paddedDigits 2 minutes) =
        some ((↑hours, ↑minutes), []) := by
    intro hours minutes
    have whole := readHoursMinutes_write hours minutes []
    rwa [List.append_nil] at whole
  cases zone with
  | universal => rfl
  | ahead hours minutes =>
    change (readHoursMinutes _ >>= fun clock => _) = _
    simp only [read, Option.bind_eq_bind, Option.bind_some, Zone.offset, Int.one_mul]
  | behind hours minutes =>
    change (readHoursMinutes _ >>= fun clock => _) = _
    simp only [read, Option.bind_eq_bind, Option.bind_some, Zone.offset, Int.neg_one_mul]

private theorem dropFraction_write (zone : Zone) : dropFraction zone.write = some zone.write := by
  cases zone <;> rfl

/-! ### Whole texts -/

theorem readDateTime_writeDateTime (fits : Fits date) (clock : Clock) (zone : Zone) :
    readDateTime (writeDateTime date clock zone) =
      if date.Exists then some (seconds date clock.secondOfDay - zone.offset) else none := by
  have divider : ∀ text, readDivider ('T' :: text) = some text := fun _ => rfl
  rw [readDateTime, writeDateTime, readDate_writeDate fits]
  split
  · simp only [divider, readTime_write, dropFraction_write, readOffset_write, Option.bind_eq_bind,
      Option.bind_some, if_true]
  · rfl

theorem readDateTime_writeDate (fits : Fits date) : readDateTime (writeDate date) = none := by
  have read := readDate_writeDate fits []
  rw [List.append_nil] at read
  rw [readDateTime, read]
  split <;> rfl

private theorem readYear_paddedDigits {year : Nat} (short : year < 10 ^ 4) (rest : List Char) :
    readYear (Text.paddedDigits 4 year ++ rest) = some (year, rest) := by
  have read := Text.readUpTo_paddedDigits (by decide : 0 < 4) short rest
  unfold readYear
  split
  · rename_i signed
    have length := Text.length_paddedDigits (by decide : 0 < 4) short
    cases digits : Text.paddedDigits 4 year with
    | nil =>
      rw [digits] at length
      cases length
    | cons c more =>
      rw [digits] at signed
      cases signed
      have sign : '+' ∈ Text.paddedDigits 4 year := by
        rw [digits]
        exact List.mem_cons_self
      exact absurd (Text.isDigit_of_mem_paddedDigits sign) (by decide)
  · exact read

theorem readBareDate_writeDate (fits : Fits date) {rest : List Char}
    (visible : Text.Visible rest) :
    readBareDate (writeDate date ++ rest) =
      if date.Exists ∧ rest = [] then some (seconds date 0) else none := by
  have dash : ∀ text, Text.expect '-' ('-' :: text) = some text := fun _ => rfl
  have whole : Text.Visible (writeDate date ++ rest) :=
    Text.visible_append.mpr ⟨visible_writeDate date, visible⟩
  have year_le : date.year ≤ lastYear := Nat.le_trans (Nat.le_of_lt fits.year) (by decide)
  simp only [writeDate, List.append_assoc, List.cons_append] at whole ⊢
  have from_month := (Text.visible_cons.mp (Text.visible_append.mp whole).2).2
  have from_day := (Text.visible_cons.mp (Text.visible_append.mp from_month).2).2
  rw [readBareDate, Text.trimLeft_of_visible whole, readYear_paddedDigits fits.year]
  simp only [Option.bind_eq_bind, Option.bind_some, dash, Text.trimLeft_of_visible from_month,
    Text.readUpTo_paddedDigits (by decide : 0 < 2) fits.month, Text.trimLeft_of_visible from_day,
    Text.readUpTo_paddedDigits (by decide : 0 < 2) fits.day, year_le, true_and]

end TokenPlan.Instant
