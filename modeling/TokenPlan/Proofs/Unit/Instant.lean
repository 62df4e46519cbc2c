import TokenPlan.Proofs.Unit.Timestamp

/-!
Instants that are written are read as themselves up to the end of the year 9999. Later ones are
written with a year that has a plus sign, and no text with such a year and a time is read. Every
instant that is read can be written.
-/

set_option autoImplicit false
set_option relaxedAutoImplicit false

namespace TokenPlan.Instant

open Calendar (Date)

/-- The last second of the last year with four digits. -/
def lastShortSecond : Nat := 253402300799

example : seconds ⟨9999, 12, 31⟩ (24 * 3600 - 1) = lastShortSecond := by decide

/-- What is written behind the year. -/
def writeBehindYear (date : Date) (rest : Nat) : List Char :=
  '-' :: (Text.paddedDigits 2 date.month ++ '-' ::
    (Text.paddedDigits 2 date.day ++ 'T' :: (Text.paddedDigits 2 (rest / 3600) ++ ':' ::
      (Text.paddedDigits 2 (rest / 60 % 60) ++ ':' :: (Text.paddedDigits 2 (rest % 60) ++ ['Z'])))))

/-- The date in which a second lies. -/
def dateOf (second : Nat) : Date :=
  Date.ofDayNumber (second / 86400 + Calendar.epochDay)

private theorem write_eq (second : Nat) :
    write second = writeYear (dateOf second).year ++
      writeBehindYear (dateOf second) (second % 86400) := rfl

private theorem year_dateOf_le_iff (second : Nat) :
    (dateOf second).year ≤ 9999 ↔ second ≤ lastShortSecond := by
  rw [dateOf, (Calendar.ofDayNumber_spec _).2.2, Calendar.yearOfDay_le_iff]
  unfold Calendar.epochDay lastShortSecond
  omega

private theorem visible_write (second : Nat) : Text.Visible (write second) := by
  have year : Text.Visible (writeYear (dateOf second).year) := by
    unfold writeYear
    split
    · exact Text.visible_paddedDigits 4 _
    · exact Text.visible_cons.mpr ⟨rfl, Text.visible_digits _⟩
  rw [write_eq, Text.visible_append]
  refine ⟨year, ?_⟩
  simp only [writeBehindYear, Text.visible_cons, Text.visible_append, Text.visible_paddedDigits,
    true_and]
  exact ⟨rfl, rfl, rfl, rfl, rfl, rfl, nofun⟩

/-! ### Short years -/

private theorem exists_clock {rest : Nat} (within : rest < 86400) :
    ∃ clock : Clock, clock.secondOfDay = rest ∧ (clock.hour : Nat) = rest / 3600 ∧
      (clock.minute : Nat) = rest / 60 % 60 ∧ (clock.second : Nat) = rest % 60 := by
  have hour : rest / 3600 < 24 := by omega
  have whole : 3600 * (rest / 3600) + 60 * (rest / 60 % 60) + rest % 60 = rest := by omega
  exact ⟨⟨⟨_, hour⟩, ⟨_, Nat.mod_lt _ (by decide)⟩, ⟨_, Nat.mod_lt _ (by decide)⟩⟩, whole, rfl, rfl,
    rfl⟩

private theorem append_writeBehindYear (date : Date) {clock : Clock} {rest : Nat}
    (hour : (clock.hour : Nat) = rest / 3600) (minute : (clock.minute : Nat) = rest / 60 % 60)
    (second : (clock.second : Nat) = rest % 60) :
    Text.paddedDigits 4 date.year ++ writeBehindYear date rest =
      writeDateTime date clock .universal := by
  rw [writeBehindYear, ← hour, ← minute, ← second]
  simp only [writeDateTime, writeDate, Clock.write, Zone.write, List.append_assoc, List.cons_append]

private theorem exists_writeDateTime {second : Nat} (short : second ≤ lastShortSecond) :
    ∃ clock : Clock, clock.secondOfDay = second % 86400 ∧
      write second = writeDateTime (dateOf second) clock .universal := by
  have within : second % 86400 < 86400 := Nat.mod_lt second (by decide)
  obtain ⟨clock, whole, hour, minute, rest⟩ := exists_clock within
  refine ⟨clock, whole, ?_⟩
  rw [write_eq, writeYear, if_pos ((year_dateOf_le_iff second).mpr short),
    append_writeBehindYear _ hour minute rest]

private theorem readDateTime_write {second : Nat} (short : second ≤ lastShortSecond) :
    readDateTime (write second) = some (second : Int) := by
  obtain ⟨there, number, -⟩ := Calendar.ofDayNumber_spec (second / 86400 + Calendar.epochDay)
  have fits : Fits (dateOf second) :=
    fits_of_exists there ((year_dateOf_le_iff second).mpr short)
  have total : seconds (dateOf second) (second % 86400) - 0 = second := by
    unfold seconds
    rw [dateOf, number]
    omega
  obtain ⟨clock, secondOfDay, written⟩ := exists_writeDateTime short
  rw [written, readDateTime_writeDateTime fits, if_pos (show (dateOf second).Exists from there),
    secondOfDay, Zone.offset, total]

/-- What is written is read as the instant itself while its year has four digits. -/
theorem ofText_write {instant : UInt64} (short : instant.toNat ≤ lastShortSecond) :
    ofText (String.ofList (write instant.toNat)) = .ok instant := by
  have read := readDateTime_write short
  rw [ofText, String.toList_ofList, Text.trim_of_visible (visible_write _), read]
  change require _ (Word.ofNat? instant.toNat) = .ok instant
  rw [Word.ofNat?_toNat]
  rfl

/-! ### Long years -/

variable {second : Nat}

private theorem write_of_long (long : lastShortSecond < second) :
    write second = '+' :: (Text.digits (dateOf second).year ++
      writeBehindYear (dateOf second) (second % 86400)) := by
  have year : ¬ (dateOf second).year ≤ 9999 := by
    rw [year_dateOf_le_iff]
    exact Nat.not_le_of_lt long
  rw [write_eq, writeYear, if_neg year, List.cons_append]

private theorem readDateTime_of_long (long : lastShortSecond < second) :
    readDateTime (write second) = none := by
  rw [write_of_long long]
  -- The year with its plus sign is no run of four digits.
  have sign : ∀ text, Text.readFixed 4 ('+' :: text) = none := by
    intro text
    simp [Text.readFixed]
  simp only [readDateTime, readDate, sign, Option.bind_eq_bind, Option.bind_none]

private theorem readBareDate_of_behind {year month day : Nat} (month_lt : month < 10 ^ 2)
    (day_lt : day < 10 ^ 2) {c : Char} {tail : List Char}
    (visible : Text.Visible ('+' :: (Text.digits year ++ '-' :: (Text.paddedDigits 2 month ++ '-' ::
      (Text.paddedDigits 2 day ++ c :: tail))))) :
    readBareDate ('+' :: (Text.digits year ++ '-' :: (Text.paddedDigits 2 month ++ '-' ::
      (Text.paddedDigits 2 day ++ c :: tail)))) = none := by
  have behind := (Text.visible_append.mp (Text.visible_cons.mp visible).2).2
  have from_month := (Text.visible_cons.mp behind).2
  have from_day := (Text.visible_cons.mp (Text.visible_append.mp from_month).2).2
  have dash : ∀ text, Text.expect '-' ('-' :: text) = some text := fun _ => rfl
  have sign : ∀ text, readYear ('+' :: text) = Text.readRun text := fun _ => rfl
  have ends : Text.NoDigit ('-' :: (Text.paddedDigits 2 month ++ '-' ::
    (Text.paddedDigits 2 day ++ c :: tail))) := Text.noDigit_cons rfl
  rw [readBareDate, Text.trimLeft_of_visible visible, sign,
    Text.readRun_digits year ends]
  simp only [Option.bind_eq_bind, Option.bind_some, dash, Text.trimLeft_of_visible from_month,
    Text.readUpTo_paddedDigits (by decide : 0 < 2) month_lt,
    Text.trimLeft_of_visible from_day, Text.readUpTo_paddedDigits (by decide : 0 < 2) day_lt]
  exact if_neg fun named => List.cons_ne_nil c tail named.2.2

private theorem readBareDate_of_long (long : lastShortSecond < second) :
    readBareDate (write second) = none := by
  have there : (dateOf second).Exists := (Calendar.ofDayNumber_spec _).1
  have month := Calendar.month_le_of_exists there
  have day := Calendar.day_le_of_exists there
  have visible := visible_write second
  rw [write_of_long long] at visible ⊢
  exact readBareDate_of_behind (by omega) (by omega) visible

theorem ofText_of_long (long : lastShortSecond < second) :
    ofText (String.ofList (write second)) =
      .error (.invalidDate (String.ofList (write second))) := by
  rw [ofText, String.toList_ofList, Text.trim_of_visible (visible_write _),
    readDateTime_of_long long, readBareDate_of_long long]
  rfl

/-! ### What is read -/

private theorem readDate_bounds {text rest : List Char} {date : Date}
    (read : readDate text = some (date, rest)) : date.Exists ∧ date.year ≤ 9999 := by
  simp only [readDate, Option.bind_eq_bind, Option.bind_eq_some_iff] at read
  obtain ⟨⟨year, _⟩, year_read, _, -, ⟨month, _⟩, -, _, -, ⟨day, _⟩, -, there⟩ := read
  have short := Text.lt_of_readFixed year_read
  split at there
  · rename_i exist
    cases there
    exact ⟨exist, by change year ≤ 9999; omega⟩
  · cases there

private theorem readHoursMinutes_le {text rest : List Char} {hours minutes : Nat}
    (read : readHoursMinutes text = some ((hours, minutes), rest)) :
    hours ≤ 23 ∧ minutes ≤ 59 := by
  simp only [readHoursMinutes, Option.bind_eq_bind, Option.bind_eq_some_iff] at read
  obtain ⟨_, -, _, -, _, -, clock⟩ := read
  split at clock
  · rename_i within
    cases clock
    exact within
  · cases clock

private theorem readTime_lt {text rest : List Char} {second : Nat}
    (read : readTime text = some (second, rest)) : second < 86400 := by
  simp only [readTime, Option.bind_eq_bind, Option.bind_eq_some_iff] at read
  obtain ⟨⟨⟨hours, minutes⟩, _⟩, clock, _, -, ⟨seconds, _⟩, -, minute⟩ := read
  have within := readHoursMinutes_le clock
  split at minute
  · cases minute
    omega
  · cases minute

private theorem lt_readOffset {text rest : List Char} {offset : Int}
    (read : readOffset text = some (offset, rest)) : -86400 < offset := by
  have signed : ∀ (direction : Int) (digits : List Char), direction = 1 ∨ direction = -1 →
      ((readHoursMinutes digits).bind fun clock =>
        some (direction * (3600 * clock.1.1 + 60 * clock.1.2 : Nat), clock.2)) =
          some (offset, rest) → -86400 < offset := by
    intro direction digits unit behind
    obtain ⟨⟨⟨hours, minutes⟩, _⟩, clock, done⟩ := Option.bind_eq_some_iff.mp behind
    have within := readHoursMinutes_le clock
    cases done
    dsimp only
    rcases unit with rfl | rfl <;> omega
  unfold readOffset at read
  split at read
  · cases read
    decide
  · cases read
    decide
  · split at read
    · exact signed 1 _ (Or.inl rfl) read
    · split at read
      · exact signed (-1) _ (Or.inr rfl) read
      · cases read
  · cases read

private theorem readDateTime_le {text : List Char} {second : Int}
    (read : readDateTime text = some second) : second ≤ lastSecond := by
  simp only [readDateTime, Option.bind_eq_bind, Option.bind_eq_some_iff] at read
  obtain ⟨⟨date, _⟩, date_read, _, -, ⟨secondOfDay, _⟩, time_read, _, -, ⟨offset, _⟩, offset_read,
    done⟩ := read
  obtain ⟨there, short⟩ := readDate_bounds date_read
  have time := readTime_lt time_read
  have late := lt_readOffset offset_read
  have day := Calendar.dayNumber_lt there
  have year := Calendar.daysBeforeYear_mono (show date.year + 1 ≤ 10000 by omega)
  have bound : Calendar.daysBeforeYear 10000 = 3652425 := rfl
  split at done
  · cases done
    unfold seconds lastSecond Calendar.epochDay
    dsimp only
    omega
  · cases done

private theorem readBareDate_le {text : List Char} {second : Int}
    (read : readBareDate text = some second) : second ≤ lastSecond := by
  simp only [readBareDate, Option.bind_eq_bind, Option.bind_eq_some_iff] at read
  obtain ⟨⟨year, _⟩, -, _, -, ⟨month, _⟩, -, _, -, ⟨day, _⟩, -, done⟩ := read
  split at done
  · rename_i named
    obtain ⟨early, there, -⟩ := named
    cases done
    have day := Calendar.dayNumber_lt there
    have year := Calendar.daysBeforeYear_mono (Nat.add_le_add_right early 1)
    have bound : Calendar.daysBeforeYear (lastYear + 1) = 95745765 := rfl
    unfold seconds lastSecond Calendar.epochDay
    dsimp only at day year ⊢
    omega
  · cases done

theorem le_of_read {text : List Char} {second : Int}
    (read : (readDateTime text <|> readBareDate text) = some second) : second ≤ lastSecond := by
  rw [Option.orElse_eq_orElse, Option.orElse_eq_or, Option.or_eq_some_iff] at read
  rcases read with date_time | ⟨-, bare⟩
  · exact readDateTime_le date_time
  · exact readBareDate_le bare

theorem le_of_ofText {text : String} {instant : UInt64} (read : ofText text = .ok instant) :
    instant.toNat ≤ lastSecond := by
  rw [ofText, require_eq_ok_iff] at read
  split at read
  · rename_i second found
    have told := Word.toNat_of_ofNat? read
    have bound : (second : Int) ≤ lastSecond := le_of_read found
    omega
  · cases read

/-- What is read can be written; it is read again exactly while its year has four digits. -/
theorem exists_render?_of_ofText {text : String} {instant : UInt64}
    (read : ofText text = .ok instant) :
    ∃ written, render? instant = some written ∧
      ofText written =
        if instant.toNat ≤ lastShortSecond then .ok instant
        else .error (.invalidDate written) := by
  refine ⟨String.ofList (write instant.toNat), if_pos (le_of_ofText read), ?_⟩
  by_cases short : instant.toNat ≤ lastShortSecond
  · rw [if_pos short, ofText_write short]
  · rw [if_neg short, ofText_of_long (Nat.lt_of_not_le short)]

end TokenPlan.Instant
