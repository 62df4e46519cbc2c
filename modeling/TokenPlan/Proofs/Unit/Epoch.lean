import TokenPlan.Proofs.Unit.Instant
import TokenPlan.Proofs.Unit.Succession

/-!
Which instant a text names. A date with a time and an offset names the seconds from the beginning of
1970 to its day and to the time of that day, less the offset; it is refused if there is no such day,
or if the instant lies before 1970. A date alone names its first second in universal time.
-/

set_option autoImplicit false
set_option relaxedAutoImplicit false

namespace TokenPlan.Instant

open Calendar (Date)

/-- What a text is read as that gives a date, a second of its day and an offset. -/
inductive Told (date : Date) (secondOfDay : Nat) (offset : Int) (text : String) :
    Except UnitError UInt64 → Prop
  | instant {days epoch : Nat} {second : UInt64} (comes : date.Comes days)
      (epoch_comes : (Date.mk 1970 1 1).Comes epoch)
      (value : (second.toNat : Int) = 86400 * ((days : Int) - epoch) + secondOfDay - offset) :
      Told date secondOfDay offset text (.ok second)
  | early {days epoch : Nat} (comes : date.Comes days)
      (epoch_comes : (Date.mk 1970 1 1).Comes epoch)
      (negative : 86400 * ((days : Int) - epoch) + secondOfDay - offset < 0) :
      Told date secondOfDay offset text (.error (.invalidDate text))
  | unnamed (never : ∀ days, ¬ date.Comes days) :
      Told date secondOfDay offset text (.error (.invalidDate text))

def Clock.midnight : Clock := ⟨0, 0, 0⟩

variable {date : Date} {secondOfDay : Nat} {offset : Int} {text text' : String}
  {result result' : Except UnitError UInt64}

namespace Told

private theorem toOption_eq (told : Told date secondOfDay offset text result)
    (told' : Told date secondOfDay offset text' result') : result.toOption = result'.toOption := by
  cases told with
  | instant comes epoch_comes value =>
    cases told' with
    | instant comes' epoch_comes' value' =>
      obtain rfl := comes.unique comes'
      obtain rfl := epoch_comes.unique epoch_comes'
      have same := UInt64.toNat_inj.mp (Int.natCast_inj.mp (value.trans value'.symm))
      rw [same]
    | early comes' epoch_comes' negative =>
      obtain rfl := comes.unique comes'
      obtain rfl := epoch_comes.unique epoch_comes'
      omega
    | unnamed never => exact absurd comes (never _)
  | early comes epoch_comes negative =>
    cases told' with
    | instant comes' epoch_comes' value =>
      obtain rfl := comes.unique comes'
      obtain rfl := epoch_comes.unique epoch_comes'
      omega
    | early _ _ _ => rfl
    | unnamed _ => rfl
  | unnamed never =>
    cases told' with
    | instant comes _ _ => exact absurd comes (never _)
    | early _ _ _ => rfl
    | unnamed _ => rfl

private theorem eq_require (told : Told date secondOfDay offset text result) :
    result = require (.invalidDate text) result.toOption := by
  cases told <;> rfl

private theorem unique (told : Told date secondOfDay offset text result)
    (told' : Told date secondOfDay offset text result') : result = result' := by
  calc
    result = require (.invalidDate text) result.toOption := told.eq_require
    _ = require (.invalidDate text) result'.toOption := by rw [told.toOption_eq told']
    _ = result' := told'.eq_require.symm

private theorem eq_iff (told : Told date secondOfDay offset text result) :
    result = result' ↔ Told date secondOfDay offset text result' := by
  constructor
  · rintro rfl
    exact told
  · exact told.unique

end Told

/-! ### What is read -/

private theorem told_of_read (there : date.Exists)
    (read : (readDateTime (Text.trim text.toList) <|> readBareDate (Text.trim text.toList)) =
      some (seconds date secondOfDay - offset)) :
    Told date secondOfDay offset text (ofText text) := by
  have comes : date.Comes date.dayNumber := Calendar.comes_iff.mpr ⟨there, rfl⟩
  have total : seconds date secondOfDay - offset =
      86400 * ((date.dayNumber : Int) - Calendar.epochDay) + secondOfDay - offset := rfl
  have bound := le_of_read read
  by_cases negative : seconds date secondOfDay - offset < 0
  · obtain ⟨before, eq⟩ := Int.eq_negSucc_of_lt_zero negative
    have refused : ofText text = .error (.invalidDate text) := by
      rw [ofText, read, eq]
      rfl
    rw [refused]
    exact .early comes Calendar.comes_epoch (total ▸ negative)
  · obtain ⟨second, eq⟩ := Int.eq_ofNat_of_zero_le (Int.le_of_not_gt negative)
    have fits : second < 2 ^ 64 := by
      unfold lastSecond at bound
      omega
    have word : Word.ofNat? second = some (UInt64.ofNatLT second fits) := dif_pos fits
    have named : ofText text = .ok (UInt64.ofNatLT second fits) := by
      rw [ofText, read, eq]
      change require _ (Word.ofNat? second) = _
      rw [word]
      rfl
    rw [named]
    refine .instant comes Calendar.comes_epoch ?_
    rw [← total, eq, UInt64.toNat_ofNatLT]

private theorem told_of_unread (never : ¬ date.Exists)
    (read : (readDateTime (Text.trim text.toList) <|> readBareDate (Text.trim text.toList)) =
      none) : Told date secondOfDay offset text (ofText text) := by
  have refused : ofText text = .error (.invalidDate text) := by
    rw [ofText, read]
    rfl
  rw [refused]
  exact .unnamed fun days comes => never (Calendar.comes_iff.mp comes).1

private theorem told_writeDateTime (fits : Fits date) {clock : Clock} {zone : Zone}
    (trims : Text.Trims text.toList (writeDateTime date clock zone)) :
    Told date clock.secondOfDay zone.offset text (ofText text) := by
  have date_time := readDateTime_writeDateTime fits clock zone
  by_cases there : date.Exists
  · rw [if_pos there] at date_time
    apply told_of_read there
    rw [trims.trim_eq, date_time]
    rfl
  · rw [if_neg there] at date_time
    have behind := visible_writeDateTime date clock zone
    rw [writeDateTime, Text.visible_append] at behind
    apply told_of_unread there
    rw [trims.trim_eq, date_time, writeDateTime, readBareDate_writeDate fits behind.2,
      if_neg fun named => there named.1]
    rfl

private theorem told_writeDate (fits : Fits date)
    (trims : Text.Trims text.toList (writeDate date)) :
    Told date 0 0 text (ofText text) := by
  have bare := readBareDate_writeDate fits (show Text.Visible [] from nofun)
  rw [List.append_nil] at bare
  by_cases there : date.Exists
  · rw [if_pos ⟨there, rfl⟩] at bare
    apply told_of_read there
    rw [trims.trim_eq, readDateTime_writeDate fits, bare, Int.sub_zero]
    rfl
  · rw [if_neg fun named => there named.1] at bare
    apply told_of_unread there
    rw [trims.trim_eq, readDateTime_writeDate fits, bare]
    rfl

/--
A date with a time and an offset is read as the seconds since the beginning of 1970 and as nothing
else, and is refused where there is no such day or no such instant; a date alone is read as its
midnight in universal time.
-/
theorem ofText_decides_instant {date : Date} (fits : Fits date) :
    (∀ text clock zone, Text.Trims (String.toList text) (writeDateTime date clock zone) →
      ∀ result, ofText text = result ↔ Told date clock.secondOfDay zone.offset text result) ∧
    ∀ bare midnight, Text.Trims (String.toList bare) (writeDate date) →
      Text.Trims (String.toList midnight) (writeDateTime date Clock.midnight .universal) →
        (∀ result, ofText bare = result ↔ Told date 0 0 bare result) ∧
          (ofText bare).toOption = (ofText midnight).toOption := by
  constructor
  · intro text clock zone trims result
    exact (told_writeDateTime fits trims).eq_iff
  · intro bare midnight bare_trims midnight_trims
    have bare_told := told_writeDate fits bare_trims
    have midnight_told := told_writeDateTime fits midnight_trims
    exact ⟨fun _ => bare_told.eq_iff, bare_told.toOption_eq midnight_told⟩

theorem ofText_decides_instant_lastDay :
    Told ⟨1969, 12, 31⟩ 86399 (-60) "\u3000 1969-12-31T23:59:59-00:01\n" (.ok 59) ∧
      Told ⟨1969, 12, 31⟩ 0 0 "1969-12-31" (.error (.invalidDate "1969-12-31")) ∧
      (ofText " 1900-02-29").toOption = (ofText "1900-02-29T00:00:00Z").toOption := by
  have trims : ∀ {text body : List Char}, Text.trim text = body → Text.Trims text body :=
    Text.trim_eq_iff.mp
  have last_day : Fits ⟨1969, 12, 31⟩ := ⟨by decide, by decide, by decide⟩
  have leap_day : Fits ⟨1900, 2, 29⟩ := ⟨by decide, by decide, by decide⟩
  obtain ⟨date_time, -⟩ := ofText_decides_instant last_day
  obtain ⟨-, bare⟩ := ofText_decides_instant last_day
  obtain ⟨-, leap_bare⟩ := ofText_decides_instant leap_day
  refine ⟨?_, ?_, ?_⟩
  · exact (date_time _ ⟨23, 59, 59⟩ (.behind 0 1) (trims (by decide +kernel)) _).mp rfl
  · exact ((bare _ "1969-12-31T00:00:00Z" (trims (by decide +kernel)) (trims (by decide +kernel))).1
      _).mp rfl
  · exact (leap_bare _ _ (trims (by decide +kernel)) (trims (by decide +kernel))).2

end TokenPlan.Instant
