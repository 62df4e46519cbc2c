import TokenPlan.Text.Blank
import TokenPlan.Text.Split
import TokenPlan.Unit.Calendar
import TokenPlan.Unit.Error
import TokenPlan.Unit.Word

/-!
Instants of time in whole seconds since the beginning of 1970, read from RFC 3339 texts such as
`2024-05-31T15:43:34Z` or from bare dates, which mean midnight, and written as RFC 3339.
-/

set_option autoImplicit false
set_option relaxedAutoImplicit false

namespace TokenPlan.Instant

open Calendar (Date)

/-- The last year that a date may have. -/
def lastYear : Nat := 262142

def lastSecond : Nat := 8210266876799

/-- The seconds from 1970 to a time of a day; earlier days count below zero. -/
def seconds (date : Date) (secondOfDay : Nat) : Int :=
  86400 * ((date.dayNumber : Int) - Calendar.epochDay) + secondOfDay

/-- Reads the mark between the date and the time: the letter in either case, or one space. -/
def readDivider : List Char → Option (List Char)
  | 'T' :: rest => some rest
  | 't' :: rest => some rest
  | ' ' :: rest => some rest
  | _ => none

/-- Drops a fraction of a second, which needs at least one digit after its point. -/
def dropFraction : List Char → Option (List Char)
  | '.' :: rest => (Text.readRun rest).map Prod.snd
  | rest => some rest

/-- Reads hours and minutes with a colon between, each of two digits. -/
def readHoursMinutes (text : List Char) : Option ((Nat × Nat) × List Char) := do
  let (hours, text) ← Text.readFixed 2 text
  let text ← Text.expect ':' text
  let (minutes, text) ← Text.readFixed 2 text
  if hours ≤ 23 ∧ minutes ≤ 59 then some ((hours, minutes), text) else none

/-- Reads the offset from universal time in seconds, either a letter or signed hours and minutes. -/
def readOffset : List Char → Option (Int × List Char)
  | 'Z' :: rest => some (0, rest)
  | 'z' :: rest => some (0, rest)
  | sign :: rest => do
    let direction : Int ←
      if sign = '+' then some 1 else if sign = '-' ∨ sign = '\u2212' then some (-1) else none
    let ((hours, minutes), rest) ← readHoursMinutes rest
    some (direction * (3600 * hours + 60 * minutes : Nat), rest)
  | [] => none

def readDate (text : List Char) : Option (Date × List Char) := do
  let (year, text) ← Text.readFixed 4 text
  let text ← Text.expect '-' text
  let (month, text) ← Text.readFixed 2 text
  let text ← Text.expect '-' text
  let (day, text) ← Text.readFixed 2 text
  let date : Date := ⟨year, month, day⟩
  if date.Exists then some (date, text) else none

/-- Reads the second of the day; a leap second counts as the second before it. -/
def readTime (text : List Char) : Option (Nat × List Char) := do
  let ((hours, minutes), text) ← readHoursMinutes text
  let text ← Text.expect ':' text
  let (second, text) ← Text.readFixed 2 text
  if second ≤ 60 then some (3600 * hours + 60 * minutes + min second 59, text) else none

def readDateTime (text : List Char) : Option Int := do
  let (date, text) ← readDate text
  let text ← readDivider text
  let (secondOfDay, text) ← readTime text
  let text ← dropFraction text
  let (offset, text) ← readOffset text
  if text = [] then some (seconds date secondOfDay - offset) else none

/--
Reads the year of a bare date: up to four digits, or any number of them after a plus sign. A year
with a minus sign lies before every instant that can be told, so it is refused.
-/
def readYear : List Char → Option (Nat × List Char)
  | '+' :: rest => Text.readRun rest
  | rest => Text.readUpTo 4 rest

/-- Reads a whole text as a bare date; white space may stand before each of its numbers. -/
def readBareDate (text : List Char) : Option Int := do
  let (year, text) ← readYear (Text.trimLeft text)
  let text ← Text.expect '-' text
  let (month, text) ← Text.readUpTo 2 (Text.trimLeft text)
  let text ← Text.expect '-' text
  let (day, text) ← Text.readUpTo 2 (Text.trimLeft text)
  let date : Date := ⟨year, month, day⟩
  if year ≤ lastYear ∧ date.Exists ∧ text = [] then some (seconds date 0) else none

/-- The instant that a text names; instants before 1970 are refused. -/
def ofText (text : String) : Except UnitError UInt64 :=
  let body := Text.trim text.toList
  require (.invalidDate text) <|
    match readDateTime body <|> readBareDate body with
    | some (.ofNat second) => Word.ofNat? second
    | _ => none

/-- A year has at least four digits, and a plus sign where it has more. -/
def writeYear (year : Nat) : List Char :=
  if year ≤ 9999 then Text.paddedDigits 4 year else '+' :: Text.digits year

/-- The date and time of an instant in universal time. -/
def write (second : Nat) : List Char :=
  let date := Date.ofDayNumber (second / 86400 + Calendar.epochDay)
  let rest := second % 86400
  writeYear date.year ++ '-' :: (Text.paddedDigits 2 date.month ++ '-' ::
    (Text.paddedDigits 2 date.day ++ 'T' :: (Text.paddedDigits 2 (rest / 3600) ++ ':' ::
      (Text.paddedDigits 2 (rest / 60 % 60) ++ ':' :: (Text.paddedDigits 2 (rest % 60) ++ ['Z'])))))

/-- The text of an instant; instants after the last year have none. -/
def render? (instant : UInt64) : Option String :=
  if instant.toNat ≤ lastSecond then some (String.ofList (write instant.toNat)) else none

end TokenPlan.Instant
