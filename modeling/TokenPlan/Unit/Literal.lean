import TokenPlan.Text.Blank
import TokenPlan.Text.Split
import TokenPlan.Unit.Ratio

/-!
Fractions as authors write them: a plain decimal literal such as `0.5` or `.000034`, or a quotient
of two. Signs, exponents and separators are refused. Writing chooses the decimal literal wherever
one spells the fraction exactly and fits, and the quotient of the two parts otherwise.
-/

set_option autoImplicit false
set_option relaxedAutoImplicit false

namespace TokenPlan.Ratio

/-- The most digits that a decimal literal may have after its point. -/
def maxFractionDigits : Nat := 30

/-- Reads a decimal literal, with white space allowed around it. -/
def readDecimal (text : List Char) : Except UnitError Ratio :=
  let body := Text.trim text
  let (whole, fraction) := (Text.cut '.' body).getD (body, [])
  if (whole = [] ∧ fraction = []) ∨ whole.all Char.isDigit = false ∨
      fraction.all Char.isDigit = false ∨ maxFractionDigits < fraction.length then
    .error (.invalidDecimal (String.ofList text))
  else
    require .overflow (ofParts? (Text.spelled (whole ++ fraction)) (10 ^ fraction.length))

/-- Reads a decimal literal, or two of them with a stroke between; the divisor is read first. -/
def readQuotient (text : List Char) : Except UnitError Ratio :=
  match Text.cut '/' text with
  | none => readDecimal text
  | some (dividend, divisor) => do
    let divisor ← readDecimal divisor
    if divisor.num = 0 then throw .divisionByZero
    let dividend ← readDecimal dividend
    require .overflow (dividend.div? divisor)

def ofDecimal (text : String) : Except UnitError Ratio :=
  readDecimal text.toList

/-- Reads a decimal literal or a quotient such as `0.5/1.1`. -/
def ofText (text : String) : Except UnitError Ratio :=
  readQuotient text.toList

/-- The numerator over the denominator `10 ^ places`, if a part of a fraction can hold it. -/
def scaledTo? (x : Ratio) (places : Nat) : Option Nat :=
  part? (x.num * (10 ^ places / x.den))

/-- The fewest decimal places that spell the fraction exactly. -/
def decimalPlaces? (x : Ratio) : Option Nat :=
  (List.range (maxFractionDigits + 1)).find? fun places => 10 ^ places % x.den == 0

/-- The number `scaled / 10 ^ places` in positional notation. -/
def positional (places scaled : Nat) : List Char :=
  if places = 0 then Text.digits scaled
  else
    Text.digits (scaled / 10 ^ places) ++
      '.' :: Text.paddedDigits places (scaled % 10 ^ places)

/-- The text of a fraction, which reads back as the same fraction. -/
def write (x : Ratio) : List Char :=
  let decimal? := do
    let places ← x.decimalPlaces?
    let scaled ← x.scaledTo? places
    some (positional places scaled)
  decimal?.getD (Text.digits x.num ++ '/' :: Text.digits x.den)

def render (x : Ratio) : String :=
  String.ofList x.write

end TokenPlan.Ratio
