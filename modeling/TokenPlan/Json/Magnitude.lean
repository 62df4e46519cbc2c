import TokenPlan.Unit.Natural

/-!
Which decimal numbers a double can hold. A number counts as its leading digits, as many as fit a
word, times a power of ten; either factor is rounded to a double, and the product has to be finite.
-/

set_option autoImplicit false
set_option relaxedAutoImplicit false

namespace TokenPlan.Json

/--
The leading digits of a number that fit a word of 64 bits, and how many digits are dropped behind
them; `dropped` digits are dropped already.
-/
def leadingDigits (dropped n : Nat) : Nat × Nat :=
  if n < 2 ^ 64 then (n, dropped) else leadingDigits (dropped + 1) (n / 10)
termination_by n
decreasing_by omega

/--
A number rounded to the 53 binary digits that a double holds; a number halfway between two goes to
the one whose last digit is even.
-/
def nearestDouble (n : Nat) : Nat :=
  let unit := 2 ^ (n.log2 - 52)
  let quotient := n / unit
  let twice := 2 * (n % unit)
  if unit < twice ∨ (twice = unit ∧ quotient % 2 = 1) then (quotient + 1) * unit
  else quotient * unit

/-- The least number that is too large for a double, halfway to the power of two behind it. -/
def overflowBound : Nat := 2 ^ 1024 - 2 ^ 970

/-- The largest power of ten that a double comes near. -/
def maxScale : Int := 308

/-- The number `digits * 10 ^ exponent` counts as a finite double. -/
def isFinite (digits : Nat) (exponent : Int) : Bool :=
  let (leading, dropped) := leadingDigits 0 digits
  let scale := exponent + dropped
  if leading = 0 ∨ scale < 0 then true
  else if maxScale < scale then false
  else nearestDouble leading * nearestDouble (10 ^ scale.toNat) < overflowBound

end TokenPlan.Json
