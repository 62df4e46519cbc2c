import TokenPlan.Unit.Error
import TokenPlan.Unit.Natural

/-!
Exact non-negative fractions in lowest terms whose two parts have 128 bits each.
-/

set_option autoImplicit false
set_option relaxedAutoImplicit false

namespace TokenPlan

/-- A fraction in lowest terms; both parts stay below `2 ^ 128`. -/
structure Ratio where
  num : Nat
  den : Nat
  den_pos : 0 < den
  reduced : num.gcd den = 1
  num_lt : num < 2 ^ 128
  den_lt : den < 2 ^ 128
deriving DecidableEq

namespace Ratio

theorem ext {x y : Ratio} (num_eq : x.num = y.num) (den_eq : x.den = y.den) : x = y := by
  cases x
  cases y
  cases num_eq
  cases den_eq
  rfl

def part? (n : Nat) : Option Nat :=
  if n < 2 ^ 128 then some n else none

def reduce (n d : Nat) (d_pos : 0 < d) (n_lt : n < 2 ^ 128) (d_lt : d < 2 ^ 128) : Ratio :=
  have divisor_pos : 0 < n.gcd d := Nat.gcd_pos_of_pos_right n d_pos
  { num := n / n.gcd d
    den := d / n.gcd d
    den_pos := Nat.div_pos (Nat.le_of_dvd d_pos (Nat.gcd_dvd_right n d)) divisor_pos
    reduced := (Nat.coprime_div_gcd_div_gcd divisor_pos).gcd_eq_one
    num_lt := Nat.lt_of_le_of_lt (Nat.div_le_self _ _) n_lt
    den_lt := Nat.lt_of_le_of_lt (Nat.div_le_self _ _) d_lt }

/-- The fraction `n / d` in lowest terms, if `d` is not zero and a part can hold either number. -/
def ofParts? (n d : Nat) : Option Ratio :=
  if fits : 0 < d ∧ n < 2 ^ 128 ∧ d < 2 ^ 128 then
    some (reduce n d fits.1 fits.2.1 fits.2.2)
  else none

def millionths (n : UInt32) : Ratio :=
  reduce n.toNat 1000000 (by decide) (Nat.lt_trans n.toNat_lt (by decide)) (by decide)

/--
The quotient of two fractions. Common factors are taken out across the two fractions before their
parts are multiplied, so a product is too large only where the reduced quotient is.
-/
def div? (x y : Ratio) : Option Ratio :=
  if y.num = 0 then none
  else if x.den = y.den then ofParts? x.num y.num
  else if x.num = y.num then ofParts? y.den x.den
  else do
    let acrossNum := x.num.gcd y.num
    let acrossDen := x.den.gcd y.den
    let num ← part? (x.num / acrossNum * (y.den / acrossDen))
    let den ← part? (x.den / acrossDen * (y.num / acrossNum))
    ofParts? num den

/--
The nearest integer to `scale` times the fraction, a half going up. Each step has to fit a part of
a fraction: the product, its double, the doubled denominator and the biased numerator.
-/
def quantize (x : Ratio) (scale : Nat) : Except UnitError Nat := do
  let scaled ← require .overflow (part? (x.num * scale))
  let doubled ← require .overflow (part? (scaled * 2))
  let divisor ← require .overflow (part? (x.den * 2))
  let biased ← require .overflow (part? (doubled + x.den))
  return biased / divisor

theorem part?_eq_some_iff {n m : Nat} : part? n = some m ↔ n = m ∧ n < 2 ^ 128 := by
  by_cases fits : n < 2 ^ 128
  · simp only [part?, fits, if_true, Option.some.injEq, and_true]
  · simp only [part?, fits, if_false, and_false, reduceCtorEq]

theorem part?_eq_none_iff {n : Nat} : part? n = none ↔ 2 ^ 128 ≤ n := by
  unfold part?
  split <;> simp <;> omega

theorem ofParts?_self (x : Ratio) : ofParts? x.num x.den = some x := by
  have fits : 0 < x.den ∧ x.num < 2 ^ 128 ∧ x.den < 2 ^ 128 := ⟨x.den_pos, x.num_lt, x.den_lt⟩
  rw [ofParts?, dif_pos fits]
  congr 1
  apply ext <;> simp only [reduce, x.reduced, Nat.div_one]

end Ratio

end TokenPlan
