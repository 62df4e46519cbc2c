import Mathlib.Algebra.Order.Field.Rat
import Mathlib.Tactic.FieldSimp
import Mathlib.Tactic.Linarith
import Mathlib.Tactic.Ring
import TokenPlan.Unit.Ratio

/-!
What quantizing makes of a fraction. A fraction stands for a rational number, and its steps are the
whole number nearest to that number times the scale, a half going up. So they rise with the
fraction, whatever the denominators are.
-/

set_option autoImplicit false
set_option relaxedAutoImplicit false

namespace TokenPlan.Ratio

variable {x y : Ratio} {scale steps : Nat}

/-- The rational number that a fraction stands for. -/
def value (x : Ratio) : ℚ := x.num / x.den

theorem den_cast_pos (x : Ratio) : (0 : ℚ) < x.den := Nat.cast_pos.mpr x.den_pos

theorem value_nonneg (x : Ratio) : 0 ≤ x.value :=
  div_nonneg (Nat.cast_nonneg x.num) (Nat.cast_nonneg x.den)

theorem value_mul_den (x : Ratio) : x.value * x.den = x.num :=
  div_mul_cancel₀ _ (den_cast_pos x).ne'

/-- Half a denominator added before the division makes a half go up. -/
theorem biased_div_eq_iff {doubled den : Nat} (den_pos : 0 < den) :
    (doubled + den) / (den * 2) = steps ↔
      2 * steps * den ≤ doubled + den ∧ doubled < (2 * steps + 1) * den := by
  have low : steps * (den * 2) = 2 * steps * den := by ring
  have high : (2 * steps + 1) * den = 2 * steps * den + den := by ring
  rw [Nat.div_eq_iff (by omega), low, high]
  omega

/-- A fraction is quantized where the doubled numbers fit, to the steps nearest to it. -/
theorem quantize_eq_ok_iff :
    x.quantize scale = .ok steps ↔
      (2 * x.num * scale + x.den < 2 ^ 128 ∧ 2 * x.den < 2 ^ 128) ∧
        2 * steps * x.den ≤ 2 * x.num * scale + x.den ∧
          2 * x.num * scale < (2 * steps + 1) * x.den := by
  have doubled : x.num * scale * 2 = 2 * x.num * scale := by ring
  rw [← biased_div_eq_iff x.den_pos]
  simp only [quantize, bind_eq_ok_iff, require_eq_ok_iff, part?_eq_some_iff, pure, Except.pure,
    Except.ok.injEq]
  constructor
  · rintro ⟨scaled, ⟨rfl, -⟩, double, ⟨rfl, -⟩, divisor, ⟨rfl, narrow⟩, biased, ⟨rfl, fits⟩, done⟩
    rw [doubled] at fits done
    exact ⟨⟨fits, by omega⟩, done⟩
  · rintro ⟨⟨fits, narrow⟩, done⟩
    rw [← doubled] at fits done
    exact ⟨_, ⟨rfl, by omega⟩, _, ⟨rfl, by omega⟩, _, ⟨rfl, by omega⟩, _, ⟨rfl, fits⟩, done⟩

theorem near_of_quantize (given : x.quantize scale = .ok steps) :
    (steps : ℚ) ≤ x.value * scale + 1 / 2 ∧ x.value * scale < steps + 1 / 2 := by
  obtain ⟨-, above, below⟩ := quantize_eq_ok_iff.mp given
  have positive := den_cast_pos x
  have numerator := value_mul_den x
  have above' : (2 * steps * x.den : ℚ) ≤ 2 * x.num * scale + x.den := by exact_mod_cast above
  have below' : (2 * x.num * scale : ℚ) < (2 * steps + 1) * x.den := by exact_mod_cast below
  rw [← numerator] at above' below'
  constructor
  · apply le_of_mul_le_mul_right _ positive
    linarith
  · apply lt_of_mul_lt_mul_right _ positive.le
    linarith

/-- What is no less at its scale has no fewer steps, whatever the denominators are. -/
theorem quantize_le {finer more : Nat} (le : x.value * scale ≤ y.value * finer)
    (fewer_given : x.quantize scale = .ok steps) (more_given : y.quantize finer = .ok more) :
    steps ≤ more := by
  obtain ⟨above, -⟩ := near_of_quantize fewer_given
  obtain ⟨-, below⟩ := near_of_quantize more_given
  have close : (steps : ℚ) < (more + 1 : Nat) := by
    push_cast
    linarith
  exact Nat.lt_succ_iff.mp (Nat.cast_lt.mp close)

theorem quantize_mono {more : Nat} (le : x.value ≤ y.value)
    (fewer_given : x.quantize scale = .ok steps) (more_given : y.quantize scale = .ok more) :
    steps ≤ more :=
  quantize_le (mul_le_mul_of_nonneg_right le (Nat.cast_nonneg scale)) fewer_given more_given

theorem quantize_lt {more : Nat} (apart : x.value * scale + 1 ≤ y.value * scale)
    (fewer_given : x.quantize scale = .ok steps) (more_given : y.quantize scale = .ok more) :
    steps < more := by
  obtain ⟨above, -⟩ := near_of_quantize fewer_given
  obtain ⟨-, below⟩ := near_of_quantize more_given
  have less : (steps : ℚ) < more := by
    linarith
  exact Nat.cast_lt.mp less

theorem eq_of_quantize {whole : Nat} (value : x.value * scale = whole)
    (given : x.quantize scale = .ok steps) : steps = whole := by
  obtain ⟨above, below⟩ := near_of_quantize given
  rw [value] at above below
  have few : (steps : ℚ) < (whole + 1 : Nat) := by
    push_cast
    linarith
  have many : (whole : ℚ) < (steps + 1 : Nat) := by
    push_cast
    linarith
  exact Nat.le_antisymm (Nat.lt_succ_iff.mp (Nat.cast_lt.mp few))
    (Nat.lt_succ_iff.mp (Nat.cast_lt.mp many))

end TokenPlan.Ratio
