import Mathlib.Data.Rat.Floor
import TokenPlan.Proofs.Unit.Overflow
import TokenPlan.Proofs.Unit.Quantize

/-!
Quantizing as rounding. The steps of a fraction are the whole number nearest to it at the given
scale, and of two that are as near the higher one. So steps rise with the fraction and with the
scale, and whole steps that are added to a fraction are added to its steps.
-/

set_option autoImplicit false
set_option relaxedAutoImplicit false

namespace TokenPlan

/-- The whole number nearest to a number; of two that are as near, the higher one. -/
structure NearestUp (x : ℚ) (n : ℤ) : Prop where
  near : ∀ k : ℤ, |x - n| ≤ |x - k|
  up : ∀ k : ℤ, |x - k| = |x - n| → k ≤ n

private theorem le_round_of_near {x : ℚ} {k : ℤ} (near : |x - k| ≤ 1 / 2) : k ≤ round x := by
  have below := (abs_le.mp near).1
  rw [round_eq, Int.le_floor]
  linarith

private theorem nearestUp_round (x : ℚ) : NearestUp x (round x) := by
  constructor
  case near => exact round_le x
  case up =>
    intro k same
    apply le_round_of_near
    rw [same]
    exact abs_sub_round x

private theorem nearestUp_iff {x : ℚ} {n : ℤ} : NearestUp x n ↔ n = round x := by
  constructor
  · intro nearest
    have as_near : |x - n| = |x - round x| :=
      le_antisymm (nearest.near (round x)) (round_le x n)
    exact le_antisymm ((nearestUp_round x).up n as_near) (nearest.up (round x) as_near.symm)
  · rintro rfl
    exact nearestUp_round x

namespace Ratio

variable {x y : Ratio} {scale steps : Nat}

private theorem eq_round_iff (x : Ratio) (scale : Nat) (n : ℤ) :
    n = round (x.value * scale) ↔
      (2 * n - 1) * x.den ≤ 2 * x.num * scale ∧ 2 * x.num * scale < (2 * n + 1) * x.den := by
  have positive := den_cast_pos x
  have numerator : (2 * x.num * scale : ℚ) = 2 * (x.value * scale) * x.den := by
    rw [← value_mul_den x]
    ring
  have above : (2 * n - 1) * x.den ≤ 2 * x.num * scale ↔
      (n - 1 / 2 : ℚ) ≤ x.value * scale := by
    rw [← Int.cast_le (R := ℚ)]
    push_cast
    rw [numerator, mul_le_mul_iff_left₀ positive]
    constructor <;> intro bound <;> linarith
  have below : 2 * x.num * scale < (2 * n + 1) * x.den ↔
      x.value * scale < (n + 1 / 2 : ℚ) := by
    rw [← Int.cast_lt (R := ℚ)]
    push_cast
    rw [numerator, mul_lt_mul_iff_left₀ positive]
    constructor <;> intro bound <;> linarith
  rw [above, below, eq_comm, round_eq_iff, Set.mem_Ico]

private theorem round_of_quantize (given : x.quantize scale = .ok steps) :
    round (x.value * scale) = steps := by
  obtain ⟨above, below⟩ := near_of_quantize given
  rw [round_eq_iff, Set.mem_Ico, Int.cast_natCast]
  constructor
  · linarith
  · exact below

private theorem exists_quantize_iff (x : Ratio) (scale : Nat) :
    (∃ steps, x.quantize scale = .ok steps) ↔
      2 * x.num * scale + x.den < 2 ^ 128 ∧ 2 * x.den < 2 ^ 128 := by
  constructor
  · rintro ⟨steps, given⟩
    exact (quantize_eq_ok_iff.mp given).1
  · intro fits
    obtain ⟨above, below⟩ := (biased_div_eq_iff x.den_pos).mp
      (Eq.refl ((2 * x.num * scale + x.den) / (x.den * 2)))
    exact ⟨_, quantize_eq_ok_iff.mpr ⟨fits, above, below⟩⟩

private theorem quantize_eq_error_iff (x : Ratio) (scale : Nat) :
    x.quantize scale = .error .overflow ↔
      2 ^ 128 ≤ 2 * x.num * scale + x.den ∨ 2 ^ 128 ≤ 2 * x.den := by
  have fails : x.quantize scale = .error .overflow ↔ ¬ ∃ steps, x.quantize scale = .ok steps := by
    constructor
    · rintro failed ⟨steps, given⟩
      rw [failed] at given
      cases given
    · intro none
      exact (OnlyOverflows.quantize x scale).eq_overflow fun steps given => none ⟨steps, given⟩
  rw [fails, exists_quantize_iff, not_and_or, Nat.not_lt, Nat.not_lt]

private theorem quantize_add {count more : Nat} (positive : 0 < scale)
    (sum : y.value = x.value + count / scale) (given : x.quantize scale = .ok steps)
    (more_given : y.quantize scale = .ok more) : more = steps + count := by
  have scale_ne : (scale : ℚ) ≠ 0 := Nat.cast_ne_zero.mpr positive.ne'
  have scaled : y.value * scale = x.value * scale + count := by
    rw [sum, add_mul, div_mul_cancel₀ _ scale_ne]
  have rounded := round_of_quantize more_given
  rw [scaled, round_add_natCast, round_of_quantize given] at rounded
  exact_mod_cast rounded.symm

/--
A fraction is quantized exactly where its doubled numbers fit, and else a number is too large. Its
steps are the whole number nearest to it at the scale, a half going up, which its parts single out
among all whole numbers. They rise with the fraction and with the scale, and whole steps added to
the fraction are added to them.
-/
theorem quantize_decides_nearest :
    (∀ (x : Ratio) (scale : Nat),
      ((∃ steps, x.quantize scale = .ok steps) ↔
        2 * x.num * scale + x.den < 2 ^ 128 ∧ 2 * x.den < 2 ^ 128) ∧
      (x.quantize scale = .error .overflow ↔
        2 ^ 128 ≤ 2 * x.num * scale + x.den ∨ 2 ^ 128 ≤ 2 * x.den)) ∧
    (∀ (x : Ratio) (scale steps : Nat), x.quantize scale = .ok steps →
      NearestUp (x.num / x.den * scale) steps ∧
        ∀ n : ℤ, (2 * n - 1) * x.den ≤ 2 * x.num * scale ∧
          2 * x.num * scale < (2 * n + 1) * x.den ↔ n = steps) ∧
    (∀ (x y : Ratio) (scale finer steps more : Nat), x.value ≤ y.value → scale ≤ finer →
      x.quantize scale = .ok steps → y.quantize finer = .ok more → steps ≤ more) ∧
    ∀ (x y : Ratio) (scale count steps more : Nat), 0 < scale →
      y.value = x.value + count / scale → x.quantize scale = .ok steps →
        y.quantize scale = .ok more → more = steps + count := by
  refine ⟨fun x scale => ⟨exists_quantize_iff x scale, quantize_eq_error_iff x scale⟩, ?_, ?_, ?_⟩
  · intro x scale steps given
    have rounded := round_of_quantize given
    constructor
    · exact nearestUp_iff.mpr rounded.symm
    · intro n
      rw [← eq_round_iff, rounded]
  · intro x y scale finer steps more value_le scale_le given more_given
    have finer_le : (scale : ℚ) ≤ finer := Nat.cast_le.mpr scale_le
    have scaled : x.value * scale ≤ y.value * finer :=
      mul_le_mul value_le finer_le (Nat.cast_nonneg scale) (value_nonneg y)
    exact quantize_le scaled given more_given
  · intro x y scale count steps more positive sum given more_given
    exact quantize_add positive sum given more_given

theorem quantize_decides_nearest_half : ∃ half more : Ratio,
    half.value = 1 / 2 ∧ more.value = half.value + (3 : Nat) / (1 : Nat) ∧
      half.quantize 1 = .ok 1 ∧ NearestUp (half.num / half.den * (1 : Nat)) (1 : Nat) ∧
      (∃ steps, more.quantize 2 = .ok steps ∧ 1 ≤ steps) ∧
      ∃ steps, more.quantize 1 = .ok steps ∧ steps = 1 + 3 := by
  let half : Ratio := ⟨1, 2, by decide, by decide, by decide, by decide⟩
  let more : Ratio := ⟨7, 2, by decide, by decide, by decide, by decide⟩
  have half_value : half.value = 1 / 2 := by
    norm_num [value, half]
  have more_value : more.value = half.value + (3 : Nat) / (1 : Nat) := by
    norm_num [value, half, more]
  have half_le : half.value ≤ more.value := by
    rw [more_value, half_value]
    norm_num
  have half_given : half.quantize 1 = .ok 1 := by decide
  have more_given : more.quantize 1 = .ok 4 := by decide
  have finer_given : more.quantize 2 = .ok 7 := by decide
  obtain ⟨-, nearest, rising, adding⟩ := quantize_decides_nearest
  exact ⟨half, more, half_value, more_value, half_given, (nearest _ _ _ half_given).1,
    ⟨7, finer_given, rising _ _ _ _ _ _ half_le (by decide) half_given finer_given⟩,
    ⟨4, more_given, adding _ _ _ _ _ _ (by decide) more_value half_given more_given⟩⟩

end Ratio

end TokenPlan
