import TokenPlan.Proofs.Supply.Rounding
import TokenPlan.Proofs.Unit.Overflow
import TokenPlan.Proofs.Unit.Quantize

/-!
What a percentage of a total comes to. The percentage is rounded to the nearest step, a half going
up, and what these steps make of the total is rounded down. So an amount rises with the total and
with the percentage; a hundred percent are the whole total; and an amount exceeds what the
percentage makes exactly by half a step of the total at most, and misses it by less than that and
a base unit.
-/

set_option autoImplicit false
set_option relaxedAutoImplicit false

namespace TokenPlan.Amount

/-- What a percentage of a total comes to, with the circumstances. -/
inductive Portion (total : Amount) (percent : Ratio) : Except UnitError Amount → Prop
  | floor {steps : Nat} {amount : Amount} (quantized : percent.quantize (10 ^ 8) = .ok steps)
      (fits : total.toNat * steps < 2 ^ 256)
      (quotient : amount.toNat = total.toNat * steps / 10 ^ 10) :
      Portion total percent (.ok amount)
  | unquantized (refused : percent.quantize (10 ^ 8) = .error .overflow) :
      Portion total percent (.error .overflow)
  | wide {steps : Nat} (quantized : percent.quantize (10 ^ 8) = .ok steps)
      (wide : 2 ^ 256 ≤ total.toNat * steps) : Portion total percent (.error .overflow)

variable {total total' amount amount' : Amount} {x y percent : Ratio} {steps : Nat}

private theorem percentOf_of_wide (quantized : percent.quantize percentSteps = .ok steps)
    (wide : 2 ^ 256 ≤ total.toNat * steps) : total.percentOf percent = .error .overflow := by
  rw [percentOf, quantized, ok_bind, ofNat?_eq_none_iff.mpr wide]
  rfl

private theorem percentOf_of_unquantized
    (refused : percent.quantize percentSteps = .error .overflow) :
    total.percentOf percent = .error .overflow := by
  rw [percentOf, refused]
  rfl

private theorem portion_percentOf (total : Amount) (percent : Ratio) :
    Portion total percent (total.percentOf percent) := by
  cases quantized : percent.quantize percentSteps with
  | error e =>
    cases OnlyOverflows.quantize percent percentSteps e quantized
    rw [percentOf_of_unquantized quantized]
    exact .unquantized quantized
  | ok steps =>
    by_cases fits : total.toNat * steps < 2 ^ 256
    · let portion : Amount :=
        ⟨total.toNat * steps / wholeSteps, Nat.lt_of_le_of_lt (Nat.div_le_self _ _) fits⟩
      have given : total.percentOf percent = .ok portion :=
        percentOf_eq_ok_iff.mpr ⟨steps, quantized, fits, rfl⟩
      rw [given]
      exact .floor quantized fits rfl
    · have wide := Nat.le_of_not_lt fits
      rw [percentOf_of_wide quantized wide]
      exact .wide quantized wide

private theorem percentOf_eq_iff {result : Except UnitError Amount} :
    total.percentOf percent = result ↔ Portion total percent result := by
  constructor
  · rintro rfl
    exact portion_percentOf total percent
  · intro portion
    cases portion with
    | floor quantized fits quotient =>
      exact percentOf_eq_ok_iff.mpr ⟨_, quantized, fits, quotient.symm⟩
    | unquantized refused => exact percentOf_of_unquantized refused
    | wide quantized wide => exact percentOf_of_wide quantized wide

/-! ### Order -/

/-- A larger total or percentage is no smaller an amount, whatever the denominators are. -/
theorem percentOf_mono (total_le : total ≤ total') (percent_le : x.value ≤ y.value)
    (less_given : total.percentOf x = .ok amount)
    (more_given : total'.percentOf y = .ok amount') : amount ≤ amount' := by
  obtain ⟨steps, quantized, -, quotient⟩ := percentOf_eq_ok_iff.mp less_given
  obtain ⟨steps', quantized', -, quotient'⟩ := percentOf_eq_ok_iff.mp more_given
  have fewer : steps ≤ steps' := Ratio.quantize_mono percent_le quantized quantized'
  have scaled : total.toNat * steps ≤ total'.toNat * steps' := Nat.mul_le_mul total_le fewer
  change amount.toNat ≤ amount'.toNat
  rw [← quotient, ← quotient']
  exact Nat.div_le_div_right scaled

/-! ### The whole total and no more -/

private theorem percentOf_hundred (whole : x.value = 100) (given : total.percentOf x = .ok amount) :
    amount = total := by
  obtain ⟨steps, quantized, -, quotient⟩ := percentOf_eq_ok_iff.mp given
  have value : x.value * percentSteps = (wholeSteps : Nat) := by
    rw [whole, wholeSteps]
    norm_num
  rw [Ratio.eq_of_quantize value quantized, Nat.mul_div_cancel _ (by decide)] at quotient
  exact ext quotient.symm

private theorem percentOf_le (part : x.value ≤ 100) (given : total.percentOf x = .ok amount) :
    amount ≤ total := by
  obtain ⟨steps, quantized, -, quotient⟩ := percentOf_eq_ok_iff.mp given
  obtain ⟨above, -⟩ := Ratio.near_of_quantize quantized
  have few : (steps : ℚ) < (wholeSteps + 1 : Nat) := by
    unfold wholeSteps percentSteps at *
    push_cast at *
    linarith
  have steps_le : steps ≤ wholeSteps := Nat.lt_succ_iff.mp (Nat.cast_lt.mp few)
  change amount.toNat ≤ total.toNat
  rw [← quotient]
  calc
    total.toNat * steps / wholeSteps ≤ total.toNat * wholeSteps / wholeSteps :=
      Nat.div_le_div_right (Nat.mul_le_mul_left _ steps_le)
    _ = total.toNat := Nat.mul_div_cancel _ (by decide)

/-! ### What is rounded off -/

/-- Half a step of a total, in base units. -/
def halfStep (total : Amount) : ℚ := total.toNat / (2 * 10 ^ 10)

private theorem near_percentOf (given : total.percentOf x = .ok amount) :
    (amount.toNat : ℚ) ≤ total.toNat * x.value / 100 + total.halfStep ∧
      total.toNat * x.value / 100 < amount.toNat + 1 + total.halfStep := by
  obtain ⟨steps, quantized, -, quotient⟩ := percentOf_eq_ok_iff.mp given
  obtain ⟨low, high⟩ := quotient_bounds quotient
  obtain ⟨above, below⟩ := Ratio.near_of_quantize quantized
  have total_nonneg : (0 : ℚ) ≤ total.toNat := Nat.cast_nonneg _
  have low' : (amount.toNat * wholeSteps : ℚ) ≤ total.toNat * steps := by exact_mod_cast low
  have high' : (total.toNat * steps : ℚ) < amount.toNat * wholeSteps + wholeSteps := by
    exact_mod_cast high
  have scaled_above := mul_le_mul_of_nonneg_left above total_nonneg
  have scaled_below := mul_le_mul_of_nonneg_left below.le total_nonneg
  unfold wholeSteps percentSteps at *
  push_cast at *
  unfold halfStep
  constructor
  · linarith
  · linarith

/--
A percentage of a total is its nearest steps of the total, rounded down, or is refused because the
steps or their product with the total are too large. Amounts are in the order of totals and of
percentages, a hundred percent are the total, and rounding moves an amount by no more than half a
step of the total up, and that and a base unit down.
-/
theorem percentOf_decides_portion :
    (∀ total percent result, total.percentOf percent = result ↔ Portion total percent result) ∧
      (∀ (total total' : Amount) (x y : Ratio) (amount amount' : Amount), total ≤ total' →
        x.value ≤ y.value → total.percentOf x = .ok amount → total'.percentOf y = .ok amount' →
          amount ≤ amount') ∧
      ∀ (total : Amount) (x : Ratio) (amount : Amount), total.percentOf x = .ok amount →
        (x.value ≤ 100 → amount ≤ total) ∧ (x.value = 100 → amount = total) ∧
          (amount.toNat : ℚ) ≤ total.toNat * x.value / 100 + total.halfStep ∧
            total.toNat * x.value / 100 < amount.toNat + 1 + total.halfStep := by
  refine ⟨fun _ _ _ => percentOf_eq_iff, ?_, ?_⟩
  · intro total total' x y amount amount' total_le percent_le less_given more_given
    exact percentOf_mono total_le percent_le less_given more_given
  · intro total x amount given
    exact ⟨fun part => percentOf_le part given, fun whole => percentOf_hundred whole given,
      near_percentOf given⟩

theorem percentOf_decides_portion_third : ∃ third fifths hundred : Ratio,
    third.value = 1 / 3 ∧ fifths.value = 2 / 5 ∧ hundred.value = 100 ∧
      Portion (ofWord 1000) third (.ok (ofWord 3)) ∧
      Portion (ofWord 2000) fifths (.ok (ofWord 8)) ∧
      ofWord 3 ≤ ofWord 8 ∧ ofWord 8 ≤ ofWord 2000 ∧
      (∃ amount, (ofWord 2000).percentOf hundred = .ok amount ∧ amount = ofWord 2000) ∧
      (1000 : ℚ) * (1 / 3) / 100 < 3 + 1 + 1000 / (2 * 10 ^ 10) := by
  let third : Ratio := ⟨1, 3, by decide, by decide, by decide, by decide⟩
  let fifths : Ratio := ⟨2, 5, by decide, by decide, by decide, by decide⟩
  let hundred : Ratio := ⟨100, 1, by decide, by decide, by decide, by decide⟩
  have third_value : third.value = 1 / 3 := by
    norm_num [Ratio.value, third]
  have fifths_value : fifths.value = 2 / 5 := by
    norm_num [Ratio.value, fifths]
  have hundred_value : hundred.value = 100 := by
    norm_num [Ratio.value, hundred]
  have third_given : (ofWord 1000).percentOf third = .ok (ofWord 3) := by decide +kernel
  have fifths_given : (ofWord 2000).percentOf fifths = .ok (ofWord 8) := by decide +kernel
  obtain ⟨amount, hundred_given⟩ := isOk_iff.mp
    (show ((ofWord 2000).percentOf hundred).isOk = true by decide +kernel)
  obtain ⟨outcome, mono, near⟩ := percentOf_decides_portion
  refine ⟨third, fifths, hundred, third_value, fifths_value, hundred_value,
    (outcome _ _ _).mp third_given, (outcome _ _ _).mp fifths_given, ?_, ?_,
    ⟨amount, hundred_given, (near _ _ _ hundred_given).2.1 hundred_value⟩, ?_⟩
  · refine mono _ _ _ _ _ _ (by decide) ?_ third_given fifths_given
    rw [third_value, fifths_value]
    norm_num
  · refine (near _ _ _ fifths_given).1 ?_
    rw [fifths_value]
    norm_num
  · have below := (near _ _ _ third_given).2.2.2
    rwa [third_value] at below

end TokenPlan.Amount
