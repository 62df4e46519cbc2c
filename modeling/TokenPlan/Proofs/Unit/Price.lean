import TokenPlan.Proofs.Unit.Overflow
import TokenPlan.Proofs.Unit.Quantize

/-!
What a price in dollars comes to in base units. The price is rounded to the nearest millionth of a
dollar, a half going up, and moved by the decimals of the asset: nothing is lost with six decimals
or more, and with fewer the rest is rounded down. So amounts are in the order of prices, and prices
that are a millionth apart have different amounts where nothing is lost.
-/

set_option autoImplicit false
set_option relaxedAutoImplicit false

namespace TokenPlan.Amount

/-- What a price comes to in an asset with so many decimals, with the circumstances. -/
inductive Priced (dollars : Ratio) (decimals : Nat) : Except UnitError Amount → Prop
  | fine {steps : Nat} {amount : Amount} (quantized : dollars.quantize (10 ^ 6) = .ok steps)
      (few : decimals ≤ 77) (fits : steps * 10 ^ decimals < 2 ^ 256) (places : 6 ≤ decimals)
      (exact : amount.toNat = steps * 10 ^ (decimals - 6)) : Priced dollars decimals (.ok amount)
  | coarse {steps : Nat} {amount : Amount} (quantized : dollars.quantize (10 ^ 6) = .ok steps)
      (fits : steps * 10 ^ decimals < 2 ^ 256) (places : decimals < 6)
      (floor : amount.toNat = steps / 10 ^ (6 - decimals)) : Priced dollars decimals (.ok amount)
  | unquantized (refused : dollars.quantize (10 ^ 6) = .error .overflow) :
      Priced dollars decimals (.error .overflow)
  | many (many : 77 < decimals) : Priced dollars decimals (.error .overflow)
  | wide {steps : Nat} (quantized : dollars.quantize (10 ^ 6) = .ok steps)
      (wide : 2 ^ 256 ≤ steps * 10 ^ decimals) : Priced dollars decimals (.error .overflow)

variable {dollars x y : Ratio} {decimals steps : Nat} {amount less more : Amount}

private theorem powerOfTen?_eq_some_iff {one : Amount} :
    powerOfTen? decimals = some one ↔ decimals ≤ 77 ∧ 10 ^ decimals = one.toNat := by
  unfold powerOfTen?
  split
  · rename_i many
    simp only [reduceCtorEq, false_iff, not_and]
    omega
  · rename_i few
    rw [ofNat?_eq_some_iff]
    exact ⟨fun eq => ⟨Nat.le_of_not_lt few, eq⟩, And.right⟩

private theorem exists_powerOfTen? (few : decimals ≤ 77) :
    ∃ one, powerOfTen? decimals = some one ∧ 10 ^ decimals = one.toNat := by
  have power_le : 10 ^ decimals ≤ 10 ^ 77 := Nat.pow_le_pow_right (by decide) few
  have power_lt : 10 ^ decimals < 2 ^ 256 := Nat.lt_of_le_of_lt power_le (by decide)
  exact ⟨⟨10 ^ decimals, power_lt⟩, powerOfTen?_eq_some_iff.mpr ⟨few, rfl⟩, rfl⟩

private theorem ofDollars_eq_ok_iff :
    ofDollars dollars decimals = .ok amount ↔
      ∃ steps, dollars.quantize dollarSteps = .ok steps ∧ decimals ≤ 77 ∧
        steps * 10 ^ decimals < 2 ^ 256 ∧ steps * 10 ^ decimals / dollarSteps = amount.toNat := by
  simp only [ofDollars, bind_eq_ok_iff, require_eq_ok_iff, ofNat?_eq_some_iff,
    powerOfTen?_eq_some_iff]
  constructor
  · rintro ⟨steps, quantized, one, ⟨few, power⟩, scaled, product, done⟩
    cases done
    rw [← power] at product
    refine ⟨steps, quantized, few, product ▸ scaled.isLt, ?_⟩
    rw [product]
    rfl
  · rintro ⟨steps, quantized, few, fits, quotient⟩
    obtain ⟨one, -, power⟩ := exists_powerOfTen? few
    have product : steps * one.toNat = steps * 10 ^ decimals := by
      rw [power]
    refine ⟨steps, quantized, one, ⟨few, power⟩, ⟨steps * 10 ^ decimals, fits⟩, product, ?_⟩
    exact congrArg Except.ok (ext quotient)

/-! ### What a price comes to -/

private theorem scaled_of_le (places : 6 ≤ decimals) (steps : Nat) :
    steps * 10 ^ decimals / dollarSteps = steps * 10 ^ (decimals - 6) := by
  have power : 10 ^ decimals = 10 ^ (decimals - 6) * dollarSteps := by
    rw [← Nat.pow_sub_mul_pow 10 places]
    rfl
  rw [power, ← Nat.mul_assoc, Nat.mul_div_cancel _ (by decide)]

private theorem scaled_of_lt (places : decimals < 6) (steps : Nat) :
    steps * 10 ^ decimals / dollarSteps = steps / 10 ^ (6 - decimals) := by
  have power : dollarSteps = 10 ^ (6 - decimals) * 10 ^ decimals :=
    (Nat.pow_sub_mul_pow 10 places.le).symm
  rw [power, Nat.mul_div_mul_right _ _ (Nat.pow_pos (by decide))]

private theorem ofDollars_of_unquantized
    (refused : dollars.quantize dollarSteps = .error .overflow) :
    ofDollars dollars decimals = .error .overflow := by
  rw [ofDollars, refused]
  rfl

private theorem ofDollars_of_many (many : 77 < decimals) :
    ofDollars dollars decimals = .error .overflow := by
  apply (OnlyOverflows.ofDollars dollars decimals).eq_overflow
  intro amount given
  obtain ⟨steps, -, few, -⟩ := ofDollars_eq_ok_iff.mp given
  omega

private theorem ofDollars_of_wide (quantized : dollars.quantize dollarSteps = .ok steps)
    (wide : 2 ^ 256 ≤ steps * 10 ^ decimals) : ofDollars dollars decimals = .error .overflow := by
  apply (OnlyOverflows.ofDollars dollars decimals).eq_overflow
  intro amount given
  obtain ⟨steps', quantized', -, fits, -⟩ := ofDollars_eq_ok_iff.mp given
  rw [Except.ok.inj (quantized.symm.trans quantized')] at wide
  exact absurd fits (Nat.not_lt_of_le wide)

private theorem priced_ofDollars (dollars : Ratio) (decimals : Nat) :
    Priced dollars decimals (ofDollars dollars decimals) := by
  cases quantized : dollars.quantize dollarSteps with
  | error e =>
    cases OnlyOverflows.quantize dollars dollarSteps e quantized
    rw [ofDollars_of_unquantized quantized]
    exact .unquantized quantized
  | ok steps =>
    by_cases many : 77 < decimals
    · rw [ofDollars_of_many many]
      exact .many many
    by_cases fits : steps * 10 ^ decimals < 2 ^ 256
    · let amount : Amount := ⟨steps * 10 ^ decimals / dollarSteps,
        Nat.lt_of_le_of_lt (Nat.div_le_self _ _) fits⟩
      have few := Nat.le_of_not_lt many
      have given : ofDollars dollars decimals = .ok amount :=
        ofDollars_eq_ok_iff.mpr ⟨steps, quantized, few, fits, rfl⟩
      rw [given]
      by_cases places : 6 ≤ decimals
      · exact .fine quantized few fits places (scaled_of_le places steps)
      · have places := Nat.lt_of_not_le places
        exact .coarse quantized fits places (scaled_of_lt places steps)
    · have wide := Nat.le_of_not_lt fits
      rw [ofDollars_of_wide quantized wide]
      exact .wide quantized wide

theorem ofDollars_eq_iff {result : Except UnitError Amount} :
    ofDollars dollars decimals = result ↔ Priced dollars decimals result := by
  constructor
  · rintro rfl
    exact priced_ofDollars dollars decimals
  · intro priced
    cases priced with
    | fine quantized few fits places exact =>
      exact ofDollars_eq_ok_iff.mpr
        ⟨_, quantized, few, fits, (scaled_of_le places _).trans exact.symm⟩
    | coarse quantized fits places floor =>
      have few : decimals ≤ 77 := by omega
      exact ofDollars_eq_ok_iff.mpr
        ⟨_, quantized, few, fits, (scaled_of_lt places _).trans floor.symm⟩
    | unquantized refused => exact ofDollars_of_unquantized refused
    | many many => exact ofDollars_of_many many
    | wide quantized wide => exact ofDollars_of_wide quantized wide

/-! ### The order of prices -/

/-- A higher price is no smaller an amount, whatever the denominators are. -/
theorem ofDollars_mono (le : x.value ≤ y.value) (less_given : ofDollars x decimals = .ok less)
    (more_given : ofDollars y decimals = .ok more) : less ≤ more := by
  obtain ⟨steps, quantized, -, -, quotient⟩ := ofDollars_eq_ok_iff.mp less_given
  obtain ⟨steps', quantized', -, -, quotient'⟩ := ofDollars_eq_ok_iff.mp more_given
  have fewer : steps ≤ steps' := Ratio.quantize_mono le quantized quantized'
  change less.toNat ≤ more.toNat
  rw [← quotient, ← quotient']
  exact Nat.div_le_div_right (Nat.mul_le_mul_right _ fewer)

/-- Prices a millionth of a dollar apart stay apart where six decimals are left. -/
theorem ofDollars_lt (places : 6 ≤ decimals) (apart : x.value + 1 / 10 ^ 6 ≤ y.value)
    (less_given : ofDollars x decimals = .ok less)
    (more_given : ofDollars y decimals = .ok more) : less < more := by
  obtain ⟨steps, quantized, -, -, quotient⟩ := ofDollars_eq_ok_iff.mp less_given
  obtain ⟨steps', quantized', -, -, quotient'⟩ := ofDollars_eq_ok_iff.mp more_given
  rw [scaled_of_le places] at quotient quotient'
  have step_apart : x.value * dollarSteps + 1 ≤ y.value * dollarSteps := by
    unfold dollarSteps
    push_cast
    linarith
  have fewer : steps < steps' := Ratio.quantize_lt step_apart quantized quantized'
  change less.toNat < more.toNat
  rw [← quotient, ← quotient']
  exact Nat.mul_lt_mul_of_pos_right fewer (Nat.pow_pos (by decide))

end TokenPlan.Amount
