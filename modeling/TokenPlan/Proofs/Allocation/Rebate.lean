import Mathlib.Algebra.Order.Field.Basic
import TokenPlan.Proofs.Allocation.Tier
import TokenPlan.Proofs.Supply.Percentage
import TokenPlan.Proofs.Unit.Quotient

/-!
How a tier divides its target between the tokens sold and the reserve for rebates. Percentages of a
supply rise with the percentage, so that the tokens sold never exceed the target and a higher rate
moves tokens into the reserve. The reserve pays the rate on what is sold but for what rounding
takes: half a step of the supply for the target, half a step for the tokens sold, which the rate
enlarges as it does the base unit that is rounded off.
-/

set_option autoImplicit false
set_option relaxedAutoImplicit false

namespace TokenPlan

private theorem netOfAffiliate_anti {target net net' : Ratio} {lower higher : UInt64}
    (le : lower ≤ higher)
    (lower_given : netOfAffiliate target lower = .ok net)
    (higher_given : netOfAffiliate target higher = .ok net') : net'.value ≤ net.value := by
  rw [value_of_netOfAffiliate lower_given, value_of_netOfAffiliate higher_given]
  have lower_pos : 0 < 1 + rateOf lower := by
    have := rateOf_nonneg lower
    linarith
  have rates : 1 + rateOf lower ≤ 1 + rateOf higher := by
    have := rateOf_mono le
    linarith
  exact div_le_div_of_nonneg_left target.value_nonneg lower_pos rates

private theorem netOfAffiliate_le {target net : Ratio} {rate : UInt64}
    (given : netOfAffiliate target rate = .ok net) : net.value ≤ target.value := by
  rw [value_of_netOfAffiliate given]
  have rate_nonneg := rateOf_nonneg rate
  exact div_le_self target.value_nonneg (by linarith)

private theorem value_of_netOfAffiliate_zero {target net : Ratio}
    (given : netOfAffiliate target 0 = .ok net) : net.value = target.value := by
  have none_paid : rateOf 0 = 0 := by
    simp [rateOf]
  rw [value_of_netOfAffiliate given, none_paid, add_zero, div_one]

/-! ### No difference below zero -/

/-- If the derivation of a row fails, then not because a difference is below zero. -/
def NeverUnderflows {α : Type} (result : Except TableError α) : Prop :=
  ∀ id, result ≠ .error (.unit id .underflow)

namespace NeverUnderflows

private theorem bind {α β : Type} {first : Except TableError α} {next : α → Except TableError β}
    (first_never : NeverUnderflows first)
    (next_never : ∀ value, first = .ok value → NeverUnderflows (next value)) :
    NeverUnderflows (first >>= next) := by
  intro id failed
  rcases bind_eq_error_iff.mp failed with failed | ⟨value, given, failed⟩
  · exact first_never id failed
  · exact next_never value given id failed

private theorem inRow {α : Type} {id : String} {result : Except UnitError α}
    (only : OnlyOverflows result) : NeverUnderflows (inRow id result) := by
  intro other failed
  cases result with
  | ok value => cases failed
  | error e =>
    cases only e rfl
    cases failed

private theorem ite {α : Type} {p : Prop} [Decidable p] {yes no : Except TableError α}
    (yes_never : NeverUnderflows yes) (no_never : NeverUnderflows no) :
    NeverUnderflows (if p then yes else no) := by
  split
  · exact yes_never
  · exact no_never

private theorem ok {α : Type} (value : α) : NeverUnderflows (.ok value) := nofun

private theorem mismatch {α : Type} (id : String) (cause : Mismatch) :
    NeverUnderflows (.error (.mismatch id cause) : Except TableError α) := nofun

end NeverUnderflows

namespace SaleRow

variable {row : SaleRow} {d : Denomination}

private theorem tokens_le_target {net : Ratio} {tokens target : Amount}
    (target_given : d.percentOfSupply row.target = .ok target)
    (net_given : netOfAffiliate row.target row.affiliateRate = .ok net)
    (tokens_given : d.percentOfSupply net = .ok tokens) : tokens ≤ target :=
  Amount.percentOf_mono (Nat.le_refl _) (netOfAffiliate_le net_given) tokens_given target_given

private theorem derive_neverUnderflows (row : SaleRow) (d : Denomination) :
    NeverUnderflows (row.derive d) := by
  have price : NeverUnderflows (row.derivePrice d) :=
    (NeverUnderflows.inRow (OnlyOverflows.ofDollars _ _)).bind fun _ _ =>
      NeverUnderflows.ite (NeverUnderflows.mismatch _ _) (NeverUnderflows.ok _)
  have minimum : ∀ target, NeverUnderflows (row.deriveMinimum d target) := fun target =>
    (NeverUnderflows.inRow (OnlyOverflows.wholeTokens d _)).bind fun _ _ =>
      NeverUnderflows.ite (NeverUnderflows.mismatch _ _) (NeverUnderflows.ok _)
  have rate : NeverUnderflows row.checkRate :=
    NeverUnderflows.ite (NeverUnderflows.mismatch _ _) (NeverUnderflows.ok _)
  have schedule : NeverUnderflows (row.vesting.check row.id) :=
    NeverUnderflows.ite (NeverUnderflows.mismatch _ _) (NeverUnderflows.ok _)
  refine rate.bind fun _ _ => schedule.bind fun _ _ => price.bind fun _ _ => ?_
  refine (NeverUnderflows.inRow (OnlyOverflows.percentOf _ _)).bind fun target target_given => ?_
  refine (NeverUnderflows.inRow (OnlyOverflows.netOfAffiliate _ _)).bind fun net net_given => ?_
  refine (NeverUnderflows.inRow (OnlyOverflows.percentOf _ _)).bind fun tokens tokens_given => ?_
  rw [inRow, mapError_eq_ok_iff] at target_given net_given tokens_given
  -- The one difference of the derivation is that of two amounts of which the first is no smaller.
  have sub_some : target.sub? tokens = some ⟨target.toNat - tokens.toNat, _⟩ :=
    if_pos (tokens_le_target target_given net_given tokens_given)
  rw [sub_some]
  exact (minimum target).bind fun _ _ => NeverUnderflows.ok _

/-! ### What a rate moves -/

/-- The row with another affiliate rate. -/
def withRate (row : SaleRow) (rate : UInt64) : SaleRow :=
  { row with affiliateRate := rate }

private theorem ComesTo.obligation {tokens : Amount} {tier : SaleTier}
    (comes : row.ComesTo d tokens tier)
    (id : String) : (Allocation.sale id tokens tier).obligation = .ok tier.maximum :=
  Allocation.obligation_eq_ok_iff.mpr comes.exhausted

private theorem maximum_eq {lower higher : UInt64} {tokens tokens' : Amount} {tier tier' : SaleTier}
    (comes : (row.withRate lower).ComesTo d tokens tier)
    (comes' : (row.withRate higher).ComesTo d tokens' tier') : tier.maximum = tier'.maximum :=
  Except.ok.inj (comes.maximum.symm.trans comes'.maximum)

private theorem moved_of_le {lower higher : UInt64} {tokens tokens' : Amount}
    {tier tier' : SaleTier}
    (le : lower ≤ higher) (comes : (row.withRate lower).ComesTo d tokens tier)
    (comes' : (row.withRate higher).ComesTo d tokens' tier') :
    tokens' ≤ tokens ∧ tier.affiliateReserve ≤ tier'.affiliateReserve := by
  obtain ⟨net, net_given, sold⟩ := comes.sold
  obtain ⟨net', net_given', sold'⟩ := comes'.sold
  have fewer : tokens'.toNat ≤ tokens.toNat :=
    Amount.percentOf_mono (Nat.le_refl _) (netOfAffiliate_anti le net_given net_given') sold' sold
  have same := congrArg Amount.toNat (maximum_eq comes comes')
  have exhausted := comes.exhausted
  have exhausted' := comes'.exhausted
  refine ⟨fewer, ?_⟩
  change tier.affiliateReserve.toNat ≤ tier'.affiliateReserve.toNat
  omega

private theorem reserve_of_rate_zero {tokens : Amount} {tier : SaleTier}
    (comes : (row.withRate 0).ComesTo d tokens tier) : tier.affiliateReserve = Amount.zero := by
  obtain ⟨net, net_given, sold⟩ := comes.sold
  have whole : tier.maximum.toNat ≤ tokens.toNat :=
    Amount.percentOf_mono (Nat.le_refl _) (value_of_netOfAffiliate_zero net_given).ge comes.maximum
      sold
  have exhausted := comes.exhausted
  apply Amount.ext
  change tier.affiliateReserve.toNat = 0
  omega

/--
A tier is never refused for a difference below zero. Where it is derived, its tokens are those of
the target over one plus the rate, tokens and reserve are exactly the target, and a rate only moves
tokens between them, from nothing in the reserve at a rate of zero.
-/
theorem derive_dividesTarget (row : SaleRow) (d : Denomination) :
    NeverUnderflows (row.derive d) ∧
      (∀ a, row.derive d = .ok a ↔
        ∃ tokens tier, row.ComesTo d tokens tier ∧ a = Allocation.sale row.id tokens tier) ∧
      (∀ tokens tier, row.ComesTo d tokens tier →
        (∃ net : Ratio, net.value = row.target.value / (1 + rateOf row.affiliateRate) ∧
          d.percentOfSupply net = .ok tokens) ∧
        (Allocation.sale row.id tokens tier).obligation = .ok tier.maximum) ∧
      (∀ lower higher tokens tokens' tier tier', lower ≤ higher →
        (row.withRate lower).derive d = .ok (Allocation.sale row.id tokens tier) →
        (row.withRate higher).derive d = .ok (Allocation.sale row.id tokens' tier') →
          tokens' ≤ tokens ∧ tier.affiliateReserve ≤ tier'.affiliateReserve ∧
            (Allocation.sale row.id tokens tier).obligation =
              (Allocation.sale row.id tokens' tier').obligation) ∧
      ∀ tokens tier, (row.withRate 0).derive d = .ok (Allocation.sale row.id tokens tier) →
        tier.affiliateReserve = Amount.zero := by
  have comes_of_derive : ∀ rate tokens tier,
      (row.withRate rate).derive d = .ok (Allocation.sale row.id tokens tier) →
        (row.withRate rate).ComesTo d tokens tier := by
    intro rate tokens tier derived
    obtain ⟨tokens', tier', comes, same⟩ := derive_eq_ok_iff.mp derived
    cases same
    exact comes
  refine ⟨derive_neverUnderflows row d, fun a => derive_eq_ok_iff, ?_, ?_, ?_⟩
  · intro tokens tier comes
    obtain ⟨net, net_given, sold⟩ := comes.sold
    exact ⟨⟨net, value_of_netOfAffiliate net_given, sold⟩, comes.obligation row.id⟩
  · intro lower higher tokens tokens' tier tier' le derived derived'
    have comes := comes_of_derive lower tokens tier derived
    have comes' := comes_of_derive higher tokens' tier' derived'
    obtain ⟨fewer, more⟩ := moved_of_le le comes comes'
    refine ⟨fewer, more, ?_⟩
    rw [comes.obligation, comes'.obligation, maximum_eq comes comes']
  · intro tokens tier derived
    exact reserve_of_rate_zero (comes_of_derive 0 tokens tier derived)

/-- A tier of one percent of the supply. -/
def onePercent : SaleRow :=
  { id := "seed"
    name := "Seed"
    cooldown := 0
    start := .instant 1717170214
    price := Ratio.millionths 34
    target := Ratio.millionths 1000000
    minimum := 0
    affiliateRate := 100000
    vesting := VestingSchedule.immediate }

/-- What a tier of one percent comes to, where the supply is a thousand. -/
def tenUnits (sold reserved rate : UInt64) : Allocation :=
  Allocation.sale "seed" (Amount.ofWord sold)
    { name := "Seed"
      cooldown := 0
      start := .instant 1717170214
      price := Amount.ofWord 34000000000000
      minimum := Amount.zero
      maximum := Amount.ofWord 10
      affiliateReserve := Amount.ofWord reserved
      affiliateRate := rate
      vesting := VestingSchedule.immediate }

theorem derive_dividesTarget_onePercent :
    (onePercent.withRate 0).derive thousand = .ok (tenUnits 10 0 0) ∧
      (onePercent.withRate 100000).derive thousand = .ok (tenUnits 9 1 100000) ∧
        Amount.ofWord 9 ≤ Amount.ofWord 10 ∧ Amount.ofWord 0 ≤ Amount.ofWord 1 ∧
          Amount.ofWord 0 = Amount.zero := by
  have free : (onePercent.withRate 0).derive thousand = .ok (tenUnits 10 0 0) := by decide +kernel
  have rebated : (onePercent.withRate 100000).derive thousand = .ok (tenUnits 9 1 100000) := by
    decide +kernel
  obtain ⟨-, -, -, moves, nothing⟩ := derive_dividesTarget onePercent thousand
  obtain ⟨fewer, more, -⟩ := moves 0 100000 _ _ _ _ (by decide) free rebated
  exact ⟨free, rebated, fewer, more, nothing _ _ free⟩

/-! ### What the reserve pays -/

private theorem scaled_netOfAffiliate {target net : Ratio} {rate : UInt64}
    (given : netOfAffiliate target rate = .ok net) :
    (partsPerMillion + rate.toNat : ℚ) * net.value = partsPerMillion * target.value := by
  have whole : (partsPerMillion : ℚ) ≠ 0 := by
    norm_num [partsPerMillion]
  have whole_paid : (partsPerMillion + rate.toNat : ℚ) = partsPerMillion * (1 + rateOf rate) := by
    rw [rateOf, mul_add, mul_one, mul_div_cancel₀ _ whole]
  have paid_pos : 0 < 1 + rateOf rate := by
    have := rateOf_nonneg rate
    linarith
  rw [whole_paid, value_of_netOfAffiliate given, mul_assoc, mul_div_cancel₀ _ paid_pos.ne']

private theorem steps_near {target net : Ratio} {rate : UInt64} {steps sold : Nat}
    (net_given : netOfAffiliate target rate = .ok net)
    (quantized : target.quantize percentSteps = .ok steps)
    (quantized' : net.quantize percentSteps = .ok sold) :
    |2 * (partsPerMillion * steps - (partsPerMillion + rate.toNat) * sold : ℤ)| ≤
      2 * partsPerMillion + rate.toNat := by
  obtain ⟨above, below⟩ := Ratio.near_of_quantize quantized
  obtain ⟨above', below'⟩ := Ratio.near_of_quantize quantized'
  have fits := scaled_netOfAffiliate net_given
  have whole_nonneg : (0 : ℚ) ≤ partsPerMillion := Nat.cast_nonneg _
  have paid_nonneg : (0 : ℚ) ≤ partsPerMillion + rate.toNat :=
    add_nonneg (Nat.cast_nonneg _) (Nat.cast_nonneg _)
  have target_above := mul_le_mul_of_nonneg_left above whole_nonneg
  have target_below := mul_le_mul_of_nonneg_left below.le whole_nonneg
  have sold_above := mul_le_mul_of_nonneg_left above' paid_nonneg
  have sold_below := mul_le_mul_of_nonneg_left below'.le paid_nonneg
  have same : (partsPerMillion + rate.toNat : ℚ) * (net.value * percentSteps) =
      partsPerMillion * (target.value * percentSteps) := by
    rw [← mul_assoc, fits, mul_assoc]
  rw [abs_le]
  constructor
  · have low : (-(2 * partsPerMillion + rate.toNat) : ℚ) ≤
        2 * (partsPerMillion * steps - (partsPerMillion + rate.toNat) * sold) := by
      linarith
    exact_mod_cast low
  · have high : (2 * (partsPerMillion * steps - (partsPerMillion + rate.toNat) * sold) : ℚ) ≤
        2 * partsPerMillion + rate.toNat := by
      linarith
    exact_mod_cast high

private theorem scaled_quotient_bounds {total steps quotient : Nat} {factor : ℤ}
    (given : total * steps / wholeSteps = quotient) (factor_nonneg : 0 ≤ factor) :
    factor * (quotient * wholeSteps) ≤ factor * (total * steps) ∧
      factor * (total * steps) ≤ factor * (quotient * wholeSteps + wholeSteps) := by
  obtain ⟨low, high⟩ := quotient_bounds given
  have low' : (quotient * wholeSteps : ℤ) ≤ total * steps := by exact_mod_cast low
  have high' : (total * steps : ℤ) ≤ quotient * wholeSteps + wholeSteps := by
    exact_mod_cast high.le
  exact ⟨mul_le_mul_of_nonneg_left low' factor_nonneg,
    mul_le_mul_of_nonneg_left high' factor_nonneg⟩

/--
The reserve of a tier differs from the rate times the tokens sold by no more than one plus half the
rate steps of the supply and one plus the rate base units.
-/
theorem reserve_near {a : Allocation} (derived : row.derive d = .ok a) :
    ∃ tier, a.kind = .saleTier tier ∧
      2 * wholeSteps * |(partsPerMillion * tier.affiliateReserve.toNat -
          row.affiliateRate.toNat * a.tokens.toNat : ℤ)| ≤
        d.supply.toNat * (2 * partsPerMillion + row.affiliateRate.toNat) +
          2 * wholeSteps * (partsPerMillion + row.affiliateRate.toNat) := by
  obtain ⟨tokens, tier, comes, rfl⟩ := derive_eq_ok_iff.mp derived
  refine ⟨tier, rfl, ?_⟩
  have kept : (Allocation.sale row.id tokens tier).tokens = tokens := rfl
  rw [kept]
  obtain ⟨net, net_given, sold⟩ := comes.sold
  obtain ⟨steps, quantized, -, quotient⟩ := Amount.percentOf_eq_ok_iff.mp comes.maximum
  obtain ⟨steps', quantized', -, quotient'⟩ := Amount.percentOf_eq_ok_iff.mp sold
  have near := abs_le.mp (steps_near net_given quantized quantized')
  have supply_nonneg : (0 : ℤ) ≤ d.supply.toNat := Int.natCast_nonneg _
  have whole_nonneg : (0 : ℤ) ≤ partsPerMillion := Int.natCast_nonneg _
  have paid_nonneg : (0 : ℤ) ≤ partsPerMillion + row.affiliateRate.toNat :=
    add_nonneg (Int.natCast_nonneg _) (Int.natCast_nonneg _)
  have lost_nonneg : (0 : ℤ) ≤ row.affiliateRate.toNat * wholeSteps :=
    mul_nonneg (Int.natCast_nonneg _) (Int.natCast_nonneg _)
  -- The target and what is sold are counted in steps of the supply, which fit each other.
  obtain ⟨target_low, target_high⟩ := scaled_quotient_bounds quotient whole_nonneg
  obtain ⟨sold_low, sold_high⟩ := scaled_quotient_bounds quotient' paid_nonneg
  have near_low := mul_le_mul_of_nonneg_left near.1 supply_nonneg
  have near_high := mul_le_mul_of_nonneg_left near.2 supply_nonneg
  have exhausted : (tier.maximum.toNat : ℤ) = tokens.toNat + tier.affiliateReserve.toNat := by
    exact_mod_cast comes.exhausted.symm
  rw [exhausted] at target_low target_high
  have scaled : ∀ difference : ℤ,
      2 * wholeSteps * |difference| = |2 * wholeSteps * difference| := by
    intro difference
    rw [abs_mul, abs_of_nonneg (show (0 : ℤ) ≤ 2 * wholeSteps by decide)]
  rw [scaled, abs_le]
  constructor
  · linarith
  · linarith

theorem reserve_near_onePercent :
    onePercent.derive thousand = .ok (tenUnits 9 1 100000) ∧
      2 * 10000000000 * |(1000000 * 1 - 100000 * 9 : ℤ)| ≤
        1000 * (2 * 1000000 + 100000) + 2 * 10000000000 * (1000000 + 100000) := by
  have derived : onePercent.derive thousand = .ok (tenUnits 9 1 100000) := by decide +kernel
  refine ⟨derived, ?_⟩
  obtain ⟨tier, same, near⟩ := reserve_near derived
  cases same
  exact near

end SaleRow

end TokenPlan
