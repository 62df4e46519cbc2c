import TokenPlan.Allocation.Derive

/-!
What a tier comes to. A row is derived exactly where its rate, its schedule, its price and its least
purchase pass their checks and all its amounts can be counted; its target is then exhausted by the
tokens sold and the reserve for rebates.
-/

set_option autoImplicit false
set_option relaxedAutoImplicit false

namespace TokenPlan

/-- What is unlocked at the cliff is held at the largest count only where it is refused. -/
private theorem VestingSchedule.check_eq_ok_iff {v : VestingSchedule} {id : String} :
    v.check id = .ok () ↔ v.launchShare.toNat + v.cliffShare.toNat ≤ partsPerMillion := by
  have unlocked : partsPerMillion < v.unlockedAtCliff.toNat ↔
      partsPerMillion < v.launchShare.toNat + v.cliffShare.toNat := by
    rw [VestingSchedule.unlockedAtCliff, Word.toNat_saturate]
    unfold partsPerMillion
    omega
  unfold VestingSchedule.check
  split
  · rename_i above
    simp only [reduceCtorEq, false_iff]
    omega
  · rename_i within
    simp only [true_iff]
    omega

namespace SaleRow

variable {row : SaleRow} {d : Denomination}

private theorem checkRate_eq_ok_iff :
    row.checkRate = .ok () ↔ row.affiliateRate.toNat < partsPerMillion := by
  unfold checkRate
  split
  · rename_i above
    simp only [reduceCtorEq, false_iff]
    omega
  · rename_i below
    simp only [true_iff]
    omega

private theorem derivePrice_eq_ok_iff {price : Amount} :
    row.derivePrice d = .ok price ↔ d.fiatAmount row.price = .ok price ∧ 0 < price.toNat := by
  have positive : ∀ price : Amount, price ≠ Amount.zero ↔ 0 < price.toNat := by
    intro price
    rw [Nat.pos_iff_ne_zero]
    exact not_congr ⟨congrArg Amount.toNat, fun nothing => Amount.ext nothing⟩
  simp only [derivePrice, bind_eq_ok_iff, inRow, mapError_eq_ok_iff]
  constructor
  · rintro ⟨given, converted, checked⟩
    split at checked
    · cases checked
    · rename_i nonzero
      cases checked
      exact ⟨converted, (positive price).mp nonzero⟩
  · rintro ⟨converted, nonzero⟩
    exact ⟨price, converted, if_neg ((positive price).mpr nonzero)⟩

private theorem deriveMinimum_eq_ok_iff {target minimum : Amount} :
    row.deriveMinimum d target = .ok minimum ↔
      d.wholeTokens row.minimum.toNat = .ok minimum ∧ minimum ≤ target := by
  simp only [deriveMinimum, bind_eq_ok_iff, inRow, mapError_eq_ok_iff]
  constructor
  · rintro ⟨least, converted, checked⟩
    split at checked
    · cases checked
    · rename_i within
      cases checked
      exact ⟨converted, Nat.le_of_not_lt within⟩
  · rintro ⟨converted, within⟩
    exact ⟨minimum, converted, if_neg (Nat.not_lt_of_le within)⟩

/-- The row passes every check, and these are the amounts that it comes to. -/
structure ComesTo (row : SaleRow) (d : Denomination) (tokens : Amount) (tier : SaleTier) :
    Prop where
  rate : row.affiliateRate.toNat < partsPerMillion
  unlocked : row.vesting.launchShare.toNat + row.vesting.cliffShare.toNat ≤ partsPerMillion
  price : d.fiatAmount row.price = .ok tier.price
  priced : 0 < tier.price.toNat
  maximum : d.percentOfSupply row.target = .ok tier.maximum
  sold : ∃ net, netOfAffiliate row.target row.affiliateRate = .ok net ∧
    d.percentOfSupply net = .ok tokens
  exhausted : tokens.toNat + tier.affiliateReserve.toNat = tier.maximum.toNat
  minimum : d.wholeTokens row.minimum.toNat = .ok tier.minimum
  purchasable : tier.minimum ≤ tier.maximum
  name : tier.name = row.name
  cooldown : tier.cooldown = row.cooldown
  start : tier.start = row.start
  affiliateRate : tier.affiliateRate = row.affiliateRate
  vesting : tier.vesting = row.vesting

/-- A row is derived exactly where it comes to something, and then to that. -/
theorem derive_eq_ok_iff {a : Allocation} :
    row.derive d = .ok a ↔
      ∃ tokens tier, row.ComesTo d tokens tier ∧ a = Allocation.sale row.id tokens tier := by
  simp only [derive, bind_eq_ok_iff, derivePrice_eq_ok_iff, deriveMinimum_eq_ok_iff, inRow,
    mapError_eq_ok_iff, require_eq_ok_iff, Amount.sub?_eq_some_iff]
  constructor
  · rintro ⟨_, rate, _, unlocked, price, ⟨price_given, priced⟩, target, maximum, net, net_given,
      tokens, sold, reserve, exhausted, minimum, ⟨minimum_given, purchasable⟩, done⟩
    cases done
    refine ⟨tokens, _, ?_, rfl⟩
    exact
      { rate := checkRate_eq_ok_iff.mp rate
        unlocked := VestingSchedule.check_eq_ok_iff.mp unlocked
        price := price_given
        priced := priced
        maximum := maximum
        sold := ⟨net, net_given, sold⟩
        exhausted := exhausted
        minimum := minimum_given
        purchasable := purchasable
        name := rfl
        cooldown := rfl
        start := rfl
        affiliateRate := rfl
        vesting := rfl }
  · rintro ⟨tokens, tier, comes, rfl⟩
    obtain ⟨net, net_given, sold⟩ := comes.sold
    refine ⟨(), checkRate_eq_ok_iff.mpr comes.rate, (),
      VestingSchedule.check_eq_ok_iff.mpr comes.unlocked, tier.price,
      ⟨comes.price, comes.priced⟩, tier.maximum, comes.maximum, net, net_given, tokens, sold,
      tier.affiliateReserve, comes.exhausted, tier.minimum, ⟨comes.minimum, comes.purchasable⟩, ?_⟩
    rw [← comes.name, ← comes.cooldown, ← comes.start, ← comes.affiliateRate, ← comes.vesting]
    rfl

end SaleRow

end TokenPlan
