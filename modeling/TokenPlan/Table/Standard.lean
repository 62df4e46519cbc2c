import TokenPlan.Table.Row
import TokenPlan.Unit.Denomination

/-!
The table that is used where no other is given: four seed tiers and fourteen public tiers with
rising prices, three vesting pools, and the wallet for exchange liquidity. What it leaves of the
supply becomes the liquidity reserve.
-/

set_option autoImplicit false
set_option relaxedAutoImplicit false

namespace TokenPlan.Standard

/-- The opening of the first tier, 2024-05-31T15:43:34Z. -/
def firstStart : UInt64 := 1717170214

structure Tier where
  id : String
  name : String
  /-- Dollars for a whole token, in millionths. -/
  price : UInt32
  /-- The percentage of the supply, in millionths of a percent. -/
  target : UInt32
  minimum : UInt64
  affiliateRate : UInt64
  launchShare : UInt64
  cliffMonths : UInt64
  cliffShare : UInt64

def tiers : List Tier :=
  [⟨"seed_sale_1", "Seed Sale Tier 1", 34, 500000, 1000000, 100000, 30000, 2, 100000⟩,
    ⟨"seed_sale_2", "Seed Sale Tier 2", 38, 750000, 5000000, 97500, 32500, 2, 100000⟩,
    ⟨"seed_sale_3", "Seed Sale Tier 3", 44, 1250000, 5000000, 95000, 35000, 2, 100000⟩,
    ⟨"seed_sale_4", "Seed Sale Tier 4", 50, 1500000, 5000000, 92500, 37500, 2, 100000⟩,
    ⟨"public_sale_1", "Public Sale Tier 1", 57, 1750000, 5000000, 90000, 50000, 4, 50000⟩,
    ⟨"public_sale_2", "Public Sale Tier 2", 64, 2000000, 5000000, 87500, 50000, 4, 50000⟩,
    ⟨"public_sale_3", "Public Sale Tier 3", 73, 2250000, 1000000, 85000, 50000, 4, 50000⟩,
    ⟨"public_sale_4", "Public Sale Tier 4", 83, 2500000, 1000000, 80000, 50000, 4, 50000⟩,
    ⟨"public_sale_5", "Public Sale Tier 5", 94, 3000000, 1000000, 75000, 50000, 4, 50000⟩,
    ⟨"public_sale_6", "Public Sale Tier 6", 107, 3500000, 1000000, 70000, 50000, 4, 50000⟩,
    ⟨"public_sale_7", "Public Sale Tier 7", 121, 4000000, 1000000, 67500, 50000, 4, 50000⟩,
    ⟨"public_sale_8", "Public Sale Tier 8", 137, 4500000, 1000000, 65000, 50000, 4, 50000⟩,
    ⟨"public_sale_9", "Public Sale Tier 9", 156, 5000000, 1000000, 62500, 50000, 4, 50000⟩,
    ⟨"public_sale_10", "Public Sale Tier 10", 177, 5500000, 1000000, 60000, 50000, 4, 50000⟩,
    ⟨"public_sale_11", "Public Sale Tier 11", 201, 5500000, 1000000, 57500, 50000, 4, 50000⟩,
    ⟨"public_sale_12", "Public Sale Tier 12", 227, 5500000, 500000, 55000, 50000, 4, 50000⟩,
    ⟨"public_sale_13", "Public Sale Tier 13", 258, 5500000, 500000, 52500, 50000, 4, 50000⟩,
    ⟨"public_sale_14", "Public Sale Tier 14", 293, 5500000, 500000, 50000, 50000, 4, 50000⟩]

/-- Every tier releases the rest over this many months after its cliff. -/
def saleLinearMonths : UInt64 := 12

structure Pool where
  id : String
  name : String
  /-- The percentage of the supply, in millionths of a percent. -/
  percent : UInt32
  launchShare : UInt64
  cliffMonths : UInt64
  cliffShare : UInt64
  linearMonths : UInt64

def pools : List Pool :=
  [⟨"team", "Squiggle Monster Team Pool", 18000000, 0, 4, 100000, 36⟩,
    ⟨"airdrop", "Squiggle Monster Airdrops", 1000000, 30000, 4, 100000, 24⟩,
    ⟨"marketing", "Squiggle Monster Marketing Pool", 6000000, 50000, 4, 100000, 24⟩]

def Tier.row (tier : Tier) (start : SaleStart) : Row :=
  .sale
    { id := tier.id
      name := tier.name
      cooldown := 0
      start := start
      price := Ratio.millionths tier.price
      target := Ratio.millionths tier.target
      minimum := tier.minimum
      affiliateRate := tier.affiliateRate
      vesting :=
        { launchShare := tier.launchShare
          cliffDuration := monthsToSeconds tier.cliffMonths
          cliffShare := tier.cliffShare
          linearDuration := monthsToSeconds saleLinearMonths } }

/-- The first tier opens at an instant and every later one after the tier before it. -/
def saleRows (start : SaleStart) : List Tier → List Row
  | [] => []
  | tier :: rest => tier.row start :: saleRows .afterPrevious rest

def Pool.row (pool : Pool) : Row :=
  .pool
    { id := pool.id
      name := pool.name
      percent := Ratio.millionths pool.percent
      vesting :=
        { launchShare := pool.launchShare
          cliffDuration := monthsToSeconds pool.cliffMonths
          cliffShare := pool.cliffShare
          linearDuration := monthsToSeconds pool.linearMonths } }

/-- The wallet for exchange liquidity gets fifteen percent less the slice kept for the reserve. -/
def exchangeRow (wallet : Address) : Row :=
  .account ⟨"liquidity_cex", wallet, .net (Ratio.millionths 15000000) (Ratio.millionths 1500000)⟩

/-- The standard table, with the exchange liquidity paid to `wallet`. -/
def rows (wallet : Address) : List Row :=
  saleRows (.instant firstStart) tiers ++ pools.map Pool.row ++ [exchangeRow wallet]

end TokenPlan.Standard
