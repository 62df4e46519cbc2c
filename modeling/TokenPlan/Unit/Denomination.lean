import TokenPlan.Unit.Amount
import TokenPlan.Unit.Ratio
import TokenPlan.Unit.Word

/-!
Conversion of percentages, prices, token counts and months into base units and seconds. All of it
is exact integer arithmetic: a fraction is first rounded to a fixed number of decimal places, and
every division after that rounds down.
-/

set_option autoImplicit false
set_option relaxedAutoImplicit false

namespace TokenPlan

/-- One hundred percent in parts per million. -/
def partsPerMillion : Nat := 1000000

/-- One percent has this many steps. -/
def percentSteps : Nat := 100000000

/-- One dollar has this many steps. -/
def dollarSteps : Nat := 1000000

def Amount.percentOf (total : Amount) (percent : Ratio) : Except UnitError Amount := do
  let steps ← percent.quantize percentSteps
  let scaled ← require .overflow (Amount.ofNat? (total.toNat * steps))
  return scaled.divNat (100 * percentSteps)

/-- A dollar amount in base units of an asset with the given decimals. -/
def Amount.ofDollars (dollars : Ratio) (decimals : Nat) : Except UnitError Amount := do
  let steps ← dollars.quantize dollarSteps
  let one ← require .overflow (Amount.powerOfTen? decimals)
  let scaled ← require .overflow (Amount.ofNat? (steps * one.toNat))
  return scaled.divNat dollarSteps

/-- A month of vesting has 31 days; a time that does not fit is held at the longest one. -/
def monthsToSeconds (months : UInt64) : UInt64 :=
  Word.saturate (months.toNat * (31 * 86400))

/--
The percentage that is sold when the tokens sold and the affiliate pool paid on top of them make up
`target`: the target over one plus the rate.
-/
def netOfAffiliate (target : Ratio) (rate : UInt64) : Except UnitError Ratio :=
  require .overflow do
    let factor ← Ratio.ofParts? (partsPerMillion + rate.toNat) partsPerMillion
    target.div? factor

/-- What amounts are counted in: the supply, and the decimals of the token and of the asset. -/
structure Denomination where
  supply : Amount
  tokenDecimals : Nat
  fiatDecimals : Nat
deriving DecidableEq

namespace Denomination

/-- The supply and decimals of the token that the standard table distributes. -/
def standard : Denomination :=
  { supply := ⟨343434343434343434343434343434, by decide⟩
    tokenDecimals := 18
    fiatDecimals := 18 }

def percentOfSupply (d : Denomination) (percent : Ratio) : Except UnitError Amount :=
  d.supply.percentOf percent

def fiatAmount (d : Denomination) (dollars : Ratio) : Except UnitError Amount :=
  Amount.ofDollars dollars d.fiatDecimals

def wholeTokens (d : Denomination) (count : Nat) : Except UnitError Amount := do
  let one ← require .overflow (Amount.powerOfTen? d.tokenDecimals)
  require .overflow (Amount.ofNat? (count * one.toNat))

end Denomination

end TokenPlan
